import WireCatalog.Assoc
import WireCatalog.Error
import WireCatalog.Packet.PacketType

/-! # Directories

A directory owns the packet types of one channel. It keeps them in the order in which they were
adopted, and binds each symbolic name and each retired name to at most one of them.

`adopt` turns a declaration into a new entry unless an equivalent entry is there or the name is
taken. Which entry is equivalent depends on the ids that the declaration knows: the entry with the
same id; without an id, the entry without an id that has the same legacy id; without either, the
entry without either that has the canonical name of the declaration among its aliases. `retire`
keeps an old name for an entry. Neither changes the directory when it refuses. -/

namespace WireCatalog

/-- What a bound name points to: a position among the entries or among the retired names. -/
inductive NameSlot
  | entry (i : Nat)
  | retired (i : Nat)
  deriving DecidableEq, Repr

/-- An old name that still stands for an entry. -/
structure RetiredName where
  name : String
  target : PacketType
  deriving DecidableEq, Repr

structure Directory where
  channel : Channel
  /-- The packet types, in the order of their adoption. -/
  entries : List PacketType
  /-- The retired names, in the order in which they were added. -/
  retired : List RetiredName
  /-- What each bound name points to. -/
  names : Assoc String NameSlot
  deriving DecidableEq, Repr

/-- The outcome of offering a declaration to its directory. -/
inductive Adoption
  | adopted (x : PacketType)
  /-- An equivalent entry was there. -/
  | present (x : PacketType)
  /-- The symbolic name is bound to the given entry. -/
  | nameTaken (name : String) (owner : PacketType)
  deriving DecidableEq, Repr

/-- A declaration, given by its canonical name, that was offered to the directory of a channel it
does not belong to. -/
structure Foreign where
  canonical : String
  channel : Channel
  deriving DecidableEq, Repr

def Foreign.message (e : Foreign) : String :=
  s!"{e.canonical} declared into the {e.channel} directory"

namespace Directory

def empty (c : Channel) : Directory := ⟨c, [], [], []⟩

/-! ### Look-ups -/

/-- The packet type in a slot. -/
def atSlot? (d : Directory) : NameSlot → Option PacketType
  | .entry i => d.entries[i]?
  | .retired i => d.retired[i]?.map (·.target)

/-- The packet type that a symbolic or retired name stands for. -/
def byName? (d : Directory) (name : String) : Option PacketType :=
  (d.names.get? name).bind d.atSlot?

/-- The entry with a known id. -/
def byId? (d : Directory) (id : Int) : Option PacketType :=
  if id = unknownId then none else d.entries.find? (·.key.id == id)

/-- Whether a name is retired or is the name of a deprecated entry. -/
def isDeprecatedName (d : Directory) (name : String) : Bool :=
  match d.names.get? name with
  | some (.retired _) => true
  | some (.entry i) => d.entries[i]?.any (·.isDeprecated)
  | none => false

/-- The entry that a declaration describes again. -/
def equivalent? (d : Directory) (decl : Declaration) : Option PacketType :=
  if decl.key.isKnown then
    d.byId? decl.key.id
  else if decl.legacyId ≠ unknownId then
    d.entries.find? fun x => !x.key.isKnown && x.legacyId == decl.legacyId
  else
    d.entries.find? fun x =>
      !x.key.isKnown && x.legacyId == unknownId && x.hasAlias decl.canonical

/-! ### Changes -/

/-- The directory with a packet type added at the end under its symbolic name. -/
def append (d : Directory) (x : PacketType) : Directory :=
  { d with
    entries := d.entries ++ [x]
    names := (x.name, .entry d.entries.length) :: d.names }

/-- Adopts a declaration of this channel under a binding, unless an equivalent entry is there or the
name is taken. A new entry gets the given serial number. -/
def enter (d : Directory) (decl : Declaration) (b : Binding) (serial : Nat) :
    Adoption × Directory :=
  match d.equivalent? decl with
  | some x => (.present x, d)
  | none =>
    match d.byName? b.name with
    | some owner => (.nameTaken b.name owner, d)
    | none =>
      let x := decl.bind b serial
      (.adopted x, d.append x)

/-- Adopts a declaration if it belongs to this channel. -/
def adopt (d : Directory) (decl : Declaration) (b : Binding) (serial : Nat) :
    Except Foreign (Adoption × Directory) :=
  if decl.channel = d.channel then .ok (d.enter decl b serial)
  else .error ⟨decl.canonical, d.channel⟩

/-- The directory with an old name added for an entry. -/
def appendRetired (d : Directory) (old : String) (x : PacketType) : Directory :=
  { d with
    retired := d.retired ++ [⟨old, x⟩]
    names := (old, .retired d.retired.length) :: d.names }

/-- Keeps an old name for the entry that a name stands for. -/
def retire (d : Directory) (old target : String) : Except CatalogueError (PacketType × Directory) :=
  match d.byName? target with
  | none => .error (.notFound (.name d.channel target))
  | some x =>
    match d.byName? old with
    | some owner => .error (.nameConflict d.channel old owner.name)
    | none => .ok (x, d.appendRetired old x)

end Directory

/-! ### The ten directories

One directory for each channel, in the enumeration order of the channels. -/

abbrev DirectorySet := PerChannel Directory

namespace DirectorySet

def empty : DirectorySet := PerChannel.tabulate Directory.empty

/-- The directories, those of the legacy phase only if asked for. -/
def included (s : DirectorySet) (withLegacy : Bool) : List Directory :=
  s.toList.filter fun d => withLegacy || !d.channel.phase.isLegacy

/-- The packet types of every included directory, in order. -/
def enumerate (s : DirectorySet) (withLegacy : Bool) : List PacketType :=
  (s.included withLegacy).flatMap (·.entries)

/-- How many packet types there are. -/
def size (s : DirectorySet) : Nat :=
  s.toList.foldl (fun n d => n + d.entries.length) 0

/-- Adopts a declaration in the directory of its channel. -/
def enter (s : DirectorySet) (decl : Declaration) (b : Binding) (serial : Nat) :
    Adoption × DirectorySet :=
  let (outcome, d) := (s.get decl.channel).enter decl b serial
  (outcome, s.set decl.channel d)

/-- Adopts a declaration in the directory of a channel if it belongs there. -/
def adopt (s : DirectorySet) (c : Channel) (decl : Declaration) (b : Binding) (serial : Nat) :
    Except Foreign (Adoption × DirectorySet) :=
  ((s.get c).adopt decl b serial).map fun (outcome, d) => (outcome, s.set c d)

/-- Keeps an old name in a directory. -/
def retire (s : DirectorySet) (c : Channel) (old target : String) :
    Except CatalogueError (PacketType × DirectorySet) :=
  (s.get c).retire old target |>.map fun (x, d) => (x, s.set c d)

end DirectorySet

end WireCatalog
