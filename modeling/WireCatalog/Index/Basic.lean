import WireCatalog.Directory.Basic

/-! # The index

Look-up tables over all channels: by wire key, by name within a channel and by legacy id. At most
one packet type has a known wire key, and a second claimant is refused. A name belongs to the packet
type that claimed it first; each later claim by another one is recorded as a collision and changes
nothing else. The packet types that share a legacy id are kept in the order in which they came.

`add` extends the tables by one packet type, and `build` makes them from the directories. -/

namespace WireCatalog

/-! ### Collisions

A name that two packet types of one channel both claim. The packet type that had the name keeps it,
and the claim that lost is recorded. -/

/-- What kind of name a packet type claims. -/
inductive NameKind
  | symbolic
  /-- One of the names of the declaration. -/
  | declared
  | retired
  deriving DecidableEq, Repr

def NameKind.toString : NameKind → String
  | symbolic => "symbolic"
  | declared => "alias"
  | retired => "alias_record"

instance : ToString NameKind := ⟨NameKind.toString⟩

structure Collision where
  channel : Channel
  name : String
  kind : NameKind
  /-- The packet type that keeps the name. -/
  existing : PacketType
  /-- The packet type that lost it. -/
  incoming : PacketType
  deriving DecidableEq, Repr

namespace Collision

def toString (c : Collision) : String :=
  s!"{c.channel} {c.kind} " ++ Text.quoted c.name ++
    s!": kept {c.existing.name}, dropped {c.incoming.name}"

instance : ToString Collision := ⟨toString⟩

end Collision

/-! ### The tables -/

structure Index where
  /-- The packet types with a known wire key. -/
  known : List PacketType
  /-- What each name of a channel stands for: symbolic names, aliases and retired names. -/
  names : PerChannel (Assoc String PacketType)
  /-- The packet types with a known legacy id, in the order in which they came. -/
  legacy : List PacketType
  /-- The claims that lost, in the order in which they were made. -/
  collisions : List Collision

namespace Index

def empty : Index := ⟨[], PerChannel.tabulate fun _ => [], [], []⟩

/-! ### Look-ups -/

/-- The packet type with a wire key. -/
def byKey? (ix : Index) (k : WireKey) : Option PacketType :=
  ix.known.find? (·.key == k)

/-- The packet type that a name stands for in a channel, the name taken as it is. -/
def bound? (ix : Index) (c : Channel) (name : String) : Option PacketType :=
  (ix.names.get c).get? name

/-- The packet type that a name stands for in a channel: in its canonical form or else as it is. -/
def byName? (ix : Index) (c : Channel) (name : String) : Option PacketType :=
  (ix.bound? c (PacketName.format c name)).or (ix.bound? c name)

/-- The packet types with a legacy id, in the order in which they came. -/
def bucket (ix : Index) (id : Int) : List PacketType :=
  ix.legacy.filter (·.legacyId == id)

/-- The packet type with a legacy id: the first of the preferred direction, or else the first. -/
def byLegacyId? (ix : Index) (id : Int) (preferred : Option Direction) : Option PacketType :=
  let xs := ix.bucket id
  (preferred.bind fun d => xs.find? (·.channel.direction == d)).or xs.head?

/-- The packet types of a channel that have a canonical name among their aliases: the one that the
name stands for and those that lost it. -/
def claimants (ix : Index) (c : Channel) (canonical : String) : List PacketType :=
  let losers := ix.collisions.filter fun l => l.channel == c && l.name == canonical
  ((ix.bound? c canonical).toList ++ losers.map (·.incoming)).filter (·.hasAlias canonical)

/-- The packet types of any channel with a name among their aliases, none of them twice. -/
def byAlias (ix : Index) (name : String) : List PacketType :=
  (Channel.all.flatMap fun c => ix.claimants c (PacketName.format c name)).eraseDups

/-! ### Sizes -/

/-- How many names are bound. -/
def nameCount (ix : Index) : Nat := ix.names.toList.foldl (fun n t => n + t.length) 0

/-- How many legacy ids are in use. -/
def legacyIdCount (ix : Index) : Nat := (ix.legacy.map (·.legacyId)).eraseDups.length

/-! ### Additions -/

/-- Binds a name of a channel to a packet type, unless another one has it. -/
def claimName (ix : Index) (c : Channel) (kind : NameKind) (x : PacketType) (name : String) :
    Index :=
  match ix.bound? c name with
  | none => { ix with names := ix.names.set c ((name, x) :: ix.names.get c) }
  | some owner =>
    if owner = x then ix
    else { ix with collisions := ix.collisions ++ [⟨c, name, kind, owner, x⟩] }

/-- Claims the symbolic name of a packet type and then each of its aliases. -/
def claimNames (ix : Index) (x : PacketType) : Index :=
  x.aliases.foldl (fun ix name => ix.claimName x.channel .declared x name)
    (ix.claimName x.channel .symbolic x x.name)

/-- Files a packet type under its wire key if that is known. -/
def claimKey (ix : Index) (x : PacketType) : Except DuplicateId Index :=
  if x.key.isKnown then
    match ix.byKey? x.key with
    | none => .ok { ix with known := ix.known ++ [x] }
    | some owner => if owner = x then .ok ix else .error ⟨x.key, owner.name, x.name⟩
  else .ok ix

/-- Files a packet type under its legacy id if that is known. -/
def fileLegacy (ix : Index) (x : PacketType) : Index :=
  if x.legacyId = unknownId ∨ x ∈ ix.legacy then ix
  else { ix with legacy := ix.legacy ++ [x] }

/-- Adds a packet type to every table. One that is there already changes nothing. -/
def add (ix : Index) (x : PacketType) : Except DuplicateId Index :=
  (ix.claimKey x).map fun ix => (ix.claimNames x).fileLegacy x

/-! ### Building -/

/-- Adds packet types up to the first one that is refused, and tells its refusal. -/
def addAll (ix : Index) : List PacketType → Index × Option DuplicateId
  | [] => (ix, none)
  | x :: xs =>
    match ix.add x with
    | .ok ix => ix.addAll xs
    | .error e => (ix, some e)

/-- Claims the retired names of a directory for what they stand for. -/
def claimRetired (ix : Index) (d : Directory) : Index :=
  d.retired.foldl (fun ix r => ix.claimName d.channel .retired r.target r.name) ix

/-- Adds the entries of each directory and then its retired names, up to the first packet type that
is refused. -/
def addDirectories (ix : Index) : List Directory → Index × Option DuplicateId
  | [] => (ix, none)
  | d :: ds =>
    match ix.addAll d.entries with
    | (ix, none) => (ix.claimRetired d).addDirectories ds
    | (ix, some e) => (ix, some e)

/-- What comes before the first packet type of the directories that is refused, and the refusal. If
nothing is refused, that is the index of the directories. -/
def gather (s : DirectorySet) : Index × Option DuplicateId := empty.addDirectories s.toList

/-- The index of a set of directories. -/
def build (s : DirectorySet) : Except DuplicateId Index :=
  match gather s with
  | (ix, none) => .ok ix
  | (_, some e) => .error e

end Index

end WireCatalog
