import WireCatalog.Directory.Basic

/-! # Rows of built-in packet types

A table lists the packet types of one release, channel by channel. A row is a packet type or an old
name of one. `Table.enrol` registers the rows in order. It stops at the first row that is refused
and keeps what the rows before it did. -/

namespace WireCatalog.BuiltIn

/-- What is special about a packet type of a table. -/
inductive Mark
  | plain
  /-- Its listeners must run off the thread that changes the catalogue. -/
  | forcedAsync
  /-- The release does not send it any more. It stays in the catalogue, deprecated. -/
  | removed
  /-- It belongs to the old wire format, whatever the release. -/
  | legacy
  deriving DecidableEq, Repr

/-- A packet type of a table: its symbolic name, its own name and its two ids. -/
structure Entry where
  name : String
  cls : String
  id : Int
  legacyId : Int
  mark : Mark
  deriving DecidableEq, Repr

inductive Row
  | entry (e : Entry)
  /-- An old symbolic name for another row of the channel. -/
  | renamed (old target : String)
  deriving DecidableEq, Repr

namespace Row

def packet (name cls : String) (id legacyId : Int) : Row := entry ⟨name, cls, id, legacyId, .plain⟩

def asyncPacket (name cls : String) (id legacyId : Int) : Row :=
  entry ⟨name, cls, id, legacyId, .forcedAsync⟩

def removed (name cls : String) (legacyId : Int) : Row :=
  entry ⟨name, cls, unknownId, legacyId, .removed⟩

def legacy (name cls : String) (legacyId : Int) : Row :=
  entry ⟨name, cls, unknownId, legacyId, .legacy⟩

def isEntry : Row → Bool
  | entry _ => true
  | renamed _ _ => false

end Row

namespace Entry

/-- The version that the id of the packet type belongs to, in the table of release `v`. -/
def versionIn (e : Entry) (v : Version) : Version :=
  if e.mark = .legacy then .worldUpdate else v

/-- The declaration of the packet type in a channel, in the table of release `v`. -/
def declaration (e : Entry) (c : Channel) (v : Version) : Declaration :=
  (((Declaration.named c e.cls).withId e.id).withLegacyId e.legacyId).withVersion (e.versionIn v)

def binding (e : Entry) : Binding :=
  ⟨e.name, e.mark == .removed, e.mark == .forcedAsync⟩

end Entry

/-- The packet types of one release. -/
structure Table where
  version : Version
  channels : List (Channel × List Row)

namespace Table

/-- The rows with their channels, in the order in which they are registered. -/
def rows (t : Table) : List (Channel × Row) :=
  t.channels.flatMap fun (c, rs) => rs.map (c, ·)

/-- How many rows are packet types, not just old names. -/
def packetCount (t : Table) : Nat := t.rows.countP (·.2.isEntry)

end Table

/-! ### Registration -/

/-- What has been registered so far: the directories and the number of packet types adopted. -/
structure Progress where
  set : DirectorySet
  adopted : Nat

namespace Progress

/-- Registers one row of a channel. A new packet type gets the number `firstSerial` plus the number
of those adopted before it. -/
def apply (p : Progress) (firstSerial : Nat) (v : Version) (c : Channel) :
    Row → Except CatalogueError Progress
  | .renamed old target => (p.set.retire c old target).map fun (_, set) => { p with set := set }
  | .entry e =>
    match p.set.enter (e.declaration c v) e.binding (firstSerial + p.adopted) with
    | (.adopted _, set) => .ok ⟨set, p.adopted + 1⟩
    | (.present x, _) => .error (.nameConflict c e.name x.name)
    | (.nameTaken name x, _) => .error (.nameConflict c name x.name)

/-- Registers rows in order, up to the first one that is refused. -/
def applyAll (firstSerial : Nat) (v : Version) :
    List (Channel × Row) → Progress → Progress × Option CatalogueError
  | [], p => (p, none)
  | (c, r) :: rest, p =>
    match p.apply firstSerial v c r with
    | .ok p => applyAll firstSerial v rest p
    | .error e => (p, some e)

end Progress

/-- Registers the rows of a table in a set of directories. The new packet types are numbered from
`firstSerial` on. -/
def Table.enrol (t : Table) (set : DirectorySet) (firstSerial : Nat) :
    Progress × Option CatalogueError :=
  Progress.applyAll firstSerial t.version t.rows ⟨set, 0⟩

end WireCatalog.BuiltIn
