import WireCatalog.Catalogue.Event

/-! # The registry

The registry holds the published snapshot and changes it, one change after another. `publish` adopts
a declaration under a provisional name: a name that is taken is replaced once by the next one. A
snapshot is published only when both the directory and the index accept the packet type, so a
refusal leaves the published snapshot as it was.

The registry also counts the provisional names that were drawn, the serial numbers that were given
out and the snapshots that were published, and it keeps the events in its journal. -/

namespace WireCatalog

/-! ### Snapshots

A snapshot is one published state of the catalogue: the directories and the index over them. It is
replaced as a whole. `offer` says what becomes of a declaration under one provisional name, without
changing the snapshot that it is offered to. -/

structure Snapshot where
  directories : DirectorySet
  index : Index

/-- What becomes of a declaration that is offered under a provisional name. -/
inductive Offer
  /-- A new packet type, and the snapshot that holds it. -/
  | published (x : PacketType) (s : Snapshot)
  /-- An equivalent packet type was there. -/
  | present (x : PacketType)
  /-- The provisional name is bound in the directory. -/
  | nameTaken (name : String) (owner : PacketType)
  /-- An alias of the declaration stands for another packet type. -/
  | aliasTaken (name : String) (owner : PacketType)
  /-- The index refuses the new packet type. -/
  | refused (x : PacketType) (error : DuplicateId)

/-- The first alias of a packet type that stands for another one, with the one it stands for. -/
def Index.claimedAlias? (ix : Index) (x : PacketType) : Option (String × PacketType) :=
  x.aliases.findSome? fun name =>
    match ix.byName? x.channel name with
    | some owner => if owner = x then none else some (name, owner)
    | none => none

namespace Snapshot

/-- Offers a declaration under a provisional name. A new packet type gets the given serial
number. -/
def offer (s : Snapshot) (decl : Declaration) (name : String) (serial : Nat) : Offer :=
  match s.directories.enter decl ⟨name, false, false⟩ serial with
  | (.present x, _) => .present x
  | (.nameTaken name owner, _) => .nameTaken name owner
  | (.adopted x, directories) =>
    match s.index.claimedAlias? x with
    | some (name, owner) => .aliasTaken name owner
    | none =>
      match s.index.add x with
      | .error e => .refused x e
      | .ok index => .published x ⟨directories, index⟩

/-- The snapshot with its index made anew from the directories. -/
def reindex (s : Snapshot) : Except DuplicateId Snapshot :=
  (Index.build s.directories).map fun index => { s with index := index }

end Snapshot

/-! ### Provisional names

A unique name ends in the text of a version 4 UUID: 32 hexadecimal digits in five groups, one of them
fixed to the version and the top half of another fixed to the variant. The other 122 bits are
free. -/

namespace Text

/-- The lowest `width` hexadecimal digits of a number, most significant first. -/
def hexDigits : Nat → Nat → List Char
  | 0, _ => []
  | width + 1, n => hexDigits width (n / 16) ++ [Nat.digitChar (n % 16)]

/-- The version 4 UUID with the given free bits. -/
def uuid (bits : Nat) : String :=
  String.ofList (hexDigits 8 (bits >>> 90) ++ '-' ::
    hexDigits 4 (bits >>> 74) ++ '-' ::
    '4' :: hexDigits 3 (bits >>> 62) ++ '-' ::
    Nat.digitChar (8 + (bits >>> 60) % 4) :: hexDigits 3 (bits >>> 48) ++ '-' ::
    hexDigits 12 bits)

end Text

/-- Provisional names in the order in which they are drawn. -/
abbrev NameStream := Nat → String

namespace NameStream

/-- The prefix followed by UUIDs whose free bits count up from `seed`. -/
def unique (start : String) (seed : Nat) : NameStream :=
  fun n => start ++ Text.uuid (seed + n)

/-- The given names, and after them the prefix followed by 1, 2 and so on. -/
def listed (given : List String) (start : String) : NameStream :=
  fun n => given[n]?.getD (start ++ (n + 1 - given.length).repr)

end NameStream

/-! ### The registry -/

/-- The end of a registration that succeeds. -/
inductive Registration
  /-- A new packet type was published. -/
  | published (x : PacketType)
  /-- An equivalent packet type was published before. -/
  | present (x : PacketType)
  deriving DecidableEq, Repr

def Registration.packetType : Registration → PacketType
  | published x => x
  | present x => x

structure Registry where
  snapshot : Snapshot
  /-- The provisional names, in the order in which they are drawn. -/
  names : NameStream
  /-- How many names were drawn. -/
  drawn : Nat
  /-- The serial number of the next packet type. -/
  nextSerial : Nat
  /-- How many snapshots replaced another one. -/
  revision : Nat
  /-- What happened, the first event first. -/
  journal : List Event

namespace Registry

/-- Adds events to the journal. -/
def log (r : Registry) (es : List Event) : Registry := { r with journal := r.journal ++ es }

/-- The next provisional name, and the registry without it. -/
def draw (r : Registry) : String × Registry := (r.names r.drawn, { r with drawn := r.drawn + 1 })

/-- Replaces the published snapshot. -/
def replace (r : Registry) (s : Snapshot) : Registry :=
  { r with snapshot := s, revision := r.revision + 1 }

/-- The collisions that one index has and an earlier one had not, as events. -/
def newCollisions (before after : Index) : List Event :=
  (after.collisions.drop before.collisions.length).map .collision

/-! ### Publication -/

/-- Offers a declaration under the next name. Of the names that follow, `left` may be tried if it is
taken; `attempt` counts the names tried, this one included. -/
def publishFrom (decl : Declaration) (attempt : Nat) :
    Nat → Registry → Except CatalogueError Registration × Registry
  | left, r =>
    let (name, r) := r.draw
    match r.snapshot.offer decl name r.nextSerial with
    | .published x s =>
      (.ok (.published x),
        ({ r with nextSerial := r.nextSerial + 1 }.replace s).log
          (newCollisions r.snapshot.index s.index ++
            [Event.stage .published decl.key, Event.published x.name x.canonical decl.key]))
    | .present x => (.ok (.present x), r.log [.alreadyPresent x.name])
    | .aliasTaken taken owner =>
      (.error (.nameConflict decl.channel taken owner.name),
        r.log [.aliasTaken taken owner.name decl.channel, .stage .rejected decl.key])
    | .refused x e =>
      (.error (.index e), r.log [.indexRefused e x.name, .stage .rejected decl.key])
    | .nameTaken name owner =>
      let r := r.log [.nameTaken name attempt decl.channel]
      match left with
      | 0 => (.error (.nameConflict decl.channel name owner.name),
          r.log [.stage .rejected decl.key])
      | left + 1 => publishFrom decl (attempt + 1) left r

/-- Adopts a declaration under a provisional name and publishes the result. Two names are tried at
most. -/
def publish (r : Registry) (decl : Declaration) : Except CatalogueError Registration × Registry :=
  publishFrom decl 1 1 (r.log [.stage .adoptPending decl.key])

/-! ### A new index -/

/-- The events of building an index: its collisions, and its size unless a packet type was
refused. -/
def buildEvents : Index × Option DuplicateId → List Event
  | (ix, none) =>
    ix.collisions.map .collision ++
      [.indexBuilt ix.known.length ix.legacyIdCount ix.collisions.length]
  | (ix, some _) => ix.collisions.map .collision

/-- Publishes a snapshot whose index is made anew from the published directories. -/
def rebuild (r : Registry) : Except CatalogueError Unit × Registry :=
  let events := buildEvents (Index.gather r.snapshot.directories)
  match r.snapshot.reindex with
  | .ok s => (.ok (), (r.replace s).log events)
  | .error e => (.error (.index e), r.log events)

/-- A packet type that no look-up will ever return. -/
def detach (r : Registry) (decl : Declaration) : PacketType × Registry :=
  let (name, r) := r.draw
  (decl.bind ⟨name, false, false⟩ r.nextSerial, { r with nextSerial := r.nextSerial + 1 })

end Registry

end WireCatalog
