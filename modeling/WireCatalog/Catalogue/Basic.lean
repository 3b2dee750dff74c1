import WireCatalog.Catalogue.Registry
import WireCatalog.Packet.ClassTable
import WireCatalog.Settings.Basic
import WireCatalog.Worker.Executor

/-! # The catalogue

The catalogue joins the registry of packet types with the known classes, the protocol that the peer
speaks and the executor that changes are confined to. Look-ups read the published snapshot. -/

namespace WireCatalog

/-- The protocol that the peer speaks. -/
structure Peer where
  version : Version
  /-- Whether the peer uses the old wire format. -/
  legacyWireFormat : Bool
  deriving DecidableEq, Repr

/-- The peer that the settings describe. -/
def Peer.ofSettings (s : Settings) : Peer := ⟨s.protocolVersion, s.legacyWireFormat⟩

structure Catalogue where
  registry : Registry
  binder : Binder
  peer : Peer
  executor : Executor
  settings : Settings

namespace Catalogue

def snapshot (c : Catalogue) : Snapshot := c.registry.snapshot

def directories (c : Catalogue) : DirectorySet := c.snapshot.directories

def index (c : Catalogue) : Index := c.snapshot.index

/-- Adds events to the journal. -/
def log (c : Catalogue) (es : List Event) : Catalogue := { c with registry := c.registry.log es }

/-- Records that a class carries a packet type. -/
def remember (c : Catalogue) (cls : ClassName) (x : PacketType) : Catalogue :=
  { c with binder := c.binder.remember cls x }

/-! ### Look-ups -/

def resolveCurrent (c : Catalogue) (k : WireKey) : Option PacketType := c.index.byKey? k

def resolveName (c : Catalogue) (ch : Channel) (name : String) : Option PacketType :=
  c.index.byName? ch name

def resolveLegacy (c : Catalogue) (id : Int) (preferred : Option Direction) : Option PacketType :=
  c.index.byLegacyId? id preferred

/-- The packet type found, or the refusal of the key that was looked up. -/
def found (key : LookupKey) : Option PacketType → Except CatalogueError PacketType
  | some x => .ok x
  | none => .error (.notFound key)

def findCurrent (c : Catalogue) (k : WireKey) : Except CatalogueError PacketType :=
  found (.current k) (c.resolveCurrent k)

def findName (c : Catalogue) (ch : Channel) (name : String) : Except CatalogueError PacketType :=
  found (.name ch name) (c.resolveName ch name)

def findLegacy (c : Catalogue) (id : Int) (preferred : Option Direction) :
    Except CatalogueError PacketType :=
  found (.legacy id preferred) (c.resolveLegacy id preferred)

/-- Looks a name up in the channel that two texts name. -/
def findNamed (c : Catalogue) (phase direction name : String) :
    Except CatalogueError PacketType := do
  let p ← (Phase.parse phase).mapError .unreadable
  let d ← (Direction.parse direction).mapError .unreadable
  c.findName ⟨p, d⟩ name

def hasCurrent (c : Catalogue) (k : WireKey) : Bool := (c.resolveCurrent k).isSome

def hasLegacy (c : Catalogue) (id : Int) : Bool := !(c.index.bucket id).isEmpty

/-- The packet types of any channel with a name among their aliases. -/
def fromName (c : Catalogue) (name : String) : List PacketType := c.index.byAlias name

/-- The packet types in directory order, those of the legacy phase only if asked for. -/
def enumerate (c : Catalogue) (withLegacy : Bool) : List PacketType :=
  c.directories.enumerate withLegacy

/-- The packet types of the wire format that the peer speaks. -/
def values (c : Catalogue) : List PacketType := c.enumerate c.peer.legacyWireFormat

/-! ### Classes -/

/-- The packet type that a class is bound to. -/
def fromClass (c : Catalogue) (cls : ClassName) : Except CatalogueError PacketType :=
  match c.binder.typeOf? cls with
  | some x => .ok x
  | none => .error (.notAPacketClass cls)

def hasClass (c : Catalogue) (cls : ClassName) : Bool := (c.binder.typeOf? cls).isSome

/-- Whether a class is known for a packet type. -/
def isSupported (c : Catalogue) (x : PacketType) : Bool := (c.binder.classOf? x).isSome

def describe (c : Catalogue) (x : PacketType) : String := x.describe (c.binder.classOf? x)

/-- A summary of the catalogue: its size, the active version and whether changes are confined. -/
def summary (c : Catalogue) : String :=
  let v := c.peer.version
  "Catalog \x7b " ++ s!"packets: {c.directories.size}, version: VersionTag " ++
    "\x7b " ++ s!"major: {v.major}, minor: {v.minor}, patch: {v.patch}" ++ " \x7d, " ++
    s!"confined: {c.executor.isPresent}, .. " ++ "\x7d"

end Catalogue

end WireCatalog
