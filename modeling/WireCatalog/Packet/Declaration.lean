import WireCatalog.Protocol.Channel
import WireCatalog.Protocol.Version

/-! # Names, wire keys and declarations

The canonical name of a packet type is `Packet`, the label of its phase, the label of its direction
and its own name with each word capitalized. A name that contains `Packet` already is qualified and
stands for itself, so formatting a formatted name changes nothing.

What identifies a packet type on the wire is its key: its channel and its id under the active
protocol version. Ids are integers, and `unknownId` stands for the id of a packet type that has none.

A declaration is a packet type before a directory adopts it: its wire key, its id in the old wire
format, the version that its id belongs to and the names by which it is found. The first name is the
canonical one. All names are in canonical form, and none is given twice. -/

namespace WireCatalog

/-! ### Packet names -/

namespace PacketName

/-- The word that marks a qualified name. -/
def marker : String := "Packet"

/-- Whether `m` occurs in a list of characters. -/
def occurs (m : List Char) : List Char → Bool
  | [] => m.isEmpty
  | c :: cs => m.isPrefixOf (c :: cs) || occurs m cs

/-- Whether a name is qualified and is used as it stands. -/
def isQualified (name : String) : Bool :=
  occurs marker.toList name.toList

/-- Upper-cases the first character of every word. `start` tells that no character of the present
word came yet. -/
def capitalizeFrom (start : Bool) : List Char → List Char
  | [] => []
  | c :: cs =>
    if Text.isBlank c then c :: capitalizeFrom true cs
    else if start then Text.upper c ++ capitalizeFrom false cs
    else c :: capitalizeFrom false cs

/-- The text with the first character of every word in upper case. Words end at blanks. -/
def capitalize (s : String) : String :=
  String.ofList (capitalizeFrom true s.toList)

/-- What the names of a channel start with. -/
def stem (c : Channel) : String :=
  marker ++ c.phase.label ++ c.direction.label

/-- The canonical form of a name in a channel. -/
def format (c : Channel) (name : String) : String :=
  if isQualified name then name else stem c ++ capitalize name

end PacketName

/-! ### Wire keys -/

/-- The id of a packet type that does not exist in the wire format in question. -/
def unknownId : Int := -1

structure WireKey where
  channel : Channel
  id : Int
  deriving DecidableEq, Repr

namespace WireKey

/-- Whether the packet type has an id under the active version. -/
def isKnown (k : WireKey) : Bool := k.id != unknownId

/-- Keys compare by channel, then by id. -/
instance : Ord WireKey := ⟨fun k l => (compare k.channel l.channel).then (compare k.id l.id)⟩

def toString (k : WireKey) : String := s!"{k.channel}#{k.id}"

instance : ToString WireKey := ⟨toString⟩

end WireKey

/-! ### Declarations -/

structure Declaration where
  key : WireKey
  legacyId : Int
  version : Version
  /-- The name that the packet type is declared under. -/
  canonical : String
  /-- The names given after it, in order. -/
  further : List String
  /-- Whether the packet type was discovered while running. -/
  isDynamic : Bool
  deriving DecidableEq, Repr

namespace Declaration

/-- A packet type without ids, named in a channel. -/
def named (c : Channel) (name : String) : Declaration where
  key := ⟨c, unknownId⟩
  legacyId := unknownId
  version := .villageUpdate
  canonical := PacketName.format c name
  further := []
  isDynamic := false

/-- A packet type that exists in the old wire format only. -/
def legacy (d : Direction) (legacyId : Int) (name : String) : Declaration :=
  { named ⟨.legacy, d⟩ name with legacyId := legacyId, version := .worldUpdate }

def channel (d : Declaration) : Channel := d.key.channel

/-- Every name of the packet type, the canonical one first. -/
def aliases (d : Declaration) : List String := d.canonical :: d.further

def withId (d : Declaration) (id : Int) : Declaration :=
  { d with key := { d.key with id := id } }

def withLegacyId (d : Declaration) (id : Int) : Declaration := { d with legacyId := id }

def withVersion (d : Declaration) (v : Version) : Declaration := { d with version := v }

def asDynamic (d : Declaration) : Declaration := { d with isDynamic := true }

/-- Adds a name, in canonical form, unless the declaration has it already. -/
def withAlias (d : Declaration) (name : String) : Declaration :=
  let formatted := PacketName.format d.channel name
  if formatted ∈ d.aliases then d else { d with further := d.further ++ [formatted] }

end Declaration

end WireCatalog
