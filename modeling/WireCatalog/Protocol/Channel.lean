/-! # Phases, directions and channels

A channel is a phase together with a direction. Packet ids and packet names are unique within a
channel only, so everything the catalogue keeps is kept per channel. The ten channels are
enumerated by phase and then by direction; `PerChannel` is a table with one value for each. -/

namespace WireCatalog

/-! ### Phases

The stages of a connection. Their order of declaration is the order in which packet types of
different phases compare. A phase has an upper-case name for messages and configuration and a
capitalized label that stands inside packet names. -/

/-- The stage of a connection in which a packet type is valid. The legacy phase holds what existed
only in the old wire format. -/
inductive Phase
  | handshaking
  | play
  | status
  | login
  | legacy
  deriving DecidableEq, Repr

namespace Phase

/-- Every phase, in order. -/
def all : List Phase := [handshaking, play, status, login, legacy]

theorem mem_all (p : Phase) : p ∈ all := by cases p <;> decide

/-- The position of a phase in `all`. -/
def rank : Phase → Fin 5
  | handshaking => 0
  | play => 1
  | status => 2
  | login => 3
  | legacy => 4

theorem rank_injective {p q : Phase} (h : p.rank = q.rank) : p = q := by
  cases p <;> cases q <;> revert h <;> decide

instance : Ord Phase := ⟨fun p q => compare p.rank q.rank⟩

def name : Phase → String
  | handshaking => "HANDSHAKING"
  | play => "PLAY"
  | status => "STATUS"
  | login => "LOGIN"
  | legacy => "LEGACY"

instance : ToString Phase := ⟨name⟩

/-- The form of the name that stands inside packet names. -/
def label : Phase → String
  | handshaking => "Handshaking"
  | play => "Play"
  | status => "Status"
  | login => "Login"
  | legacy => "Legacy"

def isLegacy (p : Phase) : Bool := p == legacy

/-- The phase with exactly this name. -/
def ofName? (s : String) : Option Phase :=
  all.find? (·.name == s)

/-- The phase that a text names: ASCII letters count the same in both cases, and `HANDSHAKE` is
another spelling of the handshaking phase. -/
def ofText? (s : String) : Option Phase :=
  if s.toUpper == "HANDSHAKE" then some handshaking else ofName? s.toUpper

end Phase

/-! ### Directions

Which endpoint sends a packet. The direction from the client counts as incoming, the one from the
server as outgoing, and the former orders before the latter. -/

inductive Direction
  | clientToServer
  | serverToClient
  deriving DecidableEq, Repr

namespace Direction

/-- Both directions, in order. -/
def all : List Direction := [clientToServer, serverToClient]

theorem mem_all (d : Direction) : d ∈ all := by cases d <;> decide

/-- The position of a direction in `all`. -/
def rank : Direction → Fin 2
  | clientToServer => 0
  | serverToClient => 1

theorem rank_injective {d e : Direction} (h : d.rank = e.rank) : d = e := by
  cases d <;> cases e <;> revert h <;> decide

instance : Ord Direction := ⟨fun d e => compare d.rank e.rank⟩

def name : Direction → String
  | clientToServer => "CLIENT_TO_SERVER"
  | serverToClient => "SERVER_TO_CLIENT"

instance : ToString Direction := ⟨name⟩

/-- The tag that stands inside packet names. -/
def label : Direction → String
  | clientToServer => "In"
  | serverToClient => "Out"

def isClient (d : Direction) : Bool := d == clientToServer

def isServer (d : Direction) : Bool := d == serverToClient

/-- The direction in which the other endpoint sends. -/
def opposite : Direction → Direction
  | clientToServer => serverToClient
  | serverToClient => clientToServer

/-- The direction with exactly this name. -/
def ofName? (s : String) : Option Direction :=
  all.find? (·.name == s)

/-- The spellings of a direction, in upper case: the full name, the endpoint that sends, and the
tag of packet names. -/
def spellings : Direction → List String
  | clientToServer => ["CLIENT_TO_SERVER", "CLIENT", "IN"]
  | serverToClient => ["SERVER_TO_CLIENT", "SERVER", "OUT"]

/-- The direction that a text names. ASCII letters count the same in both cases. -/
def ofText? (s : String) : Option Direction :=
  all.find? fun d => d.spellings.contains s.toUpper

end Direction

/-! ### Channels -/

structure Channel where
  phase : Phase
  direction : Direction
  deriving DecidableEq, Repr

namespace Channel

/-- The ten channels, in enumeration order. -/
def all : List Channel :=
  Phase.all.flatMap fun p => Direction.all.map fun d => ⟨p, d⟩

theorem mem_all (c : Channel) : c ∈ all := by
  rcases c with ⟨p, d⟩
  exact List.mem_flatMap.2 ⟨p, p.mem_all, List.mem_map.2 ⟨d, d.mem_all, rfl⟩⟩

/-- The position of a channel in `all`. -/
def slot (c : Channel) : Fin 10 :=
  ⟨c.phase.rank * 2 + c.direction.rank, by omega⟩

theorem slot_injective {c c' : Channel} (h : c.slot = c'.slot) : c = c' := by
  rcases c with ⟨p, d⟩
  rcases c' with ⟨p', d'⟩
  have h : p.rank.val * 2 + d.rank.val = p'.rank.val * 2 + d'.rank.val := congrArg Fin.val h
  have hp : p = p' := Phase.rank_injective (Fin.ext (by omega))
  have hd : d = d' := Direction.rank_injective (Fin.ext (by omega))
  rw [hp, hd]

theorem all_getElem?_slot (c : Channel) : all[c.slot.val]? = some c := by
  rcases c with ⟨p, d⟩
  cases p <;> cases d <;> rfl

/-- Channels compare by phase, then by direction. -/
instance : Ord Channel :=
  ⟨fun c c' => (compare c.phase c'.phase).then (compare c.direction c'.direction)⟩

instance : ToString Channel := ⟨fun c => c.phase.name ++ "/" ++ c.direction.name⟩

end Channel

/-! ### Tables with one value for each channel -/

/-- One value of type `α` for each channel. -/
structure PerChannel (α : Type) where
  slots : Vector α 10

namespace PerChannel

variable {α : Type}

/-- The table that holds `f c` for each channel `c`. -/
def tabulate (f : Channel → α) : PerChannel α :=
  ⟨Vector.ofFn fun i => f (Channel.all.get ⟨i.val, i.isLt⟩)⟩

def get (t : PerChannel α) (c : Channel) : α :=
  t.slots[c.slot]

/-- The table with the value of one channel replaced. -/
def set (t : PerChannel α) (c : Channel) (a : α) : PerChannel α :=
  ⟨t.slots.set c.slot a⟩

/-- The values, in the enumeration order of the channels. -/
def toList (t : PerChannel α) : List α :=
  Channel.all.map t.get

@[simp] theorem get_tabulate (f : Channel → α) (c : Channel) : (tabulate f).get c = f c := by
  have h := c.all_getElem?_slot
  simp only [tabulate, get, Fin.getElem_fin, Vector.getElem_ofFn]
  rw [List.getElem?_eq_getElem c.slot.isLt] at h
  exact congrArg f (Option.some.inj h)

@[simp] theorem get_set_self (t : PerChannel α) (c : Channel) (a : α) : (t.set c a).get c = a := by
  simp [get, set]

theorem get_set_of_ne (t : PerChannel α) {c c' : Channel} (a : α) (h : c ≠ c') :
    (t.set c a).get c' = t.get c' := by
  have : c.slot.val ≠ c'.slot.val := fun e => h (Channel.slot_injective (Fin.ext e))
  simp [get, set, this]

end PerChannel

end WireCatalog
