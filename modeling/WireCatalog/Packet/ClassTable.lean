import WireCatalog.Assoc
import WireCatalog.Packet.PacketType

/-! # Known classes

Which class carries which packet type. A class stands for one packet type. A packet type is looked
up by its wire key and canonical name, so two packet types that agree in both share a class. The
last binding wins on both sides: it takes the class from the packet type that had it, and the packet
type from its earlier class. -/

namespace WireCatalog

/-- What a packet type is looked up by among the known classes. -/
def PacketType.classKey (x : PacketType) : WireKey × String := (x.key, x.canonical)

structure ClassTable where
  /-- The packet type that each class carries. -/
  types : Assoc ClassName PacketType
  /-- The class of each packet type. -/
  classes : Assoc (WireKey × String) ClassName
  deriving DecidableEq, Repr

namespace ClassTable

def empty : ClassTable := ⟨[], []⟩

def classOf? (t : ClassTable) (x : PacketType) : Option ClassName := t.classes.get? x.classKey

def typeOf? (t : ClassTable) (c : ClassName) : Option PacketType := t.types.get? c

/-- How many classes are known. -/
def size (t : ClassTable) : Nat := t.types.length

/-- The packet types by class, without the class that a packet type had before it gets the
class `c`. -/
def typesWithoutOld (t : ClassTable) (c : ClassName) (x : PacketType) :
    Assoc ClassName PacketType :=
  match t.classOf? x with
  | some old => if old = c then t.types else t.types.erase old
  | none => t.types

/-- The classes by packet type, without the packet type that had the class `c` before `x` gets
it. -/
def classesWithoutOld (t : ClassTable) (c : ClassName) (x : PacketType) :
    Assoc (WireKey × String) ClassName :=
  match t.typeOf? c with
  | some y => if y.classKey = x.classKey then t.classes else t.classes.erase y.classKey
  | none => t.classes

/-- Binds a class and a packet type to each other. -/
def bind (t : ClassTable) (c : ClassName) (x : PacketType) : ClassTable where
  types := (t.typesWithoutOld c x).put c x
  classes := (t.classesWithoutOld c x).put x.classKey c

end ClassTable

/-! ### Binders -/

/-- Where a catalogue looks up classes. -/
inductive Binder
  /-- Knows no class and remembers none. -/
  | forgetful
  | table (t : ClassTable)
  deriving DecidableEq, Repr

namespace Binder

def classOf? : Binder → PacketType → Option ClassName
  | forgetful, _ => none
  | table t, x => t.classOf? x

def typeOf? : Binder → ClassName → Option PacketType
  | forgetful, _ => none
  | table t, c => t.typeOf? c

/-- Records that a class carries a packet type. -/
def remember : Binder → ClassName → PacketType → Binder
  | forgetful, _, _ => forgetful
  | table t, c, x => table (t.bind c x)

end Binder

end WireCatalog
