import WireCatalog.Packet.Declaration

/-! # Packet types

A directory makes a declaration a packet type by giving it a symbolic name and some attributes.
Every packet type that is made gets a serial number of its own, so two packet types are the same
object exactly if they are equal. `Alike` is the coarser relation by which packet types compare:
they have the same wire key.

A packet type is carried on the wire by a class, which is known by its full name. The simple name
leaves out the path: it is what follows the last dot, colon or dollar sign. Class names order by code
point, which is also the order of their UTF-8 bytes. -/

namespace WireCatalog

/-! ### Class names -/

structure ClassName where
  full : String
  deriving DecidableEq, Repr

namespace ClassName

instance : ToString ClassName := ⟨full⟩

/-- Whether a character ends a part of the path. -/
def isSeparator (c : Char) : Bool := c == '.' || c == ':' || c == '$'

/-- What follows the last separator in a list of characters. -/
def simpleChars (cs : List Char) : List Char :=
  (cs.reverse.takeWhile (!isSeparator ·)).reverse

/-- The name without its path. -/
def simple (c : ClassName) : String := String.ofList (simpleChars c.full.toList)

/-- The class names in order. -/
def sort (cs : List ClassName) : List ClassName :=
  cs.mergeSort fun a b => decide (a.full ≤ b.full)

end ClassName

/-! ### Packet types -/

/-- What a directory adds to a declaration. -/
structure Binding where
  /-- The symbolic name. -/
  name : String
  isDeprecated : Bool := false
  /-- Whether listeners must run off the thread that changes the catalogue. -/
  isForcedAsync : Bool := false
  deriving DecidableEq, Repr

structure PacketType extends Declaration, Binding where
  /-- The number that tells this packet type from every other one. -/
  serial : Nat
  deriving DecidableEq, Repr

namespace Declaration

/-- The packet type with the given serial number that the declaration becomes under a binding. -/
def bind (d : Declaration) (b : Binding) (serial : Nat) : PacketType :=
  { toDeclaration := d, toBinding := b, serial := serial }

end Declaration

namespace PacketType

/-- Whether a name, in canonical form, is one of the packet type's aliases. -/
def hasAlias (x : PacketType) (name : String) : Bool := decide (name ∈ x.aliases)

/-- Packet types with the same wire key. -/
def Alike (x y : PacketType) : Prop := x.key = y.key

instance (x y : PacketType) : Decidable (Alike x y) := inferInstanceAs (Decidable (x.key = y.key))

/-- Packet types compare by their wire keys. -/
instance : Ord PacketType := ⟨fun x y => compare x.key y.key⟩

/-! ### Texts -/

/-- How a packet type without a known class is shown. -/
def toString (x : PacketType) : String :=
  s!"{x.name}[{x.channel.phase}, {x.channel.direction}, {x.key.id}, classNames: [" ++
    ", ".intercalate x.aliases ++ "] (unregistered)]"

instance : ToString PacketType := ⟨toString⟩

/-- How a packet type is shown, given the class that carries it if one is known. -/
def describe (x : PacketType) : Option ClassName → String
  | some c => s!"{x.name}[class={c.simple}, id={x.key.id}]"
  | none => x.toString

end PacketType

end WireCatalog
