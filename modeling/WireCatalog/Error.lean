import WireCatalog.Packet.PacketType
import WireCatalog.Protocol.Encoded

/-! # Refusals

Why an operation of the catalogue is refused, and the text of each refusal. -/

namespace WireCatalog

/-- The coordinate of a look-up that found nothing. -/
inductive LookupKey
  | current (key : WireKey)
  | name (channel : Channel) (name : String)
  | legacy (id : Int) (preferred : Option Direction)
  deriving DecidableEq, Repr

namespace LookupKey

def toString : LookupKey → String
  | current k => k.toString
  | name c n => s!"{c} name " ++ Text.quoted n
  | legacy id none => s!"legacy id {id}"
  | legacy id (some d) => s!"legacy id {id} (preferring {d})"

instance : ToString LookupKey := ⟨toString⟩

end LookupKey

/-- Two packet types that claim one wire key, by their symbolic names. -/
structure DuplicateId where
  key : WireKey
  existing : String
  incoming : String
  deriving DecidableEq, Repr

def DuplicateId.message (e : DuplicateId) : String :=
  s!"duplicate current id: key={e.key} existing={e.existing} incoming={e.incoming}"

inductive CatalogueError
  | notFound (key : LookupKey)
  | unreadable (error : ParseError)
  /-- A name that stands for another packet type of the channel, given by its symbolic name. -/
  | nameConflict (channel : Channel) (name existing : String)
  | notAPacketClass (cls : ClassName)
  | index (error : DuplicateId)
  /-- The executor refused the registration or dropped it before it ran. -/
  | executorClosed
  deriving DecidableEq, Repr

namespace CatalogueError

def message : CatalogueError → String
  | notFound k => s!"no packet type for {k}"
  | unreadable e => e.message
  | nameConflict c n x => "name " ++ Text.quoted n ++ s!" already bound in {c} to {x}"
  | notAPacketClass c => s!"{c} is not bound to a packet type"
  | index e => "index insertion failed: " ++ e.message
  | executorClosed => "confined executor closed before the registration ran"

end CatalogueError

end WireCatalog
