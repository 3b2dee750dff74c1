import WireCatalog.Protocol.Channel
import WireCatalog.Protocol.Version
import WireCatalog.Text.Quoted

/-! # Texts and encodings

How phases, directions and versions are read from outside: from a text, and from structured data. -/

namespace WireCatalog

/-! ### Texts

A text that names nothing is refused. The refusal keeps the text as it was given. -/

inductive ParseError
  | phase (text : String)
  | direction (text : String)
  | version (text : String)
  deriving DecidableEq, Repr

namespace ParseError

def message : ParseError → String
  | phase s => "unrecognized protocol phase: " ++ Text.quoted s
  | direction s => "unrecognized packet direction: " ++ Text.quoted s
  | version s => "invalid version tag: " ++ Text.quoted s ++ " (expected major.minor[.patch])"

end ParseError

/-- The phase that a text names. -/
def Phase.parse (s : String) : Except ParseError Phase :=
  (Phase.ofText? s).elim (.error (.phase s)) .ok

/-- The direction that a text names. -/
def Direction.parse (s : String) : Except ParseError Direction :=
  (Direction.ofText? s).elim (.error (.direction s)) .ok

/-- The version that a text writes. -/
def Version.parse (s : String) : Except ParseError Version :=
  (Version.ofText? s).elim (.error (.version s)) .ok

/-! ### Structured data

A phase or a direction is encoded as its exact name and may also be decoded from the tagged form of
an alternative without contents; a version is encoded as its text. -/

/-- The shapes of structured data that can encode a value of the protocol. -/
inductive Encoded
  | text (s : String)
  /-- An alternative without contents. -/
  | tag (name : String)
  | other
  deriving DecidableEq, Repr

namespace Encoded

/-- The name that a text or a tag gives. -/
def name? : Encoded → Option String
  | text s => some s
  | tag s => some s
  | other => none

end Encoded

def Phase.decode? (e : Encoded) : Option Phase := e.name?.bind Phase.ofName?

def Phase.encode (p : Phase) : Encoded := .text p.name

def Direction.decode? (e : Encoded) : Option Direction := e.name?.bind Direction.ofName?

def Direction.encode (d : Direction) : Encoded := .text d.name

def Version.decode? : Encoded → Option Version
  | .text s => Version.ofText? s
  | _ => none

def Version.encode (v : Version) : Encoded := .text v.toString

theorem Phase.decode?_encode (p : Phase) : Phase.decode? p.encode = some p := by
  cases p <;> decide

theorem Direction.decode?_encode (d : Direction) : Direction.decode? d.encode = some d := by
  cases d <;> decide

end WireCatalog
