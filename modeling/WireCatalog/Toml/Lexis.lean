import WireCatalog.Text.Character

/-! # Characters of a TOML document

Blanks, line ends and comments, and which characters may stand where. Readers take a list of
characters and give back what they read and the characters after it. -/

namespace WireCatalog.Toml

abbrev Reader (α : Type) := List Char → Option (α × List Char)

/-- A space or a tab. -/
def isSpace (c : Char) : Bool := c == ' ' || c == '\t'

/-- A control character other than the tab. -/
def isControl (c : Char) : Bool :=
  (decide (c.toNat < 0x20) && c != '\t') || c.toNat == 0x7F

def isHexDigit (c : Char) : Bool :=
  c.isDigit || (decide ('a' ≤ c) && decide (c ≤ 'f')) || (decide ('A' ≤ c) && decide (c ≤ 'F'))

/-- The value of a hexadecimal digit. -/
def hexValue (c : Char) : Nat :=
  if c.isDigit then c.toNat - '0'.toNat
  else if decide ('a' ≤ c) then c.toNat - 'a'.toNat + 10
  else c.toNat - 'A'.toNat + 10

/-- The character with the code point that hexadecimal digits write. -/
def hexChar? (ds : List Char) : Option Char :=
  let n := ds.foldl (fun n d => 16 * n + hexValue d) 0
  if h : n.isValidChar ∧ ds.all isHexDigit then some (Char.ofNatAux n h.1) else none

def skipSpaces (cs : List Char) : List Char := cs.dropWhile isSpace

/-- What follows the line end that comes first, or nothing at the end of the document. -/
def newline? : List Char → Option (List Char)
  | [] => some []
  | '\n' :: cs => some cs
  | '\r' :: '\n' :: cs => some cs
  | _ => none

/-- The rest of a comment, up to the line end. Controls are refused. -/
def skipComment (cs : List Char) : List Char :=
  cs.dropWhile fun c => !isControl c

/-- What follows the line end, if only spaces and a comment come before it. -/
def endLine? (cs : List Char) : Option (List Char) :=
  match skipSpaces cs with
  | '#' :: cs => newline? (skipComment cs)
  | cs => newline? cs

/-- What follows spaces, line ends and comments. `comment` tells that a comment is being read. -/
def skipTrivia (comment : Bool) : List Char → Option (List Char)
  | [] => some []
  | '\n' :: cs => skipTrivia false cs
  | '\r' :: '\n' :: cs => skipTrivia false cs
  | c :: cs =>
    if comment then
      if isControl c then none else skipTrivia true cs
    else if isSpace c then skipTrivia false cs
    else if c = '#' then skipTrivia true cs
    else some (c :: cs)

end WireCatalog.Toml
