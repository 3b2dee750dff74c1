import WireCatalog.Toml.Quoted
import WireCatalog.Toml.Scalar
import WireCatalog.Toml.Table

/-! # Reading a document

A document is read line by line into its parts, which are then put together by the rules of
`Toml.Table`. Values between brackets and braces may run over several lines, and the last of them
may have a comma after it. Values nest at most 80 deep, and a key has at most 80 parts. -/

namespace WireCatalog.Toml

/-- How deep values may nest, and how many parts a key may have. -/
def maxDepth : Nat := 80

/-! ### Keys -/

def isBareKeyChar (c : Char) : Bool := c.isAlphanum || c == '_' || c == '-'

/-- One part of a key: bare, or a string on one line. -/
def keyPart? : Reader String := fun cs =>
  let bare := cs.takeWhile isBareKeyChar
  if bare.isEmpty then (shortString? cs).map fun (s, rest) => (String.ofList s, rest)
  else some (String.ofList bare, cs.dropWhile isBareKeyChar)

/-- The parts of a key after its first one, each with a dot before it. `fuel` bounds their
number. -/
def keyRest? : Nat → Reader (List String)
  | 0, _ => none
  | fuel + 1, cs =>
    match skipSpaces cs with
    | '.' :: cs => do
      let (k, cs) ← keyPart? (skipSpaces cs)
      let (ks, cs) ← keyRest? fuel cs
      some (k :: ks, cs)
    | cs => some ([], cs)

/-- A dotted key, given as the path of its parts before the last one and that one. Spaces around it
are skipped. -/
def key? : Reader (List String × String) := fun cs => do
  let (k, cs) ← keyPart? (skipSpaces cs)
  let (ks, cs) ← keyRest? (cs.length + 1) cs
  let parts := k :: ks
  if parts.length ≤ maxDepth then some ((parts.dropLast, parts.getLastD k), cs) else none

/-! ### Values -/

/-- A key with its value. `skip` tells what may stand on both sides of the sign between them. -/
def pair? (skip : List Char → Option (List Char)) (value : Reader Value) :
    Reader ((List String × String) × Value) := fun cs => do
  let (k, cs) ← key? cs
  let cs ← expect? '=' (← skip cs)
  let (v, cs) ← value (← skip cs)
  some ((k, v), cs)

/-- The elements of a bracketed value up to the character that closes it, with commas between them.
`fuel` bounds their number. -/
def elements? {α : Type} (element : Reader α) (close : Char) : Nat → Reader (List α)
  | 0, _ => none
  | fuel + 1, cs => do
    match ← skipTrivia false cs with
    | [] => none
    | c :: cs =>
      if c = close then some ([], cs)
      else
        let (x, cs) ← element (c :: cs)
        match ← skipTrivia false cs with
        | [] => none
        | c :: cs =>
          if c = close then some ([x], cs)
          else if c = ',' then
            let (xs, cs) ← elements? element close fuel cs
            some (x :: xs, cs)
          else none

/-- The table between braces with the given pairs. -/
def inlineTable? (pairs : List ((List String × String) × Value)) : Option Table :=
  pairs.foldlM (fun t p => t.insert p.1.1 p.1.2 p.2) []

/-- A value with at most `depth` brackets or braces around its innermost part. -/
def value? (depth : Nat) : Reader Value := fun cs =>
  match cs with
  | '"' :: _ => (string? cs).map fun (s, cs) => (.string (String.ofList s), cs)
  | '\'' :: _ => (string? cs).map fun (s, cs) => (.string (String.ofList s), cs)
  | '[' :: cs =>
    match depth with
    | 0 => none
    | depth + 1 =>
      (elements? (value? depth) ']' (cs.length + 1) cs).map fun (xs, cs) => (.array xs, cs)
  | '{' :: cs =>
    match depth with
    | 0 => none
    | depth + 1 => do
      let (ps, cs) ← elements? (pair? (skipTrivia false) (value? depth)) '}' (cs.length + 1) cs
      some (.table .inline (← inlineTable? ps), cs)
  | _ => scalar? cs

/-! ### Lines -/

/-- The part of the document on a line that is not blank, up to the end of the part. -/
def item? : Reader Item := fun cs =>
  match cs with
  | '[' :: '[' :: cs => do
    let ((path, k), cs) ← key? cs
    let cs ← expect? ']' (← expect? ']' cs)
    some (.nextHeader path k, cs)
  | '[' :: cs => do
    let ((path, k), cs) ← key? cs
    some (.header path k, ← expect? ']' cs)
  | cs => do
    let (((path, k), v), cs) ← pair? (some ∘ skipSpaces) (value? maxDepth) cs
    some (.pair path k v, cs)

/-- The parts of a document. `fuel` bounds the number of its lines. -/
def items? : Nat → List Char → Option (List Item)
  | _, [] => some []
  | 0, _ => none
  | fuel + 1, cs =>
    match endLine? cs with
    | some rest => items? fuel rest
    | none => do
      let (item, rest) ← item? (skipSpaces cs)
      let items ← items? fuel (← endLine? rest)
      some (item :: items)

/-- The characters without a byte order mark at their start. -/
def dropMark : List Char → List Char
  | '\ufeff' :: cs => cs
  | cs => cs

/-- The root table of a document, if it is well formed. -/
def document? (text : String) : Option Table :=
  let cs := dropMark text.toList
  (items? cs.length cs).bind Table.ofItems?

end WireCatalog.Toml
