import WireCatalog.Toml.Lexis

/-! # Strings of a document

The four forms of a string. Between double quotes a backslash starts an escape; between single
quotes every character stands for itself. Three quotes start a string that may run over several
lines: a line end right after them is left out, and one or two quotes may stand anywhere, also
before the three quotes that end it. A backslash before a line end leaves out everything up to the
next character that is neither a space nor a line end.

A string is written in the first of these forms that shows it without escapes: between double
quotes, between single quotes, between three double quotes, between three single quotes. If none
does, it is written with escapes, between three double quotes if it has line feeds. A string of
several lines starts on a line of its own. -/

namespace WireCatalog.Toml

/-! ### Escapes -/

/-- The character that a letter after a backslash stands for. -/
def shortEscape? : Char → Option Char
  | 'b' => some '\x08'
  | 't' => some '\t'
  | 'n' => some '\n'
  | 'f' => some '\x0c'
  | 'r' => some '\r'
  | 'e' => some '\x1b'
  | '"' => some '"'
  | '\\' => some '\\'
  | _ => none

/-- How many hexadecimal digits follow a letter after a backslash. -/
def escapeWidth? : Char → Option Nat
  | 'x' => some 2
  | 'u' => some 4
  | 'U' => some 8
  | _ => none

/-- The character that an escape stands for. The backslash has been read. -/
def escape? : Reader Char
  | [] => none
  | c :: cs =>
    match escapeWidth? c with
    | some n =>
      if cs.length < n then none
      else (hexChar? (cs.take n)).map fun ch => (ch, cs.drop n)
    | none => (shortEscape? c).map fun ch => (ch, cs)

theorem length_of_escape? {cs rest : List Char} {ch : Char} (h : escape? cs = some (ch, rest)) :
    rest.length < cs.length := by
  cases cs with
  | nil => simp [escape?] at h
  | cons c cs =>
    simp only [escape?] at h
    split at h
    · next n _ =>
      split at h
      · simp at h
      · simp only [Option.map_eq_some_iff, Prod.mk.injEq] at h
        obtain ⟨_, _, _, rfl⟩ := h
        simp only [List.length_drop, List.length_cons]
        omega
    · simp only [Option.map_eq_some_iff, Prod.mk.injEq] at h
      obtain ⟨_, _, _, rfl⟩ := h
      simp

/-- Puts a character before a string that was read. -/
def consRead (c : Char) : Option (List Char × List Char) → Option (List Char × List Char)
  | some (s, rest) => some (c :: s, rest)
  | none => none

/-! ### Strings on one line -/

/-- The rest of a string between double quotes. -/
def basicBody (cs : List Char) : Option (List Char × List Char) :=
  match cs with
  | [] => none
  | '"' :: rest => some ([], rest)
  | '\\' :: rest =>
    match _escaped : escape? rest with
    | none => none
    | some (ch, rest') => consRead ch (basicBody rest')
  | c :: rest => if isControl c then none else consRead c (basicBody rest)
termination_by cs.length
decreasing_by
  · have := length_of_escape? _escaped
    simp only [List.length_cons]
    omega
  · simp

/-- The rest of a string between single quotes. -/
def literalBody : List Char → Option (List Char × List Char)
  | [] => none
  | '\'' :: rest => some ([], rest)
  | c :: rest => if isControl c then none else consRead c (literalBody rest)

/-! ### Strings over several lines -/

/-- The quotes that belong to a string before the three that end it, and what follows those, if the
string ends with the characters at hand. -/
def closing? (q : Char) (cs : List Char) : Option (List Char × List Char) :=
  let quotes := (cs.takeWhile (· == q)).length
  if quotes < 3 then none
  else
    let kept := min (quotes - 3) 2
    some (List.replicate kept q, cs.drop (kept + 3))

/-- Whether only spaces come before the next line end. -/
def blankToLineEnd (cs : List Char) : Bool :=
  match skipSpaces cs with
  | '\n' :: _ => true
  | '\r' :: '\n' :: _ => true
  | _ => false

/-- What follows spaces and line ends. -/
def skipBlankLines (cs : List Char) : List Char :=
  match cs with
  | '\n' :: rest => skipBlankLines rest
  | '\r' :: '\n' :: rest => skipBlankLines rest
  | c :: rest => if isSpace c then skipBlankLines rest else c :: rest
  | [] => []

theorem length_skipBlankLines_le (cs : List Char) : (skipBlankLines cs).length ≤ cs.length := by
  fun_induction skipBlankLines cs with
  | case1 rest ih => exact Nat.le_succ_of_le ih
  | case2 rest ih => exact Nat.le_succ_of_le (Nat.le_succ_of_le ih)
  | case3 c rest _ _ _ ih => exact Nat.le_succ_of_le ih
  | case4 c rest => exact Nat.le_refl _
  | case5 => exact Nat.le_refl _

/-- The rest of a string between three double quotes. -/
def longBasicBody (cs : List Char) : Option (List Char × List Char) :=
  match closing? '"' cs with
  | some r => some r
  | none =>
    match cs with
    | [] => none
    | '\\' :: rest =>
      if blankToLineEnd rest then longBasicBody (skipBlankLines rest)
      else match _escaped : escape? rest with
        | none => none
        | some (ch, rest') => consRead ch (longBasicBody rest')
    | '\n' :: rest => consRead '\n' (longBasicBody rest)
    | '\r' :: '\n' :: rest => consRead '\r' (consRead '\n' (longBasicBody rest))
    | c :: rest => if isControl c then none else consRead c (longBasicBody rest)
termination_by cs.length
decreasing_by
  · have := length_skipBlankLines_le rest
    simp only [List.length_cons]
    omega
  · have := length_of_escape? _escaped
    simp only [List.length_cons]
    omega
  all_goals simp only [List.length_cons]; omega

/-- The rest of a string between three single quotes. -/
def longLiteralBody (cs : List Char) : Option (List Char × List Char) :=
  match closing? '\'' cs with
  | some r => some r
  | none =>
    match cs with
    | [] => none
    | '\n' :: rest => consRead '\n' (longLiteralBody rest)
    | '\r' :: '\n' :: rest => consRead '\r' (consRead '\n' (longLiteralBody rest))
    | c :: rest => if isControl c then none else consRead c (longLiteralBody rest)

/-- The characters without a line end at their start. -/
def dropLineEnd : List Char → List Char
  | '\n' :: cs => cs
  | '\r' :: '\n' :: cs => cs
  | cs => cs

/-! ### Any string -/

/-- A string on one line, such as may be a key. -/
def shortString? : Reader (List Char)
  | '"' :: cs => basicBody cs
  | '\'' :: cs => literalBody cs
  | _ => none

/-- A string in any of the four forms. -/
def string? : Reader (List Char)
  | '"' :: '"' :: '"' :: cs => longBasicBody (dropLineEnd cs)
  | '\'' :: '\'' :: '\'' :: cs => longLiteralBody (dropLineEnd cs)
  | cs => shortString? cs

/-! ### Writing -/

inductive StringForm
  | basic
  | literal
  | longBasic
  | longLiteral
  deriving DecidableEq, Repr

/-- A control character that only an escape can show. -/
def needsEscape (c : Char) : Bool := isControl c && c != '\n'

/-- The length of the longest run of a character. `run` is the length of the run before the
characters at hand. -/
def longestRun (q : Char) (run : Nat) : List Char → Nat
  | [] => run
  | c :: cs => if c = q then longestRun q (run + 1) cs else max run (longestRun q 0 cs)

/-- Whether a form shows a string without escapes. -/
def StringForm.isPlainFor (f : StringForm) (cs : List Char) : Bool :=
  !cs.any needsEscape &&
    match f with
    | basic => !cs.contains '\\' && !cs.contains '"' && !cs.contains '\n'
    | literal => !cs.contains '\'' && !cs.contains '\n'
    | longBasic => !cs.contains '\\' && decide (longestRun '"' 0 cs ≤ 2)
    | longLiteral => decide (longestRun '\'' 0 cs ≤ 2)

/-- The form that a string is written in. -/
def formOf (cs : List Char) : StringForm :=
  match [StringForm.basic, .literal, .longBasic, .longLiteral].find? (·.isPlainFor cs) with
  | some f => f
  | none => if cs.contains '\n' then .longBasic else .basic

/-- A character between double quotes. -/
def written (c : Char) : List Char :=
  match c with
  | '\x08' => ['\\', 'b']
  | '\t' => ['\\', 't']
  | '\n' => ['\\', 'n']
  | '\x0c' => ['\\', 'f']
  | '\r' => ['\\', 'r']
  | '"' => ['\\', '"']
  | '\\' => ['\\', '\\']
  | c =>
    if isControl c then
      ['\\', 'u', '0', '0', (Nat.digitChar (c.toNat / 16)).toUpper,
        (Nat.digitChar (c.toNat % 16)).toUpper]
    else [c]

/-- The characters between three double quotes. A line feed stands for itself, and so does a double
quote unless two stand before it; `quotes` counts those. -/
def writtenLong (quotes : Nat) : List Char → List Char
  | [] => []
  | c :: cs =>
    if c = '\n' then c :: writtenLong 0 cs
    else if c = '"' then
      if quotes < 2 then c :: writtenLong (quotes + 1) cs
      else written c ++ writtenLong 0 cs
    else written c ++ writtenLong 0 cs

/-- The line feed after three quotes, for a string of several lines. -/
def openingLine (cs : List Char) : List Char := if cs.contains '\n' then ['\n'] else []

/-- A string in a form, with its quotes. -/
def StringForm.write (f : StringForm) (cs : List Char) : List Char :=
  match f with
  | basic => '"' :: cs.flatMap written ++ ['"']
  | literal => '\'' :: cs ++ ['\'']
  | longBasic => ['"', '"', '"'] ++ openingLine cs ++ writtenLong 0 cs ++ ['"', '"', '"']
  | longLiteral => ['\'', '\'', '\''] ++ openingLine cs ++ cs ++ ['\'', '\'', '\'']

/-- A string as it stands in a document. -/
def writeString (s : String) : String := String.ofList ((formOf s.toList).write s.toList)

def writeBool (b : Bool) : String := if b then "true" else "false"

end WireCatalog.Toml
