import WireCatalog.Toml.Lexis
import WireCatalog.Toml.Table

/-! # Numbers, dates and truth values

The unquoted values. Each is a run of characters up to one that has a meaning of its own between
values; spaces and tabs inside the run belong to it, as between a day and its time.

Dates are read in full. Of a number only the form is settled here and not its value, so the form is
a wide one: a base may stand without digits, and what follows the first underscore of a decimal
integer may be more than digits. -/

namespace WireCatalog.Toml

/-- The characters without a sign at their start. -/
def dropSign : List Char → List Char
  | '+' :: cs => cs
  | '-' :: cs => cs
  | cs => cs

/-! ### Numbers -/

def isDigitOrUnderscore (c : Char) : Bool := Char.isDigit c || c == '_'

/-- Whether a digit stands on both sides of every underscore. `before` tells that a digit stands
before the first character. -/
def digitsAround (digit : Char → Bool) (before : Bool) : List Char → Bool
  | [] => true
  | '_' :: cs => before && cs.head?.any digit && digitsAround digit false cs
  | c :: cs => digitsAround digit (digit c) cs

/-- Whether a number has its underscores between digits. -/
def isSpaced (digit : Char → Bool) (cs : List Char) : Bool := digitsAround digit false cs

/-- The digits of an integer to a base other than ten. -/
def isRadixInteger (digit : Char → Bool) (cs : List Char) : Bool :=
  cs.all (fun c => digit c || c == '_') && isSpaced digit cs

/-- A decimal integer. It has no leading zero. After its first underscore everything may stand but a
space and the marks of a float, if only the underscores are between hexadecimal digits. -/
def isDecimalInteger (cs : List Char) : Bool :=
  let body := dropSign cs
  match body.dropWhile Char.isDigit with
  | [] => body = ['0'] || (!body.isEmpty && body.head? != some '0')
  | '_' :: rest =>
    body.head? != some '0' && !rest.any [' ', '.', 'e', 'E'].contains && isSpaced isHexDigit cs
  | _ => false

def isInteger : List Char → Bool
  | '0' :: 'x' :: cs => isRadixInteger isHexDigit cs
  | '0' :: 'o' :: cs => isRadixInteger (fun c => decide ('0' ≤ c) && decide (c ≤ '7')) cs
  | '0' :: 'b' :: cs => isRadixInteger (fun c => c == '0' || c == '1') cs
  | cs => isDecimalInteger cs

/-- What follows at least one digit and any underscores. -/
def digits? (cs : List Char) : Option (List Char) :=
  if (cs.takeWhile isDigitOrUnderscore).any Char.isDigit then some (cs.dropWhile isDigitOrUnderscore)
  else none

/-- What follows the whole part of a float. It has no leading zero. -/
def wholePart? (cs : List Char) : Option (List Char) :=
  if cs.head? = some '0' ∧ 1 < (cs.takeWhile isDigitOrUnderscore).countP Char.isDigit then none
  else digits? cs

/-- What follows the fraction of a float, if there is one. -/
def fractionPart? : List Char → Option (List Char)
  | '.' :: cs => digits? cs
  | cs => some cs

/-- What follows the exponent of a float, if there is one. -/
def exponentPart? : List Char → Option (List Char)
  | 'e' :: cs => digits? (dropSign cs)
  | 'E' :: cs => digits? (dropSign cs)
  | cs => some cs

def isFloat (cs : List Char) : Bool :=
  let body := dropSign cs
  if body = ['i', 'n', 'f'] ∨ body = ['n', 'a', 'n'] then true
  else isSpaced Char.isDigit cs && body.any ['.', 'e', 'E'].contains &&
    ((wholePart? body).bind fractionPart?).bind exponentPart? == some []

/-! ### Dates and times -/

/-- The number written by exactly `n` digits. -/
def number? (n : Nat) (cs : List Char) : Option (Nat × List Char) :=
  if cs.length < n then none
  else (Text.decimal? (cs.take n)).map fun v => (v, cs.drop n)

/-- What follows a character that has to come first. -/
def expect? (c : Char) : List Char → Option (List Char)
  | d :: cs => if c = d then some cs else none
  | [] => none

def isLeapYear (y : Nat) : Bool := y % 4 == 0 && (y % 100 != 0 || y % 400 == 0)

def daysInMonth (y m : Nat) : Nat :=
  if m = 2 then (if isLeapYear y then 29 else 28)
  else if m = 4 ∨ m = 6 ∨ m = 9 ∨ m = 11 then 30
  else 31

/-- What follows a day of the calendar. -/
def day? (cs : List Char) : Option (List Char) := do
  let (y, cs) ← number? 4 cs
  let (m, cs) ← number? 2 (← expect? '-' cs)
  let (d, cs) ← number? 2 (← expect? '-' cs)
  if 1 ≤ m ∧ m ≤ 12 ∧ 1 ≤ d ∧ d ≤ daysInMonth y m then some cs else none

/-- What follows the fraction of a second, if there is one. -/
def fraction? : List Char → Option (List Char)
  | '.' :: cs =>
    let rest := cs.dropWhile Char.isDigit
    if rest.length < cs.length then some rest else none
  | cs => some cs

/-- What follows a time of day. The seconds may be left out. -/
def time? (cs : List Char) : Option (List Char) := do
  let (h, cs) ← number? 2 cs
  let (m, cs) ← number? 2 (← expect? ':' cs)
  if h < 24 ∧ m < 60 then
    match cs with
    | ':' :: cs =>
      let (s, cs) ← number? 2 cs
      if s ≤ 60 then fraction? cs else none
    | cs => some cs
  else none

/-- Whether a list of characters is an offset from universal time, or empty. -/
def isOffset : List Char → Bool
  | [] => true
  | ['Z'] => true
  | ['z'] => true
  | c :: cs =>
    (c == '+' || c == '-') && match (do
        let (h, cs) ← number? 2 cs
        let (m, cs) ← number? 2 (← expect? ':' cs)
        if h < 24 ∧ m < 60 then some cs else none) with
      | some rest => rest.isEmpty
      | none => false

/-- Whether a list of characters is a time of day with an optional offset. -/
def isOffsetTime (cs : List Char) : Bool := (time? cs).any isOffset

/-- Whether a list of characters is a day, a time, or a day with a time. -/
def isDate (cs : List Char) : Bool :=
  match day? cs with
  | some [] => true
  | some (c :: rest) => (c == 'T' || c == 't' || c == ' ') && isOffsetTime rest
  | none => (time? cs).any (·.isEmpty)

/-! ### Any scalar -/

/-- Whether a character ends an unquoted value. -/
def endsScalar (c : Char) : Bool := ['=', ',', '[', ']', '{', '}', '#', '\r', '\n'].contains c

/-- Whether an unquoted value goes on after spaces. A quote there would open a value of its own. -/
def goesOn (cs : List Char) : Bool :=
  (skipSpaces cs).head?.any fun c => !endsScalar c && c != '"' && c != '\''

/-- The run of characters that may be an unquoted value. Spaces belong to it if it goes on after
them. -/
def scalarRun : List Char → List Char × List Char
  | [] => ([], [])
  | c :: cs =>
    if endsScalar c || (isSpace c && !goesOn cs) then ([], c :: cs)
    else
      let (run, rest) := scalarRun cs
      (c :: run, rest)

/-- The value that a run of characters writes. -/
def ofRun? (run : List Char) : Option Value :=
  let literal := String.ofList run
  if literal = "true" then some (.boolean true)
  else if literal = "false" then some (.boolean false)
  else if isInteger run then some (.integer literal)
  else if isFloat run then some (.float literal)
  else if isDate run then some (.date literal)
  else none

/-- An unquoted value. -/
def scalar? : Reader Value := fun cs =>
  let (run, rest) := scalarRun cs
  (ofRun? run).map fun v => (v, rest)

end WireCatalog.Toml
