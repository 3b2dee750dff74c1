import WireCatalog.Text.Character

/-! # Versions

A protocol release: major and minor number and a patch level. The text of a version leaves out a
patch level of zero. Reading is more liberal than writing: blanks may surround the version, a number
may start with a plus sign and may have leading zeros, and a missing patch level counts as zero. -/

namespace WireCatalog

structure Version where
  major : UInt32
  minor : UInt32
  patch : UInt32
  deriving DecidableEq, Repr

namespace Version

/-- The first release on the modern wire format. -/
def worldUpdate : Version := ⟨1, 7, 2⟩

/-- The release that the built-in packet types describe, and the default. -/
def villageUpdate : Version := ⟨1, 14, 0⟩

instance : Inhabited Version := ⟨villageUpdate⟩

/-- Versions compare by major number, then by minor number, then by patch level. -/
instance : Ord Version :=
  ⟨fun v w =>
    ((compare v.major w.major).then (compare v.minor w.minor)).then (compare v.patch w.patch)⟩

/-- Whether `v` is the release `w` or a newer one. -/
def atLeast (v w : Version) : Bool := (compare v w).isGE

/-! ### Writing -/

def toString (v : Version) : String :=
  let short := v.major.toNat.repr ++ "." ++ v.minor.toNat.repr
  if v.patch = 0 then short else short ++ "." ++ v.patch.toNat.repr

instance : ToString Version := ⟨toString⟩

/-! ### Reading -/

/-- The parts of a text between dots, the empty ones included. -/
def fields : List Char → List (List Char)
  | [] => [[]]
  | c :: cs =>
    if c = '.' then [] :: fields cs
    else match fields cs with
      | [] => [[c]]
      | f :: fs => (c :: f) :: fs

/-- The number in one field: digits, after at most one plus sign, of a value below `2 ^ 32`. -/
def number? (cs : List Char) : Option UInt32 := do
  let n ← Text.decimal? (match cs with | '+' :: ds => ds | ds => ds)
  if h : n < UInt32.size then some (UInt32.ofNatLT n h) else none

/-- The version written by two or three fields. -/
def ofFields? : List (List Char) → Option Version
  | [a, b] => return ⟨← number? a, ← number? b, 0⟩
  | [a, b, c] => return ⟨← number? a, ← number? b, ← number? c⟩
  | _ => none

def ofText? (s : String) : Option Version :=
  ofFields? (fields (Text.trim s).toList)

end Version

end WireCatalog
