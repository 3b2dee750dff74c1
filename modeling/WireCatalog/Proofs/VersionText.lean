import WireCatalog.Protocol.Encoded
import Mathlib.Data.List.Basic

/-! # The text of a version

A version is written as its numbers in decimal digits, with dots between them. The digits of a
number read back as the number (`Text.decimal?_toDigits`), the dots separate the numbers again
(`fields_append`), and no blank is at either end, so a version is what its text is read as
(`ofText?_toString`). -/

namespace WireCatalog

namespace Text

/-! ### Digits -/

theorem decimal?_toDigits (n : ℕ) : decimal? (Nat.toDigits 10 n) = some n := by
  rw [decimal?_eq_some_iff]
  refine ⟨Nat.toDigits_ne_nil, fun c hc => ?_, Nat.ofDigitChars_ten_toDigits.symm⟩
  exact Nat.isDigit_of_mem_toDigits (by decide) (by decide) hc

theorem isBlank_of_isDigit {c : Char} (h : c.isDigit = true) : isBlank c = false := by
  have hle : 48 ≤ c.toNat ∧ c.toNat ≤ 57 := Char.isDigit_iff_toNat.mp h
  simp [isBlank, blanks, Ranges.covers]
  omega

/-! ### Blanks -/

theorem dropWhile_isBlank {cs : List Char} (h : ∀ c ∈ cs, isBlank c = false) :
    cs.dropWhile isBlank = cs := by
  cases cs with
  | nil => rfl
  | cons c cs => simp [h c List.mem_cons_self]

theorem trimChars_eq_self {cs : List Char} (h : ∀ c ∈ cs, isBlank c = false) :
    trimChars cs = cs := by
  have hreverse : ∀ c ∈ cs.reverse, isBlank c = false := by simpa using h
  rw [trimChars, dropWhile_isBlank h, dropWhile_isBlank hreverse, List.reverse_reverse]

end Text

namespace Version

/-! ### Fields -/

theorem fields_of_notMem {cs : List Char} (h : '.' ∉ cs) : fields cs = [cs] := by
  induction cs with
  | nil => rfl
  | cons c cs ih =>
      rw [List.mem_cons, not_or] at h
      simp [fields, Ne.symm h.1, ih h.2]

/-- A dot ends the field before it. -/
theorem fields_append {cs : List Char} (h : '.' ∉ cs) (ds : List Char) :
    fields (cs ++ '.' :: ds) = cs :: fields ds := by
  induction cs with
  | nil => simp [fields]
  | cons c cs ih =>
      rw [List.mem_cons, not_or] at h
      simp [fields, Ne.symm h.1, ih h.2]

theorem notMem_toDigits {c : Char} (hc : c.isDigit = false) (n : ℕ) :
    c ∉ Nat.toDigits 10 n := by
  intro h
  rw [Nat.isDigit_of_mem_toDigits (by decide) (by decide) h] at hc
  cases hc

theorem number?_toDigits (u : UInt32) : number? (Nat.toDigits 10 u.toNat) = some u := by
  have hplus := notMem_toDigits (c := '+') rfl u.toNat
  have hread := Text.decimal?_toDigits u.toNat
  unfold number?
  generalize Nat.toDigits 10 u.toNat = ds at hplus hread ⊢
  split
  · simp at hplus
  · rw [hread]
    simp [u.toNat_lt_size]

/-! ### Texts -/

/-- The text of a version: its numbers, a patch level of zero left out. -/
theorem toList_toString (v : Version) : v.toString.toList =
    Nat.toDigits 10 v.major.toNat ++ '.' :: (Nat.toDigits 10 v.minor.toNat ++
      if v.patch = 0 then [] else '.' :: Nat.toDigits 10 v.patch.toNat) := by
  unfold toString
  split <;> simp

theorem isBlank_of_mem_toString {v : Version} {c : Char} (hc : c ∈ v.toString.toList) :
    Text.isBlank c = false := by
  have hdigit : ∀ n, c ∈ Nat.toDigits 10 n → Text.isBlank c = false :=
    fun n hn => Text.isBlank_of_isDigit
      (Nat.isDigit_of_mem_toDigits (by decide) (by decide) hn)
  have hdot : c = '.' → Text.isBlank c = false := by
    rintro rfl
    decide
  have hcases : c = '.' ∨ ∃ n, c ∈ Nat.toDigits 10 n := by
    rw [toList_toString] at hc
    split at hc <;> simp only [List.append_nil, List.mem_append, List.mem_cons] at hc <;> grind
  rcases hcases with hc | ⟨n, hn⟩
  · exact hdot hc
  · exact hdigit n hn

theorem fields_toString (v : Version) : fields v.toString.toList =
    Nat.toDigits 10 v.major.toNat :: Nat.toDigits 10 v.minor.toNat ::
      if v.patch = 0 then [] else [Nat.toDigits 10 v.patch.toNat] := by
  have hdot : ∀ n, '.' ∉ Nat.toDigits 10 n := notMem_toDigits rfl
  rw [toList_toString, fields_append (hdot _)]
  split
  · rw [List.append_nil, fields_of_notMem (hdot _)]
  · rw [fields_append (hdot _), fields_of_notMem (hdot _)]

theorem ofText?_toString (v : Version) : ofText? v.toString = some v := by
  have htrim : (Text.trim v.toString).toList = v.toString.toList := by
    rw [Text.trim, String.toList_ofList,
      Text.trimChars_eq_self fun c hc => isBlank_of_mem_toString hc]
  rw [ofText?, htrim, fields_toString]
  split
  · rename_i hpatch
    simp [ofFields?, number?_toDigits, ← hpatch]
  · simp [ofFields?, number?_toDigits]

theorem parse_toString (v : Version) : parse v.toString = .ok v := by
  rw [parse, ofText?_toString]
  rfl

end Version

end WireCatalog
