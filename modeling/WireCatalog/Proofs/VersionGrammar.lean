import WireCatalog.Proofs.VersionText
import Mathlib.Algebra.Ring.Nat
import Mathlib.Data.List.Induction

/-! # The grammar of versions

The texts that are versions, said without a reader. A `Numeral` is a run of decimal digits and has a
value, a `Number` may have a plus sign before its numeral, and `Fields` are two or three numbers
with dots between them. `Trimmed` takes the blanks at both ends off a text.

Each stage of reading is tied to its part of the grammar: `decimal?_eq_some_iff_numeral`,
`number?_eq_some_iff`, `ofFields?_fields_eq_some_iff` and `trimChars_eq_iff`. Together they say that
a text is read as a version exactly if it writes one (`parse_eq_ok_iff`). What writing produces is
the shortest of these texts (`length_toString_le`). -/

namespace WireCatalog

namespace Text

/-! ### Numerals -/

/-- One or more decimal digits and their value. Leading zeros are allowed. -/
inductive Numeral : List Char → ℕ → Prop
  | digit {d : ℕ} (hd : d < 10) : Numeral [Nat.digitChar d] d
  | concat {cs : List Char} {n d : ℕ} (h : Numeral cs n) (hd : d < 10) :
      Numeral (cs ++ [Nat.digitChar d]) (10 * n + d)

/-- Every digit is the digit of its value. -/
theorem exists_digitChar {c : Char} (hc : c.isDigit = true) : ∃ d < 10, Nat.digitChar d = c := by
  have hle : 48 ≤ c.toNat ∧ c.toNat ≤ 57 := Char.isDigit_iff_toNat.mp hc
  have hlt : c.toNat - 48 < 10 := by omega
  refine ⟨c.toNat - 48, hlt, Char.toNat_inj.mp ?_⟩
  rw [Nat.toNat_digitChar_of_lt_ten hlt]
  exact Nat.add_sub_cancel' hle.1

/-- A further digit at the end of a number. -/
theorem ofDigitChars_concat (cs : List Char) {d : ℕ} (hd : d < 10) :
    Nat.ofDigitChars 10 (cs ++ [Nat.digitChar d]) 0 = 10 * Nat.ofDigitChars 10 cs 0 + d := by
  rw [Nat.ofDigitChars_append, Nat.ofDigitChars_cons_digitChar_of_lt_ten hd, Nat.ofDigitChars_nil]

theorem decimal?_eq_some_iff_numeral {cs : List Char} {n : ℕ} :
    decimal? cs = some n ↔ Numeral cs n := by
  rw [decimal?_eq_some_iff]
  constructor
  · rintro ⟨hne, hdigits, rfl⟩
    induction cs using List.reverseRecOn with
    | nil => exact absurd rfl hne
    | append_singleton cs c ih =>
        obtain ⟨d, hd, rfl⟩ := exists_digitChar (hdigits c (by simp))
        rw [ofDigitChars_concat cs hd]
        by_cases hcs : cs = []
        · subst hcs
          simpa using Numeral.digit hd
        · exact (ih hcs fun c' hc' => hdigits c' (by simp [hc'])).concat hd
  · intro h
    induction h with
    | digit hd => simp [Nat.isDigit_digitChar, hd, Nat.ofDigitChars_cons_digitChar_of_lt_ten hd]
    | concat h hd ih =>
        obtain ⟨_, hdigits, rfl⟩ := ih
        refine ⟨by simp, fun c hc => ?_, (ofDigitChars_concat _ hd).symm⟩
        rcases List.mem_append.mp hc with hc | hc
        · exact hdigits c hc
        · rw [List.mem_singleton.mp hc, Nat.isDigit_digitChar, decide_eq_true hd]

theorem Numeral.isDigit {cs : List Char} {n : ℕ} (h : Numeral cs n) {c : Char} (hc : c ∈ cs) :
    c.isDigit = true :=
  (decimal?_eq_some_iff.mp (decimal?_eq_some_iff_numeral.mpr h)).2.1 c hc

theorem Numeral.length_pos {cs : List Char} {n : ℕ} (h : Numeral cs n) : 0 < cs.length := by
  cases h <;> simp

theorem Numeral.lt_pow {cs : List Char} {n : ℕ} (h : Numeral cs n) : n < 10 ^ cs.length := by
  induction h with
  | digit hd => simpa using hd
  | concat h hd ih =>
      rw [List.length_append, List.length_singleton, Nat.pow_succ]
      omega

/-- No numeral is shorter than the digits of its value. -/
theorem Numeral.length_toDigits_le {cs : List Char} {n : ℕ} (h : Numeral cs n) :
    (Nat.toDigits 10 n).length ≤ cs.length :=
  (Nat.length_toDigits_le_iff (by omega) h.length_pos).mpr h.lt_pow

/-! ### Blanks at both ends -/

/-- Whether `ds` is what remains of `cs` without the blanks at its two ends. -/
structure Trimmed (cs ds : List Char) : Prop where
  around : ∃ before after, cs = before ++ ds ++ after ∧
    (∀ c ∈ before, isBlank c = true) ∧ ∀ c ∈ after, isBlank c = true
  first : ∀ c, ds.head? = some c → isBlank c = false
  last : ∀ c, ds.getLast? = some c → isBlank c = false

theorem isBlank_of_mem_takeWhile {cs : List Char} {c : Char} (hc : c ∈ cs.takeWhile isBlank) :
    isBlank c = true :=
  List.all_eq_true.mp List.all_takeWhile c hc

theorem isBlank_head?_dropWhile {cs : List Char} {c : Char}
    (hc : (cs.dropWhile isBlank).head? = some c) : isBlank c = false := by
  have h := List.head?_dropWhile_not isBlank cs
  rwa [hc] at h

theorem dropWhile_isBlank_append {before ds : List Char} (hb : ∀ c ∈ before, isBlank c = true)
    (hd : ∀ c, ds.head? = some c → isBlank c = false) :
    (before ++ ds).dropWhile isBlank = ds := by
  rw [List.dropWhile_append_of_pos hb]
  cases ds with
  | nil => rfl
  | cons c ds => rw [List.dropWhile_cons_of_neg (by simp [hd c rfl])]

theorem trimmed_trimChars (cs : List Char) : Trimmed cs (trimChars cs) := by
  have hcs : cs.takeWhile isBlank ++ cs.dropWhile isBlank = cs := List.takeWhile_append_dropWhile
  have hfirst : ∀ c, (cs.dropWhile isBlank).head? = some c → isBlank c = false :=
    fun c => isBlank_head?_dropWhile
  rw [trimChars]
  generalize cs.dropWhile isBlank = ds at hcs hfirst ⊢
  have hds : (ds.reverse.dropWhile isBlank).reverse ++ (ds.reverse.takeWhile isBlank).reverse =
      ds := by
    rw [← List.reverse_append, List.takeWhile_append_dropWhile, List.reverse_reverse]
  refine ⟨⟨cs.takeWhile isBlank, (ds.reverse.takeWhile isBlank).reverse, ?_, ?_, ?_⟩, ?_, ?_⟩
  · rw [List.append_assoc, hds, hcs]
  · exact fun c => isBlank_of_mem_takeWhile
  · exact fun c hc => isBlank_of_mem_takeWhile (List.mem_reverse.mp hc)
  · intro c hc
    refine hfirst c ?_
    rw [← hds, List.head?_append, hc]
    rfl
  · intro c hc
    rw [List.getLast?_reverse] at hc
    exact isBlank_head?_dropWhile hc

/-- Trimming is the only way to take off the blanks at both ends. -/
theorem trimChars_eq_iff {cs ds : List Char} : trimChars cs = ds ↔ Trimmed cs ds := by
  refine ⟨fun h => h ▸ trimmed_trimChars cs, ?_⟩
  rintro ⟨⟨before, after, rfl, hbefore, hafter⟩, hfirst, hlast⟩
  have hafter' : ∀ c ∈ after.reverse, isBlank c = true := by simpa using hafter
  by_cases hds : ds = []
  · -- Nothing but blanks: they all belong to the front.
    subst hds
    have hall : ∀ c ∈ before ++ [] ++ after, isBlank c = true := by
      simpa [or_imp, forall_and] using And.intro hbefore hafter
    rw [trimChars, ← List.append_nil (before ++ [] ++ after),
      dropWhile_isBlank_append hall hfirst]
    rfl
  · have hhead : ∀ c, (ds ++ after).head? = some c → isBlank c = false := by
      rwa [List.head?_append_of_ne_nil _ hds]
    have hlast' : ∀ c, ds.reverse.head? = some c → isBlank c = false := by
      rwa [List.head?_reverse]
    rw [trimChars, List.append_assoc, dropWhile_isBlank_append hbefore hhead,
      List.reverse_append, dropWhile_isBlank_append hafter' hlast', List.reverse_reverse]

theorem Trimmed.length_le {cs ds : List Char} (h : Trimmed cs ds) : ds.length ≤ cs.length := by
  obtain ⟨before, after, rfl, _⟩ := h.around
  simp only [List.length_append]
  omega

end Text

namespace Version

/-! ### Numbers in fields -/

/-- What a field may hold, with its value: a numeral, after at most one plus sign. -/
inductive Number : List Char → ℕ → Prop
  | plain {cs : List Char} {n : ℕ} (h : Text.Numeral cs n) : Number cs n
  | plus {cs : List Char} {n : ℕ} (h : Text.Numeral cs n) : Number ('+' :: cs) n

theorem Number.notMem {cs : List Char} {n : ℕ} (h : Number cs n) : '.' ∉ cs := by
  have hdot {ds : List Char} (hds : Text.Numeral ds n) : '.' ∉ ds :=
    fun hmem => absurd (hds.isDigit hmem) (by decide)
  cases h with
  | plain h => exact hdot h
  | plus h => simpa using hdot h

theorem number_plus_iff {ds : List Char} {n : ℕ} : Number ('+' :: ds) n ↔ Text.Numeral ds n := by
  refine ⟨fun h => ?_, .plus⟩
  cases h with
  | plain h => exact absurd (h.isDigit List.mem_cons_self) (by decide)
  | plus h => exact h

theorem number_iff_of_ne_plus {cs : List Char} {n : ℕ} (hcs : ∀ ds, cs ≠ '+' :: ds) :
    Number cs n ↔ Text.Numeral cs n := by
  refine ⟨fun h => ?_, .plain⟩
  cases h with
  | plain h => exact h
  | plus h => exact absurd rfl (hcs _)

theorem ofNatLT_eq_iff {n : ℕ} (h : n < UInt32.size) {u : UInt32} :
    UInt32.ofNatLT n h = u ↔ n = u.toNat := by
  rw [← UInt32.toNat_inj, UInt32.toNat_ofNatLT]

theorem number?_eq_some_iff {cs : List Char} {u : UInt32} :
    number? cs = some u ↔ Number cs u.toNat := by
  have hbound {ds : List Char} :
      ((Text.decimal? ds).bind fun n =>
          if h : n < UInt32.size then some (UInt32.ofNatLT n h) else none) = some u ↔
        Text.Numeral ds u.toNat := by
    rw [Option.bind_eq_some_iff, ← Text.decimal?_eq_some_iff_numeral]
    constructor
    · rintro ⟨n, hn, hu⟩
      split at hu
      · rename_i hlt
        rwa [← (ofNatLT_eq_iff hlt).mp (Option.some.inj hu)]
      · cases hu
    · intro hu
      refine ⟨u.toNat, hu, ?_⟩
      rw [dif_pos u.toNat_lt_size]
      exact congrArg some ((ofNatLT_eq_iff _).mpr rfl)
  unfold number?
  split
  · rw [number_plus_iff]
    exact hbound
  · rename_i hcs
    rw [number_iff_of_ne_plus hcs]
    exact hbound

/-! ### Fields -/

/-- Two or three numbers with dots between them, and the numbers. A missing third one is zero. -/
inductive Fields : List Char → ℕ → ℕ → ℕ → Prop
  | two {a b : List Char} {major minor : ℕ} (ha : Number a major) (hb : Number b minor) :
      Fields (a ++ '.' :: b) major minor 0
  | three {a b c : List Char} {major minor patch : ℕ} (ha : Number a major) (hb : Number b minor)
      (hc : Number c patch) : Fields (a ++ '.' :: (b ++ '.' :: c)) major minor patch

theorem fields_ne_nil (cs : List Char) : fields cs ≠ [] := by
  cases cs with
  | nil => simp [fields]
  | cons c cs =>
      rw [fields]
      split
      · simp
      · split <;> simp

/-- The fields with the dots between them are the text. -/
theorem eq_of_fields {cs f : List Char} {fs : List (List Char)} (h : fields cs = f :: fs) :
    cs = f ++ fs.flatMap ('.' :: ·) := by
  induction cs generalizing f fs with
  | nil =>
      obtain ⟨rfl, rfl⟩ : [] = f ∧ [] = fs := by simpa [fields] using h
      rfl
  | cons c cs ih =>
      obtain ⟨g, gs, hg⟩ := List.exists_cons_of_ne_nil (fields_ne_nil cs)
      rw [fields, hg] at h
      split at h
      · rename_i hc
        obtain ⟨rfl, rfl⟩ := List.cons.inj h
        rw [hc, ih hg]
        rfl
      · obtain ⟨rfl, rfl⟩ := List.cons.inj h
        rw [ih hg]
        rfl

theorem ofFields?_fields_eq_some_iff {cs : List Char} {v : Version} :
    ofFields? (fields cs) = some v ↔ Fields cs v.major.toNat v.minor.toNat v.patch.toNat := by
  constructor
  · intro h
    unfold ofFields? at h
    split at h
    · rename_i a b hfields
      obtain ⟨major, ha, minor, hb, rfl⟩ : ∃ major, number? a = some major ∧
          ∃ minor, number? b = some minor ∧ ⟨major, minor, 0⟩ = v := by
        simpa [Option.bind_eq_some_iff] using h
      rw [eq_of_fields hfields, List.flatMap_singleton]
      exact .two (number?_eq_some_iff.mp ha) (number?_eq_some_iff.mp hb)
    · rename_i a b c hfields
      obtain ⟨major, ha, minor, hb, patch, hc, rfl⟩ : ∃ major, number? a = some major ∧
          ∃ minor, number? b = some minor ∧
          ∃ patch, number? c = some patch ∧ ⟨major, minor, patch⟩ = v := by
        simpa [Option.bind_eq_some_iff] using h
      rw [eq_of_fields hfields, List.flatMap_cons, List.flatMap_singleton]
      exact .three (number?_eq_some_iff.mp ha) (number?_eq_some_iff.mp hb)
        (number?_eq_some_iff.mp hc)
    · cases h
  · obtain ⟨major, minor, patch⟩ := v
    dsimp only
    generalize hpatch : patch.toNat = p
    intro h
    cases h with
    | two ha hb =>
        obtain rfl : patch = 0 := UInt32.toNat_inj.mp hpatch
        rw [fields_append ha.notMem, fields_of_notMem hb.notMem, ofFields?,
          number?_eq_some_iff.mpr ha, number?_eq_some_iff.mpr hb]
        rfl
    | three ha hb hc =>
        subst hpatch
        rw [fields_append ha.notMem, fields_append hb.notMem, fields_of_notMem hc.notMem,
          ofFields?, number?_eq_some_iff.mpr ha, number?_eq_some_iff.mpr hb,
          number?_eq_some_iff.mpr hc]
        rfl

/-! ### Versions -/

/-- Whether a text writes a version with the given numbers: fields, with blanks around them. -/
def Writes (s : String) (major minor patch : ℕ) : Prop :=
  ∃ cs, Text.Trimmed s.toList cs ∧ Fields cs major minor patch

theorem parse_eq_ok_iff {s : String} {v : Version} :
    parse s = .ok v ↔ Writes s v.major.toNat v.minor.toNat v.patch.toNat := by
  have hread : parse s = .ok v ↔ ofText? s = some v := by
    rw [parse]
    cases ofText? s <;> simp
  rw [hread, ofText?, ofFields?_fields_eq_some_iff, Text.trim, String.toList_ofList, Writes]
  constructor
  · exact fun h => ⟨_, Text.trimmed_trimChars _, h⟩
  · rintro ⟨cs, htrim, h⟩
    rwa [Text.trimChars_eq_iff.mpr htrim]

/-- A text that is not a version is refused as it was given. -/
theorem parse_eq_error_iff {s : String} {e : ParseError} :
    parse s = .error e ↔ e = .version s ∧ ∀ v, parse s ≠ .ok v := by
  rw [parse]
  cases ofText? s <;> simp [eq_comm]

/-- Numbers below `2 ^ 32` are those of a version. -/
theorem exists_parse_eq_ok_iff {s : String} :
    (∃ v, parse s = .ok v) ↔
      ∃ major minor patch, Writes s major minor patch ∧
        major < 2 ^ 32 ∧ minor < 2 ^ 32 ∧ patch < 2 ^ 32 := by
  constructor
  · rintro ⟨v, hv⟩
    exact ⟨_, _, _, parse_eq_ok_iff.mp hv, v.major.toNat_lt, v.minor.toNat_lt, v.patch.toNat_lt⟩
  · rintro ⟨major, minor, patch, h, hmajor, hminor, hpatch⟩
    refine ⟨⟨.ofNatLT major hmajor, .ofNatLT minor hminor, .ofNatLT patch hpatch⟩, ?_⟩
    rw [parse_eq_ok_iff]
    simpa using h

/-- **A text is read as a version exactly if it writes one.** What is read are the numbers that the
text writes, a missing third one counting as zero. A text is read if and only if it writes numbers
below `2 ^ 32`, and any other text is refused and kept as it was given. -/
theorem reads_exactly_what_is_written (s : String) :
    (∀ v, parse s = .ok v ↔ Writes s v.major.toNat v.minor.toNat v.patch.toNat) ∧
    ((∃ v, parse s = .ok v) ↔ ∃ major minor patch, Writes s major minor patch ∧
      major < 2 ^ 32 ∧ minor < 2 ^ 32 ∧ patch < 2 ^ 32) ∧
    ∀ e, parse s = .error e ↔ e = .version s ∧ ¬∃ major minor patch,
      Writes s major minor patch ∧ major < 2 ^ 32 ∧ minor < 2 ^ 32 ∧ patch < 2 ^ 32 := by
  refine ⟨fun v => parse_eq_ok_iff, exists_parse_eq_ok_iff, fun e => ?_⟩
  rw [← exists_parse_eq_ok_iff, parse_eq_error_iff, not_exists]

example : parse "1.4294967296" = .error (.version "1.4294967296") := by decide

/-! ### The shortest text -/

theorem Number.length_toDigits_le {cs : List Char} {n : ℕ} (h : Number cs n) :
    (Nat.toDigits 10 n).length ≤ cs.length := by
  cases h with
  | plain h => exact h.length_toDigits_le
  | plus h => exact Nat.le_succ_of_le h.length_toDigits_le

/-- Every text of a version is at least as long as the one that is written. -/
theorem length_toString_le {s : String} {v : Version} (h : parse s = .ok v) :
    v.toString.length ≤ s.length := by
  obtain ⟨cs, htrim, hfields⟩ := parse_eq_ok_iff.mp h
  rw [← String.length_toList, ← String.length_toList, toList_toString]
  refine Nat.le_trans ?_ htrim.length_le
  generalize hpatch : v.patch.toNat = p at hfields ⊢
  cases hfields with
  | two ha hb =>
      have hmajor := ha.length_toDigits_le
      have hminor := hb.length_toDigits_le
      rw [if_pos (UInt32.toNat_inj.mp hpatch)]
      simp only [List.length_append, List.length_cons, List.length_nil]
      omega
  | three ha hb hc =>
      have hmajor := ha.length_toDigits_le
      have hminor := hb.length_toDigits_le
      have hthird := hc.length_toDigits_le
      split <;> simp only [List.length_append, List.length_cons, List.length_nil] <;> omega

/-- **Reading undoes writing.** Every version is what its text is read as, so different versions
have different texts. A text that is read as a version may be replaced by the text of the version:
this one is read in the same way and is not longer. -/
theorem reading_undoes_writing :
    (∀ major minor patch : UInt32,
      parse (toString ⟨major, minor, patch⟩) = .ok ⟨major, minor, patch⟩) ∧
    Function.Injective toString ∧
    ∀ s v, parse s = .ok v → parse v.toString = parse s ∧ v.toString.length ≤ s.length := by
  refine ⟨fun major minor patch => parse_toString _, fun v w hvw => ?_, fun s v h => ?_⟩
  · have hread := congrArg parse hvw
    rw [parse_toString, parse_toString] at hread
    exact Except.ok.inj hread
  · exact ⟨(parse_toString v).trans h.symm, length_toString_le h⟩

/-- A plus sign, leading zeros, a patch level of zero and blanks are left out. -/
theorem reading_undoes_writing_padded :
    parse "\t+01.014.00 " = .ok villageUpdate ∧
      parse villageUpdate.toString = parse "\t+01.014.00 " ∧
      villageUpdate.toString.length ≤ "\t+01.014.00 ".length := by
  have hread : parse "\t+01.014.00 " = .ok villageUpdate := by decide
  exact ⟨hread, reading_undoes_writing.2.2 _ _ hread⟩

end Version

end WireCatalog
