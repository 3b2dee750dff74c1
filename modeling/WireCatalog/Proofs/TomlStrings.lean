import WireCatalog.Toml.Quoted
import Mathlib.Data.List.TakeWhile

/-! # Strings that were written are read back

Each of the four forms of a string has its reader, and the reader undoes the writer.

* Between double quotes a character is written by an escape that stands for it or by itself
  (`written_cases`), so one step of the reader undoes one character of the writer.
* Between three quotes the reader ends at the first run of three quotes. Up to two quotes before
  these belong to the string, so a run within the string may have no more than two
  (`closing?_append`). Both writers see to that: `writtenLong` escapes every third quote, and the
  form between single quotes is not chosen otherwise.

`string?_writeString` puts the forms together. What follows a string may be anything but a quote. -/

namespace WireCatalog.Toml

variable {c q : Char} {cs t rest : List Char}

/-! ### One character -/

theorem hexChar?_control : ∀ n < 128, isControl (Char.ofNat n) = true →
    hexChar? ['0', '0', (Nat.digitChar (n / 16)).toUpper, (Nat.digitChar (n % 16)).toUpper] =
      some (Char.ofNat n) := by
  decide

/-- Between double quotes a character is written by an escape that is read back as the character, or
by itself if it has no meaning of its own there. -/
theorem written_cases (c : Char) :
    (∃ e es, written c = '\\' :: e :: es ∧ (isSpace e = false ∧ e ≠ '\n' ∧ e ≠ '\r') ∧
      ∀ tail, escape? (e :: es ++ tail) = some (c, tail)) ∨
    (written c = [c] ∧ c ≠ '"' ∧ c ≠ '\\' ∧ isControl c = false) := by
  unfold written
  split
  · exact .inl ⟨'b', [], rfl, by decide, fun tail => rfl⟩
  · exact .inl ⟨'t', [], rfl, by decide, fun tail => rfl⟩
  · exact .inl ⟨'n', [], rfl, by decide, fun tail => rfl⟩
  · exact .inl ⟨'f', [], rfl, by decide, fun tail => rfl⟩
  · exact .inl ⟨'r', [], rfl, by decide, fun tail => rfl⟩
  · exact .inl ⟨'"', [], rfl, by decide, fun tail => rfl⟩
  · exact .inl ⟨'\\', [], rfl, by decide, fun tail => rfl⟩
  · rename_i hquote hbackslash
    by_cases hc : isControl c = true
    · left
      rw [if_pos hc]
      refine ⟨'u', _, rfl, by decide, fun tail => ?_⟩
      have hlt : c.toNat < 128 := by
        simp [isControl] at hc
        omega
      have hread := hexChar?_control c.toNat hlt (by rwa [Char.ofNat_toNat])
      simp [escape?, escapeWidth?, hread]
    · right
      rw [if_neg hc]
      exact ⟨rfl, hquote, hbackslash, by simpa using hc⟩

/-- What is written does not start with a quote or with a line end. -/
theorem head?_written (c : Char) :
    ∃ d ds, written c = d :: ds ∧ d ≠ '"' ∧ d ≠ '\n' ∧ d ≠ '\r' := by
  rcases written_cases c with ⟨e, es, hw, _, _⟩ | ⟨hw, hquote, _, hc⟩
  · exact ⟨'\\', _, hw, by decide⟩
  · refine ⟨c, _, hw, hquote, ?_, ?_⟩
    · rintro rfl
      cases hc
    · rintro rfl
      cases hc

/-! ### Strings on one line -/

theorem basicBody_written (c : Char) (tail : List Char) :
    basicBody (written c ++ tail) = consRead c (basicBody tail) := by
  rcases written_cases c with ⟨e, es, hw, _, hread⟩ | ⟨hw, hquote, hbackslash, hc⟩
  · rw [hw, List.cons_append, basicBody]
    split
    · rename_i hnone
      cases hnone.symm.trans (hread tail)
    · rename_i hsome
      cases hsome.symm.trans (hread tail)
      rfl
  · rw [hw, List.singleton_append, basicBody]
    · simp [hc]
    · exact hquote
    · exact hbackslash

theorem basicBody_flatMap_written (cs rest : List Char) :
    basicBody (cs.flatMap written ++ '"' :: rest) = some (cs, rest) := by
  induction cs with
  | nil => simp [basicBody]
  | cons c cs ih =>
      rw [List.flatMap_cons, List.append_assoc, basicBody_written, ih]
      rfl

theorem literalBody_append (h : ∀ c ∈ cs, c ≠ '\'' ∧ isControl c = false) :
    literalBody (cs ++ '\'' :: rest) = some (cs, rest) := by
  induction cs with
  | nil => rfl
  | cons c cs ih =>
      obtain ⟨hquote, hc⟩ := h c List.mem_cons_self
      rw [List.cons_append, literalBody, ih fun d hd => h d (List.mem_cons_of_mem _ hd)]
      · simp [hc, consRead]
      · exact hquote

/-! ### The end of a long string -/

theorem closing?_cons_of_ne (h : c ≠ q) (cs : List Char) : closing? q (c :: cs) = none := by
  simp [closing?, h]

/-- A text with no more than two quotes at its start is closed by the quotes that follow it if it
consists of quotes, and is not closed at its start otherwise. -/
theorem closing?_append (hrun : (t.takeWhile (· == q)).length ≤ 2) (hrest : rest.head? ≠ some q) :
    closing? q (t ++ q :: q :: q :: rest) =
      if t.all (· == q) then some (t, rest) else none := by
  have hend : rest.takeWhile (· == q) = [] := by
    cases rest with
    | nil => rfl
    | cons c rest =>
        rw [List.takeWhile_cons_of_neg]
        simpa using hrest
  by_cases hall : t.all (· == q) = true
  · have ht : ∀ c ∈ t, (c == q) = true := List.all_eq_true.mp hall
    have htake : t.takeWhile (· == q) = t := List.takeWhile_eq_self_iff.mpr ht
    have hreplicate : List.replicate t.length q = t :=
      (List.eq_replicate_of_mem fun c hc => beq_iff_eq.mp (ht c hc)).symm
    have hquotes : ((t ++ q :: q :: q :: rest).takeWhile (· == q)).length = t.length + 3 := by
      rw [List.takeWhile_append_of_pos ht]
      simp [hend]
    have hmin : min (t.length + 3 - 3) 2 = t.length := by
      rw [htake] at hrun
      omega
    rw [closing?, hquotes, if_neg (by omega), if_pos hall, hmin]
    dsimp only
    rw [hreplicate, List.drop_append]
    simp
  · have hne : (t.takeWhile (· == q)).length ≠ t.length := by
      intro hlen
      refine hall (List.all_eq_true.mpr fun c hc => ?_)
      exact List.takeWhile_eq_self_iff.mp ((List.takeWhile_sublist _).eq_of_length hlen) c hc
    rw [closing?, List.takeWhile_append, if_neg hne, if_neg hall, if_pos (by omega)]

/-! ### Long strings between double quotes -/

theorem longBasicBody_of_closing {r : List Char × List Char} (h : closing? '"' cs = some r) :
    longBasicBody cs = some r := by
  unfold longBasicBody
  rw [h]

theorem longBasicBody_newline (tail : List Char) :
    longBasicBody ('\n' :: tail) = consRead '\n' (longBasicBody tail) := by
  rw [longBasicBody, closing?_cons_of_ne (by decide)]

theorem longBasicBody_plain (hb : c ≠ '\\') (hc : isControl c = false) {tail : List Char}
    (h : closing? '"' (c :: tail) = none) :
    longBasicBody (c :: tail) = consRead c (longBasicBody tail) := by
  have hfeed : c ≠ '\n' := by
    rintro rfl
    cases hc
  have hreturn : c ≠ '\r' := by
    rintro rfl
    cases hc
  rw [longBasicBody, h]
  · simp [hc]
  · exact hb
  · exact hfeed
  · exact fun _ hr => absurd hr hreturn

theorem longBasicBody_written (c : Char) (tail : List Char) :
    longBasicBody (written c ++ tail) = consRead c (longBasicBody tail) := by
  rcases written_cases c with ⟨e, es, hw, ⟨hspace, hfeed, hreturn⟩, hread⟩ |
    ⟨hw, hquote, hbackslash, hc⟩
  · have hblank : blankToLineEnd (e :: (es ++ tail)) = false := by
      simp [blankToLineEnd, skipSpaces, hspace, hfeed, hreturn]
    rw [hw, List.cons_append, longBasicBody, closing?_cons_of_ne (by decide)]
    dsimp only
    rw [if_neg (by simp [hblank])]
    split
    · rename_i hnone
      cases hnone.symm.trans (hread tail)
    · rename_i hsome
      cases hsome.symm.trans (hread tail)
      rfl
  · rw [hw, List.singleton_append, longBasicBody_plain hbackslash hc (closing?_cons_of_ne hquote _)]

/-- What is written has no more quotes at its start than the counter leaves. -/
theorem length_takeWhile_writtenLong (cs : List Char) {quotes : ℕ} (h : quotes ≤ 2) :
    ((writtenLong quotes cs).takeWhile (· == '"')).length ≤ 2 - quotes := by
  induction cs generalizing quotes with
  | nil => simp [writtenLong]
  | cons c cs ih =>
      obtain ⟨d, ds, hw, hd, _⟩ := head?_written c
      unfold writtenLong
      split
      · rename_i hc
        simp [hc]
      · split
        · rename_i hc
          split
          · rename_i hlt
            have hnext : quotes + 1 ≤ 2 := hlt
            have := ih hnext
            simp [hc]
            omega
          · simp [hw, hd]
        · simp [hw, hd]

/-- Quotes alone are written as they are. -/
theorem writtenLong_of_all {quotes : ℕ} (h : (writtenLong quotes cs).all (· == '"') = true) :
    writtenLong quotes cs = cs := by
  induction cs generalizing quotes with
  | nil => rfl
  | cons c cs ih =>
      obtain ⟨d, ds, hw, hd, _⟩ := head?_written c
      unfold writtenLong at h ⊢
      split at h
      · rename_i hc
        simp [hc] at h
      · split at h
        · split at h
          · rename_i hfeed hquote hlt
            simp only [List.all_cons, Bool.and_eq_true] at h
            simp [hquote, hlt, ih h.2]
          · simp [hw, hd] at h
        · simp [hw, hd] at h

theorem longBasicBody_writtenLong (cs : List Char) {quotes : ℕ} (h : quotes ≤ 2)
    (hrest : rest.head? ≠ some '"') :
    longBasicBody (writtenLong quotes cs ++ '"' :: '"' :: '"' :: rest) = some (cs, rest) := by
  induction cs generalizing quotes with
  | nil =>
      have hclosing := closing?_append (t := []) (q := '"') (by simp) hrest
      exact longBasicBody_of_closing hclosing
  | cons c cs ih =>
      have hclosing := closing?_append (t := writtenLong quotes (c :: cs))
        ((length_takeWhile_writtenLong _ h).trans (Nat.sub_le _ _)) hrest
      -- If only quotes are left, they stand before the ones that close the string. Otherwise the
      -- string goes on and one character is read.
      by_cases hall : (writtenLong quotes (c :: cs)).all (· == '"') = true
      · rw [if_pos hall, writtenLong_of_all hall] at hclosing
        rw [writtenLong_of_all hall]
        exact longBasicBody_of_closing hclosing
      · rw [if_neg hall] at hclosing
        unfold writtenLong at hclosing ⊢
        split
        · rename_i hc
          rw [hc, List.cons_append, longBasicBody_newline, ih (Nat.zero_le 2)]
          rfl
        · split
          · rename_i hfeed hquote
            split
            · rename_i hlt
              rw [if_neg hfeed, if_pos hquote, if_pos hlt, hquote, List.cons_append] at hclosing
              rw [hquote, List.cons_append, longBasicBody_plain (by decide) (by decide) hclosing,
                ih hlt]
              rfl
            · rw [List.append_assoc, longBasicBody_written, ih (Nat.zero_le 2)]
              rfl
          · rw [List.append_assoc, longBasicBody_written, ih (Nat.zero_le 2)]
            rfl

/-! ### Long strings between single quotes -/

theorem longestRun_mono (q : Char) {run run' : ℕ} (h : run ≤ run') (cs : List Char) :
    longestRun q run cs ≤ longestRun q run' cs := by
  induction cs generalizing run run' with
  | nil => exact h
  | cons c cs ih =>
      unfold longestRun
      split
      · exact ih (by omega)
      · omega

theorem longestRun_le_cons (q c : Char) (run : ℕ) (cs : List Char) :
    longestRun q 0 cs ≤ longestRun q run (c :: cs) := by
  rw [longestRun]
  split
  · exact longestRun_mono q (Nat.zero_le _) cs
  · omega

theorem length_takeWhile_le_longestRun (q : Char) (run : ℕ) (cs : List Char) :
    run + (cs.takeWhile (· == q)).length ≤ longestRun q run cs := by
  induction cs generalizing run with
  | nil => simp [longestRun]
  | cons c cs ih =>
      unfold longestRun
      split
      · rename_i hc
        have := ih (run + 1)
        simp [hc]
        omega
      · rename_i hc
        rw [List.takeWhile_cons_of_neg (by simpa using hc), List.length_nil]
        omega

theorem longLiteralBody_of_closing {r : List Char × List Char} (h : closing? '\'' cs = some r) :
    longLiteralBody cs = some r := by
  unfold longLiteralBody
  rw [h]

theorem longLiteralBody_cons (hplain : needsEscape c = false) {tail : List Char}
    (h : closing? '\'' (c :: tail) = none) :
    longLiteralBody (c :: tail) = consRead c (longLiteralBody tail) := by
  by_cases hfeed : c = '\n'
  · rw [hfeed] at h ⊢
    rw [longLiteralBody, h]
  · have hc : isControl c = false := by simpa [needsEscape, hfeed] using hplain
    have hreturn : c ≠ '\r' := by
      rintro rfl
      cases hc
    rw [longLiteralBody, h]
    · simp [hc]
    · exact hfeed
    · exact fun _ hr => absurd hr hreturn

theorem longLiteralBody_append (hplain : ∀ c ∈ cs, needsEscape c = false)
    (hrun : longestRun '\'' 0 cs ≤ 2) (hrest : rest.head? ≠ some '\'') :
    longLiteralBody (cs ++ '\'' :: '\'' :: '\'' :: rest) = some (cs, rest) := by
  induction cs with
  | nil =>
      have hclosing := closing?_append (t := []) (q := '\'') (by simp) hrest
      exact longLiteralBody_of_closing hclosing
  | cons c cs ih =>
      have hfront := length_takeWhile_le_longestRun '\'' 0 (c :: cs)
      have hclosing := closing?_append (t := c :: cs) (q := '\'') (by omega) hrest
      by_cases hall : (c :: cs).all (· == '\'') = true
      · rw [if_pos hall] at hclosing
        exact longLiteralBody_of_closing hclosing
      · rw [if_neg hall, List.cons_append] at hclosing
        rw [List.cons_append, longLiteralBody_cons (hplain c List.mem_cons_self) hclosing,
          ih (fun d hd => hplain d (List.mem_cons_of_mem _ hd))
            ((longestRun_le_cons '\'' c 0 cs).trans hrun)]
        rfl

/-! ### Any form -/

/-- What a form needs of a string so that it can show it. The two that have escapes need nothing. -/
def StringForm.Fits (f : StringForm) (cs : List Char) : Prop :=
  f.isPlainFor cs = true ∨ f = .basic ∨ f = .longBasic

theorem fits_formOf (cs : List Char) : (formOf cs).Fits cs := by
  unfold formOf
  cases hf : [StringForm.basic, .literal, .longBasic, .longLiteral].find? (·.isPlainFor cs) with
  | some f =>
      have hplain := List.find?_some hf
      exact .inl hplain
  | none =>
      right
      dsimp only
      split
      · exact .inr rfl
      · exact .inl rfl

/-- The line end after three quotes is left out, and nothing else is. -/
theorem dropLineEnd_openingLine
    (h : '\n' ∉ cs → ∀ d ∈ t.head?, d ≠ '\n' ∧ d ≠ '\r') :
    dropLineEnd (openingLine cs ++ t) = t := by
  unfold openingLine
  by_cases hcs : '\n' ∈ cs
  · simp [hcs, dropLineEnd]
  · have hhead := h hcs
    simp only [List.contains_eq_mem, hcs, decide_false, Bool.false_eq_true, if_false,
      List.nil_append]
    unfold dropLineEnd
    split
    · exact absurd rfl (hhead '\n' rfl).1
    · exact absurd rfl (hhead '\r' rfl).2
    · rfl

theorem string?_basic (cs : List Char) (hrest : rest.head? ≠ some '"') :
    string? (StringForm.basic.write cs ++ rest) = some (cs, rest) := by
  have hread := basicBody_flatMap_written cs rest
  have hbody : StringForm.basic.write cs ++ rest = '"' :: (cs.flatMap written ++ '"' :: rest) := by
    simp [StringForm.write]
  rw [hbody, string?]
  · exact hread
  · -- A second and a third quote would be the one that closes the string and one after it.
    intro tail h
    cases cs with
    | nil =>
        obtain ⟨_, rfl⟩ := List.cons.inj (List.cons.inj h).2
        exact hrest rfl
    | cons c cs =>
        obtain ⟨d, ds, hw, hd, _⟩ := head?_written c
        rw [List.flatMap_cons, hw] at h
        exact hd (List.cons.inj (List.cons.inj h).2).1
  · intro tail h
    cases (List.cons.inj h).1

theorem string?_literal (h : StringForm.literal.Fits cs) (hrest : rest.head? ≠ some '\'') :
    string? (StringForm.literal.write cs ++ rest) = some (cs, rest) := by
  have hplain : ∀ c ∈ cs, c ≠ '\'' ∧ isControl c = false := by
    rcases h with h | h | h
    · simp only [StringForm.isPlainFor, needsEscape, Bool.and_eq_true, Bool.not_eq_true',
        List.any_eq_false, List.contains_eq_mem, decide_eq_false_iff_not] at h
      intro c hc
      refine ⟨fun he => h.2.1 (he ▸ hc), ?_⟩
      have hfeed : c ≠ '\n' := fun he => h.2.2 (he ▸ hc)
      simpa [hfeed] using h.1 c hc
    · cases h
    · cases h
  have hbody : StringForm.literal.write cs ++ rest = '\'' :: (cs ++ '\'' :: rest) := by
    simp [StringForm.write]
  rw [hbody, string?]
  · exact literalBody_append hplain
  · intro tail h
    cases (List.cons.inj h).1
  · intro tail h
    cases cs with
    | nil =>
        obtain ⟨_, rfl⟩ := List.cons.inj (List.cons.inj h).2
        exact hrest rfl
    | cons c cs => exact (hplain c List.mem_cons_self).1 (List.cons.inj (List.cons.inj h).2).1

theorem string?_longBasic (cs : List Char) (hrest : rest.head? ≠ some '"') :
    string? (StringForm.longBasic.write cs ++ rest) = some (cs, rest) := by
  have hbody : StringForm.longBasic.write cs ++ rest = '"' :: '"' :: '"' ::
      (openingLine cs ++ (writtenLong 0 cs ++ '"' :: '"' :: '"' :: rest)) := by
    simp [StringForm.write]
  rw [hbody, string?, dropLineEnd_openingLine]
  · exact longBasicBody_writtenLong cs (Nat.zero_le 2) hrest
  · intro hcs d hd
    cases cs with
    | nil =>
        obtain rfl := Option.some.inj hd
        decide
    | cons c cs =>
        obtain ⟨e, es, hw, _, hfeed, hreturn⟩ := head?_written c
        have hc : c ≠ '\n' := fun he => hcs (he ▸ List.mem_cons_self)
        unfold writtenLong at hd
        rw [if_neg hc] at hd
        split at hd
        · rename_i hquote
          obtain rfl := Option.some.inj hd
          rw [hquote]
          decide
        · rw [hw] at hd
          obtain rfl := Option.some.inj hd
          exact ⟨hfeed, hreturn⟩

theorem string?_longLiteral (h : StringForm.longLiteral.Fits cs) (hrest : rest.head? ≠ some '\'') :
    string? (StringForm.longLiteral.write cs ++ rest) = some (cs, rest) := by
  have hplain : (∀ c ∈ cs, needsEscape c = false) ∧ longestRun '\'' 0 cs ≤ 2 := by
    rcases h with h | h | h
    · simpa [StringForm.isPlainFor] using h
    · cases h
    · cases h
  have hbody : StringForm.longLiteral.write cs ++ rest = '\'' :: '\'' :: '\'' ::
      (openingLine cs ++ (cs ++ '\'' :: '\'' :: '\'' :: rest)) := by
    simp [StringForm.write]
  rw [hbody, string?, dropLineEnd_openingLine]
  · exact longLiteralBody_append hplain.1 hplain.2 hrest
  · intro hcs d hd
    cases cs with
    | nil =>
        obtain rfl := Option.some.inj hd
        decide
    | cons c cs =>
        obtain rfl := Option.some.inj hd
        refine ⟨fun he => hcs (he ▸ List.mem_cons_self), ?_⟩
        rintro rfl
        cases hplain.1 _ List.mem_cons_self

/-- A string that was written is read back up to its end. -/
theorem string?_writeString (s : String) (hdouble : rest.head? ≠ some '"')
    (hsingle : rest.head? ≠ some '\'') :
    string? ((writeString s).toList ++ rest) = some (s.toList, rest) := by
  have hfits := fits_formOf s.toList
  rw [writeString, String.toList_ofList]
  cases hf : formOf s.toList with
  | basic => exact string?_basic _ hdouble
  | literal => exact string?_literal (hf ▸ hfits) hsingle
  | longBasic => exact string?_longBasic _ hdouble
  | longLiteral => exact string?_longLiteral (hf ▸ hfits) hsingle

end WireCatalog.Toml
