import WireCatalog.Proofs.Enrolment
import WireCatalog.Proofs.Lists
import WireCatalog.Proofs.Representation

/-! # Tables row by row

A table is registered in directories that may hold anything already. `Progress.Applied` says what
rows make of the directories if all of them are accepted: in each channel the entries grow by the
packet types of its rows and the retired names by its old names, in the order of the rows.

* `Applied.apply` is the step for a row that is accepted and `Applied.applyAll` the run.
* `applyAll_stops` finds the row that a run stops at, with the rows before it all accepted.
* `Applied.refuses` says why a row is refused, if its target is an earlier row (`Grounded`) and it
  has an id: its id or its name is there already.

`enrols_in_order_or_stops` puts this together for the built-in tables. -/

namespace WireCatalog

/-! ### Changes of the ten directories -/

namespace DirectorySet

variable {s s' : DirectorySet} {x : PacketType}

/-- In sound directories a declaration can be adopted in its own channel. -/
theorem Sound.adopt_eq_enter (h : s.Sound) (decl : Declaration) (b : Binding) (k : ℕ) :
    s.adopt decl.channel decl b k = .ok (s.enter decl b k) := by
  rw [adopt, Directory.adopt_of_channel (h.channel decl.channel).symm]
  rfl

theorem retired_enter {decl : Declaration} {b : Binding} {k : ℕ} {outcome : Adoption}
    (he : s.enter decl b k = (outcome, s')) (c : Channel) :
    (s'.get c).retired = (s.get c).retired := by
  obtain rfl : (s.enter decl b k).2 = s' := congrArg Prod.snd he
  show ((s.set decl.channel ((s.get decl.channel).enter decl b k).2).get c).retired = _
  by_cases hc : decl.channel = c
  · rw [hc, PerChannel.get_set_self]
    rcases (s.get c).enter_cases decl b k with ⟨_, _, hd⟩ | ⟨_, _, _, hd⟩ | ⟨_, _, hd⟩ <;> rw [hd]
    rfl
  · rw [PerChannel.get_set_of_ne _ _ hc]

/-- A retirement adds the old name for what the target stands for. -/
theorem retired_retire {c : Channel} {old target : String}
    (hr : s.retire c old target = .ok (x, s')) :
    (s.get c).byName? target = some x ∧
      ∀ c', (s'.get c').retired = (s.get c').retired ++ if c = c' then [⟨old, x⟩] else [] := by
  obtain ⟨d, hd, rfl⟩ := retire_ok hr
  obtain ⟨htarget, _, rfl⟩ := Directory.retire_ok hd
  refine ⟨htarget, fun c' => ?_⟩
  by_cases hc : c = c'
  · subst hc
    rw [if_pos rfl, PerChannel.get_set_self]
    rfl
  · rw [if_neg hc, PerChannel.get_set_of_ne _ _ hc, List.append_nil]

end DirectorySet

namespace BuiltIn

/-! ### What is in rows -/

/-- The packet type in a row, if it is not an old name. -/
def Row.declared? : Row → Option Entry
  | .entry e => some e
  | .renamed _ _ => none

/-- The old name in a row and the name of its target. -/
def Row.renaming? : Row → Option (String × String)
  | .entry _ => none
  | .renamed old target => some (old, target)

/-- The name that a row binds. -/
def Row.name : Row → String
  | .entry e => e.name
  | .renamed old _ => old

/-- The packet types of one channel among rows. -/
def entriesOf (c : Channel) (rows : List (Channel × Row)) : List Entry :=
  rows.filterMap fun (c', r) => if c' = c then r.declared? else none

/-- The old names of one channel among rows, each with the name of its target. -/
def renamingsOf (c : Channel) (rows : List (Channel × Row)) : List (String × String) :=
  rows.filterMap fun (c', r) => if c' = c then r.renaming? else none

variable {c : Channel} {rows : List (Channel × Row)}

theorem entriesOf_concat (c : Channel) (rows : List (Channel × Row)) (r : Channel × Row) :
    entriesOf c (rows ++ [r]) = entriesOf c rows ++ entriesOf c [r] :=
  List.filterMap_append

theorem renamingsOf_concat (c : Channel) (rows : List (Channel × Row)) (r : Channel × Row) :
    renamingsOf c (rows ++ [r]) = renamingsOf c rows ++ renamingsOf c [r] :=
  List.filterMap_append

theorem mem_entriesOf {e : Entry} (h : (c, .entry e) ∈ rows) : e ∈ entriesOf c rows :=
  List.mem_filterMap.mpr ⟨_, h, if_pos rfl⟩

theorem mem_renamingsOf {old target : String} (h : (c, .renamed old target) ∈ rows) :
    (old, target) ∈ renamingsOf c rows :=
  List.mem_filterMap.mpr ⟨_, h, if_pos rfl⟩

/-- Whether a packet type is what a row of a channel became, in the table of release `v`. -/
def Entry.Became (c : Channel) (v : Version) (e : Entry) (x : PacketType) : Prop :=
  x.toDeclaration = e.declaration c v ∧ x.toBinding = e.binding

/-- Whether a packet type has the id of a row or, if both have none, its legacy id. -/
def Row.SharesId : Row → PacketType → Prop
  | .entry e, x =>
    (e.id ≠ unknownId ∧ x.key.id = e.id) ∨
      (e.id = unknownId ∧ e.legacyId ≠ unknownId ∧ x.key.id = unknownId ∧ x.legacyId = e.legacyId)
  | .renamed _ _, _ => False

/-- Rows in which every old name stands for the packet type of an earlier row of its channel. -/
def Grounded (rows : List (Channel × Row)) : Prop :=
  ∀ before c old target after, rows = before ++ (c, .renamed old target) :: after →
    ∃ e, (c, .entry e) ∈ before ∧ e.name = target

theorem Grounded.of_append {rest : List (Channel × Row)} (h : Grounded (rows ++ rest)) :
    Grounded rows := by
  rintro before c old target after rfl
  exact h before c old target (after ++ rest) (by simp)

theorem Grounded.target {r : Row} {rest : List (Channel × Row)}
    (h : Grounded (rows ++ (c, r) :: rest)) :
    ∀ q ∈ r.renaming?, ∃ e, (c, .entry e) ∈ rows ∧ e.name = q.2 := by
  intro q hq
  cases r with
  | entry e => cases hq
  | renamed old target =>
      obtain rfl := Option.some.inj hq
      exact h rows c old target rest rfl

theorem Grounded.of_take (h : ∀ i, (hi : i < rows.length) → ∀ q ∈ rows[i].2.renaming?,
    ∃ r ∈ rows.take i, r.1 = rows[i].1 ∧ ∃ e ∈ r.2.declared?, e.name = q.2) : Grounded rows := by
  rintro before c old target after rfl
  obtain ⟨⟨c', r⟩, hr, hc, e, he, hname⟩ :=
    h before.length (by simp) (old, target) (by simp [Row.renaming?])
  simp only [List.take_left, List.getElem_append_right (le_refl _), Nat.sub_self,
    List.getElem_cons_zero] at hr hc
  subst hc
  cases r with
  | entry e' =>
      obtain rfl := Option.some.inj he
      exact ⟨e', hr, hname⟩
  | renamed _ _ => cases he

/-! ### Rows that are accepted -/

namespace Progress

/-- Whether a retired name of a channel is that of a row, given by the old name and the name of its
target, and stands for the entry that the row of the target became. -/
def Renames (p : Progress) (v : Version) (rows : List (Channel × Row)) (c : Channel)
    (q : String × String) (r : RetiredName) : Prop :=
  r.name = q.1 ∧ r.target ∈ (p.set.get c).entries ∧
    ∃ e, (c, .entry e) ∈ rows ∧ e.name = q.2 ∧ e.Became c v r.target

/-- What rows of the table of release `v`, all of them accepted, make of directories `s`: in each
channel the packet types of the rows come after the entries that were there, and the old names after
the retired names. -/
structure Applied (v : Version) (s : DirectorySet) (rows : List (Channel × Row)) (p : Progress) :
    Prop where
  adopted : p.adopted = rows.countP (·.2.isEntry)
  entries : ∀ c, ∃ new, (p.set.get c).entries = (s.get c).entries ++ new ∧
    List.Forall₂ (Entry.Became c v) (entriesOf c rows) new
  retired : ∀ c, ∃ new, (p.set.get c).retired = (s.get c).retired ++ new ∧
    List.Forall₂ (p.Renames v rows c) (renamingsOf c rows) new

variable {k : ℕ} {v : Version} {s : DirectorySet} {p p' : Progress} {r : Row}

theorem Renames.mono {rows' : List (Channel × Row)} {q : String × String} {n : RetiredName}
    (hrows : rows ⊆ rows') (hentries : (p.set.get c).entries ⊆ (p'.set.get c).entries)
    (h : p.Renames v rows c q n) : p'.Renames v rows' c q n := by
  obtain ⟨hname, hmem, e, he, htarget, hbecame⟩ := h
  exact ⟨hname, hentries hmem, e, hrows he, htarget, hbecame⟩

theorem applied_nil (v : Version) (s : DirectorySet) : Applied v s [] ⟨s, 0⟩ where
  adopted := rfl
  entries _ := ⟨[], (List.append_nil _).symm, .nil⟩
  retired _ := ⟨[], (List.append_nil _).symm, .nil⟩

/-- A row that is accepted is an adoption or a retirement. -/
theorem step_apply (hs : p.set.Sound) (ha : p.apply k v c r = .ok p') : p.set.Step p'.set := by
  cases r with
  | entry e =>
      obtain ⟨x, he, _⟩ := apply_entry ha
      exact .adopt ((hs.adopt_eq_enter (e.declaration c v) _ _).trans (congrArg Except.ok he))
  | renamed old target =>
      obtain ⟨x, hr, _⟩ := apply_renamed ha
      exact .retire hr

theorem sound_apply (hs : p.set.Sound) (ha : p.apply k v c r = .ok p') : p'.set.Sound :=
  hs.step (step_apply hs ha)

namespace Applied

/-- The packet type of a row is among the entries, and its name leads to it. -/
theorem exists_entry (h : p.Applied v s rows) (hs : p.set.Sound) {e : Entry}
    (he : (c, .entry e) ∈ rows) : ∃ x ∈ (p.set.get c).entries, e.Became c v x ∧
      (p.set.get c).byName? e.name = some x := by
  obtain ⟨new, hentries, hnew⟩ := h.entries c
  obtain ⟨x, hx, hbecame⟩ := exists_of_forall₂ hnew (mem_entriesOf he)
  have hmem : x ∈ (p.set.get c).entries := hentries ▸ List.mem_append_right _ hx
  have hname : x.name = e.name := congrArg Binding.name hbecame.2
  exact ⟨x, hmem, hbecame, (hs.each c).byName?_eq_some_iff.mpr (.inl ⟨hmem, hname⟩)⟩

/-- An old name leads to the entry that the row of its target became. -/
theorem byName?_renamed (h : p.Applied v s rows) (hs : p.set.Sound) {old target : String}
    (hr : (c, .renamed old target) ∈ rows) : ∃ e x, (c, .entry e) ∈ rows ∧ e.name = target ∧
      x ∈ (p.set.get c).entries ∧ e.Became c v x ∧ (p.set.get c).byName? old = some x := by
  obtain ⟨new, hretired, hnew⟩ := h.retired c
  obtain ⟨⟨n, x⟩, hmem, hn, hx, e, he, hname, hbecame⟩ :=
    exists_of_forall₂ hnew (mem_renamingsOf hr)
  obtain rfl : n = old := hn
  have hold : (⟨n, x⟩ : RetiredName) ∈ (p.set.get c).retired :=
    hretired ▸ List.mem_append_right _ hmem
  exact ⟨e, x, he, hname, hx, hbecame, (hs.each c).byName?_eq_some_iff.mpr (.inr hold)⟩

/-- A packet type that is accepted comes last in its channel. -/
theorem apply_entry (h : p.Applied v s rows) {e : Entry} (ha : p.apply k v c (.entry e) = .ok p') :
    p'.Applied v s (rows ++ [(c, .entry e)]) := by
  obtain ⟨x, he, hadopted⟩ := Progress.apply_entry ha
  obtain ⟨rfl, _⟩ := DirectorySet.entries_enter he c
  have hentries c' := (DirectorySet.entries_enter he c').2
  refine ⟨?_, fun c' => ?_, fun c' => ?_⟩
  · simp [hadopted, h.adopted, Row.isEntry]
  · obtain ⟨new, hold, hnew⟩ := h.entries c'
    refine ⟨_, by rw [hentries, hold, List.append_assoc], ?_⟩
    rw [entriesOf_concat]
    refine List.rel_append hnew ?_
    have hchannel : ((e.declaration c v).bind e.binding (k + p.adopted)).channel = c := rfl
    rw [hchannel]
    by_cases hc : c = c'
    · subst hc
      have hrow : entriesOf c [(c, .entry e)] = [e] := by simp [entriesOf, Row.declared?]
      rw [hrow, if_pos rfl]
      exact .cons ⟨rfl, rfl⟩ .nil
    · simp [entriesOf, hc]
  · obtain ⟨new, hold, hnew⟩ := h.retired c'
    refine ⟨new, (DirectorySet.retired_enter he c').trans hold, ?_⟩
    have hnone : renamingsOf c' [(c, .entry e)] = [] := by simp [renamingsOf, Row.renaming?]
    rw [renamingsOf_concat, hnone, List.append_nil]
    have hgrow : (p.set.get c').entries ⊆ (p'.set.get c').entries := by
      rw [hentries]
      exact List.subset_append_left _ _
    exact hnew.imp fun _ _ => Renames.mono (List.subset_append_left _ _) hgrow

/-- An old name that is accepted comes last in its channel. Its target is the packet type of an
earlier row, which is what the name of the target leads to. -/
theorem apply_renamed (h : p.Applied v s rows) (hs : p.set.Sound) {old target : String}
    (htarget : ∃ e, (c, .entry e) ∈ rows ∧ e.name = target)
    (ha : p.apply k v c (.renamed old target) = .ok p') :
    p'.Applied v s (rows ++ [(c, .renamed old target)]) := by
  obtain ⟨x, hr, hadopted⟩ := Progress.apply_renamed ha
  obtain ⟨hfound, hretired⟩ := DirectorySet.retired_retire hr
  have hentries := DirectorySet.entries_retire hr
  refine ⟨?_, fun c' => ?_, fun c' => ?_⟩
  · simp [hadopted, h.adopted, Row.isEntry]
  · have hnone : entriesOf c' [(c, .renamed old target)] = [] := by simp [entriesOf, Row.declared?]
    rw [entriesOf_concat, hnone, List.append_nil, hentries]
    exact h.entries c'
  · obtain ⟨new, hold, hnew⟩ := h.retired c'
    refine ⟨_, by rw [hretired, hold, List.append_assoc], ?_⟩
    rw [renamingsOf_concat]
    have hgrow : (p.set.get c').entries ⊆ (p'.set.get c').entries := by
      rw [hentries]
      exact List.Subset.refl _
    refine List.rel_append
      (hnew.imp fun _ _ => Renames.mono (List.subset_append_left _ _) hgrow) ?_
    by_cases hc : c = c'
    · subst hc
      obtain ⟨e, he, hname⟩ := htarget
      obtain ⟨y, hy, hbecame, hleads⟩ := h.exists_entry hs he
      rw [hname] at hleads
      obtain rfl := Option.some.inj (hfound.symm.trans hleads)
      have hrow : renamingsOf c [(c, .renamed old target)] = [(old, target)] := by
        simp [renamingsOf, Row.renaming?]
      rw [hrow, if_pos rfl]
      exact .cons ⟨rfl, hgrow hy, e, List.mem_append_left _ he, hname, hbecame⟩ .nil
    · simp [renamingsOf, hc]

/-- A row that is accepted adds its packet type or its old name, in its channel. -/
theorem apply (h : p.Applied v s rows) (hs : p.set.Sound)
    (htarget : ∀ q ∈ r.renaming?, ∃ e, (c, .entry e) ∈ rows ∧ e.name = q.2)
    (ha : p.apply k v c r = .ok p') : p'.Applied v s (rows ++ [(c, r)]) := by
  cases r with
  | entry e => exact h.apply_entry ha
  | renamed old target => exact h.apply_renamed hs (htarget (old, target) rfl) ha

/-- Rows that are all accepted after others. -/
theorem applyAll {before : List (Channel × Row)} (h : p.Applied v s before) (hs : p.set.Sound)
    (hg : Grounded (before ++ rows)) (hall : (applyAll k v rows p).2 = none) :
    (Progress.applyAll k v rows p).1.set.Sound ∧
      (Progress.applyAll k v rows p).1.Applied v s (before ++ rows) := by
  induction rows generalizing before p with
  | nil =>
      rw [List.append_nil]
      exact ⟨hs, h⟩
  | cons r rows ih =>
      obtain ⟨c, r⟩ := r
      cases ha : p.apply k v c r with
      | error e =>
          rw [applyAll_cons_of_error ha rows] at hall
          cases hall
      | ok p' =>
          rw [applyAll_cons_of_ok ha rows] at hall ⊢
          have hp' := h.apply hs hg.target ha
          have hsplit : before ++ (c, r) :: rows = (before ++ [(c, r)]) ++ rows := by simp
          rw [hsplit] at hg ⊢
          exact ih hp' (sound_apply hs ha) hg hall

end Applied

/-! ### The row that is refused -/

/-- A run stops at the first row that is refused, with what the rows before it made. -/
theorem applyAll_stops {err : CatalogueError} (h : (applyAll k v rows p).2 = some err) :
    ∃ done c r rest, rows = done ++ (c, r) :: rest ∧
      applyAll k v done p = ((applyAll k v rows p).1, none) ∧
      (applyAll k v rows p).1.apply k v c r = .error err := by
  induction rows generalizing p with
  | nil => cases h
  | cons r rows ih =>
      obtain ⟨c, r⟩ := r
      cases ha : p.apply k v c r with
      | error e =>
          rw [applyAll_cons_of_error ha rows] at h ⊢
          obtain rfl := Option.some.inj h
          exact ⟨[], c, r, rows, rfl, rfl, ha⟩
      | ok p' =>
          rw [applyAll_cons_of_ok ha rows] at h ⊢
          obtain ⟨done, c', r', rest, rfl, hdone, herr⟩ := ih h
          exact ⟨(c, r) :: done, c', r', rest, rfl, (applyAll_cons_of_ok ha done).trans hdone, herr⟩

theorem apply_entry_error {e : Entry} {err : CatalogueError}
    (ha : p.apply k v c (.entry e) = .error err) :
    ∃ y, err = .nameConflict c e.name y.name ∧
      ((p.set.get c).equivalent? (e.declaration c v) = some y ∨
        (p.set.get c).byName? e.name = some y) := by
  have henter : p.set.enter (e.declaration c v) e.binding (k + p.adopted) =
      (((p.set.get c).enter (e.declaration c v) e.binding (k + p.adopted)).1, _) := rfl
  simp only [apply, henter] at ha
  rcases (p.set.get c).enter_cases (e.declaration c v) e.binding (k + p.adopted) with
    ⟨y, hy, hd⟩ | ⟨y, _, hy, hd⟩ | ⟨_, _, hd⟩
  · rw [hd] at ha
    exact ⟨y, (Except.error.inj ha).symm, .inl hy⟩
  · rw [hd] at ha
    exact ⟨y, (Except.error.inj ha).symm, .inr hy⟩
  · rw [hd] at ha
    cases ha

theorem apply_renamed_error {old target : String} {err : CatalogueError}
    (ha : p.apply k v c (.renamed old target) = .error err) :
    (p.set.get c).byName? target = none ∨
      ∃ y, err = .nameConflict (p.set.get c).channel old y.name ∧
        (p.set.get c).byName? old = some y := by
  simp only [apply, DirectorySet.retire, Directory.retire] at ha
  cases ht : (p.set.get c).byName? target with
  | none => exact .inl rfl
  | some x =>
      cases ho : (p.set.get c).byName? old with
      | none =>
          rw [ht, ho] at ha
          cases ha
      | some y =>
          rw [ht, ho] at ha
          exact .inr ⟨y, (Except.error.inj ha).symm, rfl⟩

/-- An entry that a row with an id describes again has that id. -/
theorem sharesId_of_repeats {e : Entry} {y : PacketType}
    (hid : e.id ≠ unknownId ∨ e.legacyId ≠ unknownId)
    (h : (e.declaration c v).repeats y = true) : (Row.entry e).SharesId y := by
  have hknown : (e.declaration c v).key.isKnown = true ↔ e.id ≠ unknownId :=
    WireKey.isKnown_iff _
  unfold Declaration.repeats at h
  by_cases he : e.id = unknownId
  · have hlegacy : e.legacyId ≠ unknownId := hid.resolve_left fun hne => hne he
    have hdeclared : (e.declaration c v).legacyId ≠ unknownId := hlegacy
    rw [if_neg fun hk => hknown.mp hk he, if_pos hdeclared, Bool.and_eq_true] at h
    refine .inr ⟨he, hlegacy, ?_, beq_iff_eq.mp h.2⟩
    by_contra hy
    rw [(WireKey.isKnown_iff y.key).mpr hy] at h
    cases h.1
  · rw [if_pos (hknown.mpr he)] at h
    exact .inl ⟨he, beq_iff_eq.mp h⟩

/-- Why a row with an id is refused after the row of its target was accepted. -/
theorem Applied.refuses (h : p.Applied v s rows) (hs : p.set.Sound) {err : CatalogueError}
    (htarget : ∀ q ∈ r.renaming?, ∃ e, (c, .entry e) ∈ rows ∧ e.name = q.2)
    (hid : ∀ e ∈ r.declared?, e.id ≠ unknownId ∨ e.legacyId ≠ unknownId)
    (ha : p.apply k v c r = .error err) :
    ∃ y ∈ (p.set.get c).entries, err = .nameConflict c r.name y.name ∧
      (r.SharesId y ∨ (p.set.get c).byName? r.name = some y) := by
  cases r with
  | entry e =>
      obtain ⟨y, rfl, hy | hy⟩ := apply_entry_error ha
      · have hmem := Directory.mem_of_equivalent? hy
        rw [Directory.equivalent?_eq_find?] at hy
        exact ⟨y, hmem, rfl, .inl (sharesId_of_repeats (hid e rfl) (List.find?_some hy))⟩
      · exact ⟨y, (hs.each c).byName?_mem hy, rfl, .inr hy⟩
  | renamed old target =>
      rcases apply_renamed_error ha with hnone | ⟨y, rfl, hy⟩
      · obtain ⟨e, he, hname⟩ := htarget (old, target) rfl
        obtain ⟨x, _, _, hx⟩ := h.exists_entry hs he
        rw [hname, hnone] at hx
        cases hx
      · rw [hs.channel c]
        exact ⟨y, (hs.each c).byName?_mem hy, rfl, .inr hy⟩

end Progress

/-! ### The built-in tables -/

theorem grounded_of_mem_tables : ∀ t ∈ tables, Grounded t.rows := by
  have htake : ∀ t ∈ tables, ∀ i, (hi : i < t.rows.length) → ∀ q ∈ t.rows[i].2.renaming?,
      ∃ r ∈ t.rows.take i, r.1 = t.rows[i].1 ∧ ∃ e ∈ r.2.declared?, e.name = q.2 := by
    decide +kernel
  exact fun t ht => .of_take (htake t ht)

/-- Every packet type of a table has an id or a legacy id. -/
theorem known_of_mem_tables : ∀ t ∈ tables, ∀ r ∈ t.rows, ∀ e ∈ r.2.declared?,
    e.id ≠ unknownId ∨ e.legacyId ≠ unknownId := by
  decide +kernel

/-- A table that is registered without a refusal has all its rows applied. -/
theorem applied_tableFor {s : DirectorySet} (hs : s.Sound) {v : Version} {k : ℕ}
    (hall : ((tableFor v).enrol s k).2 = none) :
    ((tableFor v).enrol s k).1.set.Sound ∧
      ((tableFor v).enrol s k).1.Applied (tableFor v).version s (tableFor v).rows :=
  (Progress.applied_nil (tableFor v).version s).applyAll hs
    (grounded_of_mem_tables _ (tableFor_mem v)) hall

/-- **A table is registered in order, or up to a row that is there already.** Take the directories
after any adoptions and retirements, and register the table of a version in them. If no row is
refused, the number of adoptions is the number of packet types in the table, each directory has got
the packet types and the old names of its rows, in their order, and each old name leads to the entry
that the row of its target became. If a row is refused, the rows before it have been applied in the
same way and nothing else has, and an entry of its directory has the id of the row, or its name. -/
theorem enrols_in_order_or_stops {s : DirectorySet} (hs : DirectorySet.empty.Steps s) (v : Version)
    (k : ℕ) :
    let t := tableFor v
    let p := (t.enrol s k).1
    ((t.enrol s k).2 = none →
      p.adopted = t.packetCount ∧ p.Applied t.version s t.rows ∧
      ∀ c old target, (c, .renamed old target) ∈ t.rows → ∃ e x, (c, .entry e) ∈ t.rows ∧
        e.name = target ∧ x ∈ (p.set.get c).entries ∧ e.Became c t.version x ∧
        (p.set.get c).byName? old = some x) ∧
    ∀ err, (t.enrol s k).2 = some err →
      ∃ done c r rest, t.rows = done ++ (c, r) :: rest ∧ p.Applied t.version s done ∧
        ∃ y ∈ (p.set.get c).entries, err = .nameConflict c r.name y.name ∧
          (r.SharesId y ∨ (p.set.get c).byName? r.name = some y) := by
  intro t p
  have hsound : s.Sound := DirectorySet.sound_empty.steps hs
  have hg : Grounded t.rows := grounded_of_mem_tables _ (tableFor_mem v)
  constructor
  · intro hall
    obtain ⟨hp, happlied⟩ := applied_tableFor hsound hall
    exact ⟨happlied.adopted, happlied, fun c old target hr => happlied.byName?_renamed hp hr⟩
  · intro err hrefused
    obtain ⟨done, c, r, rest, hrows, hdone, herr⟩ := Progress.applyAll_stops hrefused
    have hid := known_of_mem_tables t (tableFor_mem v) (c, r) (by rw [hrows]; simp)
    rw [hrows] at hg
    obtain ⟨hp, happlied⟩ := (Progress.applied_nil t.version s).applyAll (k := k) hsound
      hg.of_append (congrArg Prod.snd hdone)
    rw [hdone] at hp happlied
    exact ⟨done, c, r, rest, hrows, happlied, happlied.refuses hp hg.target hid herr⟩

/-! ### An old name that is taken -/

/-- A packet type without ids whose symbolic name is an old name of the table. -/
def tally : PacketType :=
  (Declaration.named ⟨.play, .serverToClient⟩ "Tally").bind ⟨"STATISTICS", false, false⟩ 0

/-- The directories that adopted it. -/
def withTally : DirectorySet :=
  DirectorySet.empty.set tally.channel ((Directory.empty tally.channel).append tally)

theorem steps_withTally : DirectorySet.empty.Steps withTally := by
  have hadopt : DirectorySet.empty.adopt tally.channel tally.toDeclaration tally.toBinding 0 =
      .ok (.adopted tally, withTally) := rfl
  exact .single (.adopt hadopt)

theorem enrol_withTally : ((tableFor .villageUpdate).enrol withTally 1).2 =
    some (.nameConflict tally.channel "STATISTICS" "STATISTICS") := by
  decide +kernel

theorem row_of_name_statistics : ∀ r ∈ (tableFor .villageUpdate).rows, r.1 = tally.channel →
    r.2.name = "STATISTICS" → r.2 = .renamed "STATISTICS" "STATISTIC" := by
  decide +kernel

/-- The registration stops at the old name, with the rows before it applied. In empty directories it
goes on, and the old name leads to the packet type that has the new one. -/
theorem enrols_in_order_or_stops_tally : DirectorySet.empty.Steps withTally ∧
    ∃ done rest, (tableFor .villageUpdate).rows =
        done ++ (tally.channel, .renamed "STATISTICS" "STATISTIC") :: rest ∧
      ((tableFor .villageUpdate).enrol withTally 1).1.Applied (tableFor .villageUpdate).version
        withTally done ∧
      ∃ x, x.name = "STATISTIC" ∧
        (((tableFor .villageUpdate).enrol DirectorySet.empty 0).1.set.get tally.channel).byName?
          "STATISTICS" = some x := by
  obtain ⟨done, c, r, rest, hrows, happlied, y, _, herr, _⟩ :=
    (enrols_in_order_or_stops steps_withTally .villageUpdate 1).2 _ enrol_withTally
  obtain ⟨hchannel, hname, _⟩ := CatalogueError.nameConflict.inj herr
  have hr := row_of_name_statistics (c, r) (by rw [hrows]; simp) hchannel.symm hname.symm
  obtain rfl : r = _ := hr
  rw [← hchannel] at hrows
  have hrow : (tally.channel, .renamed "STATISTICS" "STATISTIC") ∈
      (tableFor .villageUpdate).rows := by
    rw [hrows]
    simp
  obtain ⟨_, _, hold⟩ :=
    (enrols_in_order_or_stops .refl .villageUpdate 0).1 (enrol_tableFor .villageUpdate)
  obtain ⟨e, x, _, htarget, _, hbecame, hx⟩ := hold _ _ _ hrow
  have hxname : x.name = "STATISTIC" := (congrArg Binding.name hbecame.2).trans htarget
  exact ⟨steps_withTally, done, rest, hrows, happlied, x, hxname, hx⟩

end BuiltIn

end WireCatalog
