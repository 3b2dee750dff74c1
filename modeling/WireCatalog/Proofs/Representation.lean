import WireCatalog.Proofs.Directory

/-! # What the name table of a directory stands for

A directory keeps its names as positions among its entries and its retired names. After any changes,
refused ones included, these positions are in range and no two of them have one name
(`Sound.slot_inj`), so that a look-up finds exactly what has the name (`Sound.byName?_eq_some_iff`).

`representation_of_changeAll` says in terms of the entries and the retired names alone what any
calls make of a directory. -/

namespace WireCatalog.Directory

variable {d : Directory} {n : String} {x : PacketType}

/-! ### Positions and names -/

namespace Sound

/-- Slots that stand under one name are the same slot. -/
theorem slot_inj (h : d.Sound) {s t : NameSlot} (hs : d.slotName? s = some n)
    (ht : d.slotName? t = some n) : s = t := by
  rw [← h.names] at hs ht
  exact Option.some.inj (hs.symm.trans ht)

/-- The name table holds no position past the end. -/
theorem entry_lt (h : d.Sound) {i : ℕ} (hn : d.names.get? n = some (.entry i)) :
    i < d.entries.length := by
  rw [h.names] at hn
  obtain ⟨y, hy, _⟩ := Option.map_eq_some_iff.mp hn
  exact (List.getElem?_eq_some_iff.mp hy).1

theorem retired_lt (h : d.Sound) {i : ℕ} (hn : d.names.get? n = some (.retired i)) :
    i < d.retired.length := by
  rw [h.names] at hn
  obtain ⟨r, hr, _⟩ := Option.map_eq_some_iff.mp hn
  exact (List.getElem?_eq_some_iff.mp hr).1

/-- Items that take up slots of their own have different names. -/
theorem nodup_map_slotName (h : d.Sound) {α : Type} {items : List α} {name : α → String}
    {slot : ℕ → NameSlot} (hinj : ∀ i j, slot i = slot j → i = j)
    (hslot : ∀ i, d.slotName? (slot i) = items[i]?.map name) : (items.map name).Nodup := by
  rw [List.Nodup, List.pairwise_map, List.pairwise_iff_getElem]
  intro i j hi hj hij he
  have hs : d.slotName? (slot i) = some (name items[j]) := by simp [hslot, hi, he]
  have ht : d.slotName? (slot j) = some (name items[j]) := by simp [hslot, hj]
  have := hinj i j (h.slot_inj hs ht)
  omega

/-- The names of the entries and the retired names are all different. -/
theorem nodup_names (h : d.Sound) :
    (d.entries.map (·.name) ++ d.retired.map (·.name)).Nodup := by
  rw [List.nodup_append]
  refine ⟨?_, ?_, ?_⟩
  · exact h.nodup_map_slotName (fun i j => NameSlot.entry.inj) fun i => rfl
  · exact h.nodup_map_slotName (fun i j => NameSlot.retired.inj) fun i => rfl
  · intro a ha b hb
    obtain ⟨y, hy, rfl⟩ := List.mem_map.mp ha
    obtain ⟨r, hr, rfl⟩ := List.mem_map.mp hb
    exact h.name_ne_retired hy hr

/-- A look-up finds the entry that has the name and the target of the retired name. -/
theorem byName?_eq_some_iff (h : d.Sound) :
    d.byName? n = some x ↔ (x ∈ d.entries ∧ x.name = n) ∨ ⟨n, x⟩ ∈ d.retired := by
  constructor
  · intro hx
    obtain ⟨s, hs, hat⟩ := Option.bind_eq_some_iff.mp hx
    rw [h.names] at hs
    cases s with
    | entry i =>
        have hi : d.entries[i]? = some x := hat
        have hname : x.name = n := by simpa [slotName?, hi] using hs
        exact .inl ⟨List.mem_of_getElem? hi, hname⟩
    | retired i =>
        obtain ⟨r, hi, rfl⟩ := Option.map_eq_some_iff.mp hat
        have hname : r.name = n := by simpa [slotName?, hi] using hs
        subst hname
        exact .inr (List.mem_of_getElem? hi)
  · rintro (⟨hx, rfl⟩ | hr)
    · obtain ⟨i, hi⟩ := List.mem_iff_getElem?.mp hx
      simp [byName?, h.get?_entry hi, atSlot?, hi]
    · obtain ⟨i, hi⟩ := List.mem_iff_getElem?.mp hr
      simp [byName?, h.get?_retired hi, atSlot?, hi]

theorem isDeprecatedName_iff (h : d.Sound) :
    d.isDeprecatedName n = true ↔
      (∃ r ∈ d.retired, r.name = n) ∨ ∃ y ∈ d.entries, y.name = n ∧ y.isDeprecated = true := by
  constructor
  · intro hn
    unfold isDeprecatedName at hn
    split at hn
    · next i hs =>
      rw [h.names] at hs
      obtain ⟨r, hr, hname⟩ := Option.map_eq_some_iff.mp hs
      exact .inl ⟨r, List.mem_of_getElem? hr, hname⟩
    · next i hs =>
      rw [h.names] at hs
      obtain ⟨y, hy, hname⟩ := Option.map_eq_some_iff.mp hs
      rw [hy, Option.any_some] at hn
      exact .inr ⟨y, List.mem_of_getElem? hy, hname, hn⟩
    · cases hn
  · rintro (⟨r, hr, rfl⟩ | ⟨y, hy, rfl, hdeprecated⟩)
    · obtain ⟨i, hi⟩ := List.mem_iff_getElem?.mp hr
      simp [isDeprecatedName, h.get?_retired hi]
    · obtain ⟨i, hi⟩ := List.mem_iff_getElem?.mp hy
      simp [isDeprecatedName, h.get?_entry hi, hi, hdeprecated]

end Sound

/-! ### Entries and their ids -/

/-- No known id is given twice. -/
theorem Sound.pairwise_id (h : d.Sound) :
    d.entries.Pairwise fun y z => y.key.isKnown = true → y.key.id ≠ z.key.id := by
  refine h.distinct.imp fun {y z} hz hy he => ?_
  have hk : z.key.isKnown = true := by
    rw [WireKey.isKnown_iff] at hy ⊢
    rwa [← he]
  simp [Declaration.repeats, hk, he] at hz

/-- No known legacy id is given twice to entries without an id. -/
theorem Sound.pairwise_legacyId (h : d.Sound) :
    d.entries.Pairwise fun y z => y.key.isKnown = false → z.key.isKnown = false →
      y.legacyId ≠ unknownId → y.legacyId ≠ z.legacyId := by
  refine h.distinct.imp fun {y z} hrepeats hy hz hl he => ?_
  have hl' : z.legacyId ≠ unknownId := he ▸ hl
  simp [Declaration.repeats, hy, hz, he, hl'] at hrepeats

/-! ### Any changes -/

/-- A change that is asked of a directory. -/
inductive Change
  | adopt (decl : Declaration) (b : Binding) (serial : ℕ)
  | retire (old target : String)

/-- The directory after a change. One that is refused leaves it as it is, and so does the adoption
of a declaration of another channel. -/
def change (d : Directory) : Change → Directory
  | .adopt decl b k =>
    match d.adopt decl b k with
    | .ok (_, d') => d'
    | .error _ => d
  | .retire old target =>
    match d.retire old target with
    | .ok (_, d') => d'
    | .error _ => d

/-- The directory after changes, one after another. -/
def changeAll (d : Directory) (changes : List Change) : Directory := changes.foldl change d

/-- A declaration of the channel is adopted or refused as `enter` has it. -/
theorem adopt_of_channel {decl : Declaration} (hc : decl.channel = d.channel) (b : Binding)
    (k : ℕ) : d.adopt decl b k = .ok (d.enter decl b k) := by
  rw [adopt, if_pos hc]

theorem change_of_channel {decl : Declaration} (hc : decl.channel = d.channel) (b : Binding)
    (k : ℕ) : d.change (.adopt decl b k) = (d.enter decl b k).2 := by
  rw [change, adopt_of_channel hc]

theorem change_of_foreign {decl : Declaration} (hc : decl.channel ≠ d.channel) (b : Binding)
    (k : ℕ) : d.change (.adopt decl b k) = d := by
  rw [change, adopt, if_neg hc]

theorem change_of_retire_ok {old target : String} {d' : Directory}
    (h : d.retire old target = .ok (x, d')) : d.change (.retire old target) = d' := by
  rw [change, h]

theorem change_of_retire_error {old target : String} {e : CatalogueError}
    (h : d.retire old target = .error e) : d.change (.retire old target) = d := by
  rw [change, h]

theorem channel_change (d : Directory) (ch : Change) : (d.change ch).channel = d.channel := by
  cases ch with
  | adopt decl b k =>
      by_cases hc : decl.channel = d.channel
      · rw [change_of_channel hc, channel_enter]
      · rw [change_of_foreign hc]
  | retire old target =>
      cases hr : d.retire old target with
      | error e => rw [change_of_retire_error hr]
      | ok p =>
          obtain ⟨x, d'⟩ := p
          rw [change_of_retire_ok hr]
          obtain ⟨_, _, rfl⟩ := retire_ok hr
          rfl

theorem Sound.change (h : d.Sound) (ch : Change) : (d.change ch).Sound := by
  cases ch with
  | adopt decl b k =>
      by_cases hc : decl.channel = d.channel
      · rw [change_of_channel hc]
        exact h.enter hc b k
      · rw [change_of_foreign hc]
        exact h
  | retire old target =>
      cases hr : d.retire old target with
      | error e =>
          rw [change_of_retire_error hr]
          exact h
      | ok p =>
          rw [change_of_retire_ok hr]
          exact h.retire hr

theorem channel_changeAll (d : Directory) (changes : List Change) :
    (d.changeAll changes).channel = d.channel := by
  induction changes generalizing d with
  | nil => rfl
  | cons ch changes ih => exact (ih (d.change ch)).trans (d.channel_change ch)

theorem Sound.changeAll (h : d.Sound) (changes : List Change) : (d.changeAll changes).Sound := by
  induction changes generalizing d with
  | nil => exact h
  | cons ch changes ih => exact ih (h.change ch)

/-- What any changes make of an empty directory. Its entries belong to its channel, and no known id
and, among those without one, no known legacy id is given twice. No name is given twice either, and
a name leads to exactly what has it: an entry, or the entry that it was retired for. The positions
in the name table are in range, and deprecated are the retired names and the names of deprecated
entries. -/
theorem representation_of_changeAll (c : Channel) (changes : List Change) :
    let d := (empty c).changeAll changes
    (d.channel = c ∧ ∀ x ∈ d.entries, x.channel = c) ∧
    d.entries.Pairwise (fun x y => x.key.isKnown = true → x.key.id ≠ y.key.id) ∧
    d.entries.Pairwise (fun x y => x.key.isKnown = false → y.key.isKnown = false →
      x.legacyId ≠ unknownId → x.legacyId ≠ y.legacyId) ∧
    (d.entries.map (·.name) ++ d.retired.map (·.name)).Nodup ∧
    (∀ n x, d.byName? n = some x ↔ (x ∈ d.entries ∧ x.name = n) ∨ ⟨n, x⟩ ∈ d.retired) ∧
    (∀ r ∈ d.retired, r.target ∈ d.entries) ∧
    (∀ n, d.isDeprecatedName n = true ↔
      (∃ r ∈ d.retired, r.name = n) ∨ ∃ x ∈ d.entries, x.name = n ∧ x.isDeprecated = true) ∧
    (∀ n i, d.names.get? n = some (.entry i) → i < d.entries.length) ∧
    ∀ n i, d.names.get? n = some (.retired i) → i < d.retired.length := by
  intro d
  have h : d.Sound := (sound_empty c).changeAll changes
  have hc : d.channel = c := channel_changeAll _ changes
  refine ⟨⟨hc, fun x hx => (h.channel x hx).trans hc⟩, h.pairwise_id, h.pairwise_legacyId,
    h.nodup_names, fun n x => h.byName?_eq_some_iff, h.targets, fun n => h.isDeprecatedName_iff,
    fun n i => h.entry_lt, fun n i => h.retired_lt⟩

end WireCatalog.Directory
