import WireCatalog.Directory.Basic
import Mathlib.Data.List.Nodup
import Mathlib.Logic.Relation

/-! # Directories under adoption and retirement

A directory that is filled by adoptions and retirements alone is `Sound`: its entries belong to its
channel, no entry is declared again by a later one, the name table is the inverse of the map from
slots to names, and every retired name stands for an entry.

* `Declaration.repeats` is the relation behind `equivalent?`, which finds the first entry that a
  declaration repeats (`equivalent?_eq_find?`).
* `enter_cases` lists all that an adoption can do; `Sound.enter` and `Sound.retire` keep soundness.
* `DirectorySet.Sound` says the same of the ten directories, and `enumerate_apart` that their packet
  types are pairwise distinct, in every known wire key as well. `Sound.steps` is the case of any
  adoptions and retirements (`DirectorySet.Steps`). -/

namespace WireCatalog

/-- Whether an entry is what a declaration describes again: by the id if that is known, or else by
the legacy id if that is known, or else by the canonical name. -/
def Declaration.repeats (decl : Declaration) (x : PacketType) : Bool :=
  if decl.key.isKnown then x.key.id == decl.key.id
  else if decl.legacyId ≠ unknownId then !x.key.isKnown && x.legacyId == decl.legacyId
  else !x.key.isKnown && x.legacyId == unknownId && x.hasAlias decl.canonical

theorem WireKey.isKnown_iff (k : WireKey) : k.isKnown = true ↔ k.id ≠ unknownId := by
  simp [WireKey.isKnown]

theorem WireKey.eq_iff {k l : WireKey} : k = l ↔ k.channel = l.channel ∧ k.id = l.id := by
  cases k
  cases l
  rw [WireKey.mk.injEq]

/-- Packet types that are not the same object and do not share a known wire key. -/
def PacketType.Apart (x y : PacketType) : Prop :=
  x ≠ y ∧ (y.key.isKnown = true → x.key ≠ y.key)

theorem Declaration.channel_bind (decl : Declaration) (b : Binding) (k : ℕ) :
    (decl.bind b k).channel = decl.channel := rfl

/-- A declaration repeats the packet type that it becomes. -/
theorem Declaration.repeats_bind (d : Declaration) (b : Binding) (k : ℕ) :
    d.repeats (d.bind b k) = true := by
  unfold repeats
  by_cases hk : d.key.isKnown = true
  · simp [hk, bind]
  · by_cases hl : d.legacyId = unknownId
    · simp [hk, hl, bind, PacketType.hasAlias, aliases]
    · simp [hk, hl, bind]

namespace Directory

variable {d : Directory} {decl : Declaration} {x : PacketType}

theorem equivalent?_eq_find? (d : Directory) (decl : Declaration) :
    d.equivalent? decl = d.entries.find? decl.repeats := by
  unfold equivalent? byId? Declaration.repeats
  by_cases hk : decl.key.isKnown = true
  · simp [hk, (WireKey.isKnown_iff _).mp hk]
  · by_cases hl : decl.legacyId = unknownId <;> simp [hk, hl]

theorem repeats_eq_false_of_equivalent? (h : d.equivalent? decl = none) :
    ∀ y ∈ d.entries, decl.repeats y = false := by
  rw [equivalent?_eq_find?, List.find?_eq_none] at h
  intro y hy
  simpa using h y hy

theorem mem_of_equivalent? (h : d.equivalent? decl = some x) : x ∈ d.entries := by
  rw [equivalent?_eq_find?] at h
  exact List.mem_of_find?_eq_some h

/-- Entries that come later do not matter for a declaration that has its entry. -/
theorem equivalent?_mono {d' : Directory} (h : d.entries <+: d'.entries)
    (hx : d.equivalent? decl = some x) : d'.equivalent? decl = some x := by
  obtain ⟨new, hnew⟩ := h
  rw [equivalent?_eq_find?] at hx ⊢
  rw [← hnew, List.find?_append, hx, Option.some_or]

/-- Where a declaration repeats no entry, the packet type that it becomes is the first that it
repeats. -/
theorem equivalent?_append_bind (h : d.equivalent? decl = none) (b : Binding) (k : ℕ) :
    (d.append (decl.bind b k)).equivalent? decl = some (decl.bind b k) := by
  rw [equivalent?_eq_find?] at h ⊢
  rw [append, List.find?_append, h, Option.none_or, List.find?_singleton,
    if_pos (decl.repeats_bind b k)]

/-- The name that a slot stands under. -/
def slotName? (d : Directory) : NameSlot → Option String
  | .entry i => d.entries[i]?.map (·.name)
  | .retired i => d.retired[i]?.map (·.name)

/-- What adoptions and retirements keep true of a directory. -/
structure Sound (d : Directory) : Prop where
  channel : ∀ x ∈ d.entries, x.channel = d.channel
  distinct : d.entries.Pairwise fun x y => y.repeats x = false
  names : ∀ n s, d.names.get? n = some s ↔ d.slotName? s = some n
  targets : ∀ r ∈ d.retired, r.target ∈ d.entries

theorem sound_empty (c : Channel) : (empty c).Sound where
  channel := by simp [empty]
  distinct := List.Pairwise.nil
  names n s := by cases s <;> simp [empty, slotName?, Assoc.get?]
  targets := by simp [empty]

namespace Sound

theorem atSlot?_isSome (h : d.Sound) {n : String} {s : NameSlot} (hs : d.names.get? n = some s) :
    (d.atSlot? s).isSome := by
  rw [h.names] at hs
  cases s with
  | entry i =>
      obtain ⟨y, hy, _⟩ := Option.map_eq_some_iff.mp hs
      simp [atSlot?, hy]
  | retired i =>
      obtain ⟨r, hr, _⟩ := Option.map_eq_some_iff.mp hs
      simp [atSlot?, hr]

theorem get?_names_of_byName? (h : d.Sound) {n : String} (hn : d.byName? n = none) :
    d.names.get? n = none := by
  cases hs : d.names.get? n with
  | none => rfl
  | some s =>
      have hsome := h.atSlot?_isSome hs
      rw [byName?, hs, Option.bind_some] at hn
      rw [hn] at hsome
      cases hsome

theorem get?_entry (h : d.Sound) {i : ℕ} {y : PacketType} (hi : d.entries[i]? = some y) :
    d.names.get? y.name = some (.entry i) :=
  (h.names _ _).mpr (by simp [slotName?, hi])

theorem get?_retired (h : d.Sound) {i : ℕ} {r : RetiredName} (hi : d.retired[i]? = some r) :
    d.names.get? r.name = some (.retired i) :=
  (h.names _ _).mpr (by simp [slotName?, hi])

/-- An unbound name is the name of no entry. -/
theorem name_ne (h : d.Sound) {n : String} (hn : d.names.get? n = none) :
    ∀ y ∈ d.entries, y.name ≠ n := by
  rintro y hy rfl
  obtain ⟨i, hi⟩ := List.mem_iff_getElem?.mp hy
  rw [h.get?_entry hi] at hn
  cases hn

/-- A name that neither an entry nor a retired name has is unbound. -/
theorem byName?_eq_none (h : d.Sound) {n : String} (he : ∀ y ∈ d.entries, y.name ≠ n)
    (hr : ∀ r ∈ d.retired, r.name ≠ n) : d.byName? n = none := by
  have hn : d.names.get? n = none := by
    cases hs : d.names.get? n with
    | none => rfl
    | some s =>
        have hslot := (h.names n s).mp hs
        cases s with
        | entry i =>
            obtain ⟨y, hy, hname⟩ := Option.map_eq_some_iff.mp hslot
            exact absurd hname (he y (List.mem_of_getElem? hy))
        | retired i =>
            obtain ⟨r, hi, hname⟩ := Option.map_eq_some_iff.mp hslot
            exact absurd hname (hr r (List.mem_of_getElem? hi))
  rw [byName?, hn, Option.bind_none]

/-- An unbound name is no retired name. -/
theorem retired_ne (h : d.Sound) {n : String} (hn : d.names.get? n = none) :
    ∀ r ∈ d.retired, r.name ≠ n := by
  rintro r hr rfl
  obtain ⟨i, hi⟩ := List.mem_iff_getElem?.mp hr
  rw [h.get?_retired hi] at hn
  cases hn

/-- No entry has the name of a retired one. -/
theorem name_ne_retired (h : d.Sound) {y : PacketType} (hy : y ∈ d.entries) {r : RetiredName}
    (hr : r ∈ d.retired) : y.name ≠ r.name := by
  intro he
  obtain ⟨i, hi⟩ := List.mem_iff_getElem?.mp hy
  obtain ⟨j, hj⟩ := List.mem_iff_getElem?.mp hr
  have hs := h.get?_entry hi
  rw [he, h.get?_retired hj] at hs
  cases hs

theorem retired_inj (h : d.Sound) {r r' : RetiredName} (hr : r ∈ d.retired) (hr' : r' ∈ d.retired)
    (he : r.name = r'.name) : r = r' := by
  obtain ⟨i, hi⟩ := List.mem_iff_getElem?.mp hr
  obtain ⟨j, hj⟩ := List.mem_iff_getElem?.mp hr'
  have hs := h.get?_retired hi
  rw [he, h.get?_retired hj, Option.some.injEq, NameSlot.retired.injEq] at hs
  rw [← hs, hj] at hi
  exact (Option.some.inj hi).symm

/-- The entries of a directory are pairwise apart. The names tell them apart as objects. -/
theorem entries_apart (h : d.Sound) : d.entries.Pairwise PacketType.Apart := by
  rw [List.pairwise_iff_getElem]
  intro i j hi hj hij
  refine ⟨?_, ?_⟩
  · intro he
    have hs := h.get?_entry (List.getElem?_eq_getElem hi)
    rw [he, h.get?_entry (List.getElem?_eq_getElem hj), Option.some.injEq,
      NameSlot.entry.injEq] at hs
    omega
  · intro hk he
    have hr := (List.pairwise_iff_getElem.mp h.distinct) i j hi hj hij
    simp only [Declaration.repeats, hk, if_true, beq_eq_false_iff_ne] at hr
    exact hr (congrArg WireKey.id he)

end Sound

/-! ### Adding a slot -/

theorem map_getElem?_concat {α β : Type} (l : List α) (a : α) (f : α → β) (i : ℕ) (b : β) :
    (l ++ [a])[i]?.map f = some b ↔ l[i]?.map f = some b ∨ (i = l.length ∧ f a = b) := by
  rcases Nat.lt_trichotomy i l.length with hi | rfl | hi
  · rw [List.getElem?_append_left hi]
    have : i ≠ l.length := by omega
    simp [this]
  · simp
  · rw [List.getElem?_eq_none (by simp; omega), List.getElem?_eq_none (by omega)]
    have : i ≠ l.length := by omega
    simp [this]

/-- Binding an unbound name to a new slot keeps the name table the inverse of the map from slots to
names. -/
theorem get?_names_cons {t : Assoc String NameSlot} {f g : NameSlot → Option String} {m : String}
    {s₀ : NameSlot} (h : ∀ n s, t.get? n = some s ↔ f s = some n) (hm : t.get? m = none)
    (hg : ∀ n s, g s = some n ↔ f s = some n ∨ (s = s₀ ∧ m = n)) (n : String) (s : NameSlot) :
    Assoc.get? ((m, s₀) :: t) n = some s ↔ g s = some n := by
  rw [hg, ← h, Assoc.get?_cons]
  by_cases he : n = m
  · subst he
    simp [hm, eq_comm]
  · simp [he, Ne.symm he]

/-! ### Adoption -/

/-- All that an adoption can do. -/
theorem enter_cases (d : Directory) (decl : Declaration) (b : Binding) (k : Nat) :
    (∃ y, d.equivalent? decl = some y ∧ d.enter decl b k = (.present y, d)) ∨
    (∃ y, d.equivalent? decl = none ∧ d.byName? b.name = some y ∧
      d.enter decl b k = (.nameTaken b.name y, d)) ∨
    (d.equivalent? decl = none ∧ d.byName? b.name = none ∧
      d.enter decl b k = (.adopted (decl.bind b k), d.append (decl.bind b k))) := by
  unfold enter
  cases he : d.equivalent? decl with
  | some y => exact .inl ⟨y, rfl, rfl⟩
  | none =>
      cases hn : d.byName? b.name with
      | some y => exact .inr (.inl ⟨y, rfl, rfl, rfl⟩)
      | none => exact .inr (.inr ⟨rfl, rfl, rfl⟩)

theorem channel_enter (d : Directory) (decl : Declaration) (b : Binding) (k : ℕ) :
    (d.enter decl b k).2.channel = d.channel := by
  rcases d.enter_cases decl b k with ⟨_, _, he⟩ | ⟨_, _, _, he⟩ | ⟨_, _, he⟩ <;> rw [he]
  rfl

theorem slotName?_append (d : Directory) (x : PacketType) (n : String) (s : NameSlot) :
    (d.append x).slotName? s = some n ↔
      d.slotName? s = some n ∨ (s = .entry d.entries.length ∧ x.name = n) := by
  cases s with
  | entry i => simpa [slotName?, append] using map_getElem?_concat d.entries x (·.name) i n
  | retired i => simp [slotName?, append]

theorem byName?_append_self (d : Directory) (x : PacketType) :
    (d.append x).byName? x.name = some x := by
  simp [byName?, append, atSlot?]

/-- A packet type that repeats no entry and has an unbound name can be added. -/
theorem Sound.append (h : d.Sound) (hc : x.channel = d.channel)
    (hx : ∀ y ∈ d.entries, x.repeats y = false) (hn : d.names.get? x.name = none) :
    (d.append x).Sound where
  channel := by
    intro y hy
    rcases List.mem_append.mp hy with hy | hy
    · exact h.channel y hy
    · rw [List.mem_singleton.mp hy]
      exact hc
  distinct := by
    refine List.pairwise_append.mpr ⟨h.distinct, List.pairwise_singleton _ _, ?_⟩
    intro y hy z hz
    rw [List.mem_singleton.mp hz]
    exact hx y hy
  names := get?_names_cons h.names hn (d.slotName?_append x)
  targets r hr := List.mem_append_left _ (h.targets r hr)

theorem Sound.enter (h : d.Sound) (hc : decl.channel = d.channel) (b : Binding) (k : Nat) :
    (d.enter decl b k).2.Sound := by
  rcases d.enter_cases decl b k with ⟨y, _, he⟩ | ⟨y, _, _, he⟩ | ⟨heq, hn, he⟩
  · rw [he]; exact h
  · rw [he]; exact h
  · rw [he]
    exact h.append hc (repeats_eq_false_of_equivalent? heq) (h.get?_names_of_byName? hn)

/-! ### Retirement -/

theorem retire_ok {old target : String} {d' : Directory}
    (hr : d.retire old target = .ok (x, d')) :
    d.byName? target = some x ∧ d.byName? old = none ∧ d' = d.appendRetired old x := by
  unfold retire at hr
  cases ht : d.byName? target with
  | none => simp [ht] at hr
  | some y =>
      cases ho : d.byName? old with
      | some z => simp [ht, ho] at hr
      | none =>
          simp only [ht, ho, Except.ok.injEq, Prod.mk.injEq] at hr
          obtain ⟨rfl, rfl⟩ := hr
          exact ⟨rfl, rfl, rfl⟩

/-- A name stands for an entry, also where it is a retired one. -/
theorem Sound.byName?_mem (h : d.Sound) {n : String} (hn : d.byName? n = some x) :
    x ∈ d.entries := by
  obtain ⟨s, _, hs⟩ := Option.bind_eq_some_iff.mp hn
  cases s with
  | entry i => exact List.mem_of_getElem? hs
  | retired i =>
      obtain ⟨r, hr, rfl⟩ := Option.map_eq_some_iff.mp hs
      exact h.targets r (List.mem_of_getElem? hr)

theorem slotName?_appendRetired (d : Directory) (old : String) (x : PacketType) (n : String)
    (s : NameSlot) :
    (d.appendRetired old x).slotName? s = some n ↔
      d.slotName? s = some n ∨ (s = .retired d.retired.length ∧ old = n) := by
  cases s with
  | entry i => simp [slotName?, appendRetired]
  | retired i =>
      simpa [slotName?, appendRetired] using
        map_getElem?_concat d.retired ⟨old, x⟩ (·.name) i n

theorem Sound.retire (h : d.Sound) {old target : String} {d' : Directory}
    (hr : d.retire old target = .ok (x, d')) : d'.Sound := by
  obtain ⟨ht, ho, rfl⟩ := retire_ok hr
  have hn := h.get?_names_of_byName? ho
  refine ⟨h.channel, h.distinct, get?_names_cons h.names hn (d.slotName?_appendRetired old x), ?_⟩
  intro r hr
  rcases List.mem_append.mp hr with hr | hr
  · exact h.targets r hr
  · rw [List.mem_singleton.mp hr]
    exact h.byName?_mem ht

end Directory

/-! ### The ten directories -/

theorem Channel.nodup_all : Channel.all.Nodup := by decide

/-- Of lists that are empty for every channel but one, only that one counts. -/
theorem Channel.flatMap_all {α : Type} {f : Channel → List α} {c : Channel}
    (h : ∀ c' ≠ c, f c' = []) : all.flatMap f = f c := by
  obtain ⟨l, r, hlr⟩ := List.append_of_mem c.mem_all
  have hnd := nodup_all
  rw [hlr, List.nodup_middle, List.nodup_cons, List.mem_append, not_or] at hnd
  have hl : l.flatMap f = [] := by
    rw [List.flatMap_eq_nil_iff]
    exact fun c' hc' => h c' fun he => hnd.1.1 (he ▸ hc')
  have hr : r.flatMap f = [] := by
    rw [List.flatMap_eq_nil_iff]
    exact fun c' hc' => h c' fun he => hnd.1.2 (he ▸ hc')
  rw [hlr, List.flatMap_append, List.flatMap_cons, hl, hr, List.nil_append, List.append_nil]

/-- What holds of the values of a table holds of them all if one is replaced by another such. -/
theorem PerChannel.forall_set {α : Type} {t : PerChannel α} {P : Channel → α → Prop}
    (h : ∀ c, P c (t.get c)) {c : Channel} {a : α} (ha : P c a) (c' : Channel) :
    P c' ((t.set c a).get c') := by
  by_cases hc : c = c'
  · subst hc
    rw [get_set_self]
    exact ha
  · rw [get_set_of_ne _ _ hc]
    exact h c'

namespace DirectorySet

variable {s : DirectorySet}

/-- What adoptions and retirements keep true of the ten directories. -/
structure Sound (s : DirectorySet) : Prop where
  each : ∀ c, (s.get c).Sound
  channel : ∀ c, (s.get c).channel = c

theorem sound_empty : empty.Sound where
  each c := by
    rw [empty, PerChannel.get_tabulate]
    exact Directory.sound_empty c
  channel c := by
    rw [empty, PerChannel.get_tabulate]
    rfl

theorem Sound.set (h : s.Sound) {d : Directory} {c : Channel} (hd : d.Sound) (hc : d.channel = c) :
    Sound (PerChannel.set s c d) where
  each := PerChannel.forall_set (P := fun _ d => Directory.Sound d) h.each hd
  channel := PerChannel.forall_set (P := fun c d => Directory.channel d = c) h.channel hc

theorem Sound.channel_of_mem (h : s.Sound) {c : Channel} {x : PacketType}
    (hx : x ∈ (s.get c).entries) : x.channel = c :=
  ((h.each c).channel x hx).trans (h.channel c)

theorem enumerate_true (s : DirectorySet) :
    s.enumerate true = Channel.all.flatMap fun c => (s.get c).entries := by
  simp [enumerate, included, PerChannel.toList, List.flatMap_map]

theorem mem_enumerate {x : PacketType} :
    x ∈ s.enumerate true ↔ ∃ c, x ∈ (s.get c).entries := by
  simp [enumerate_true, Channel.mem_all]

theorem Sound.mem_enumerate_iff (h : s.Sound) {x : PacketType} :
    x ∈ s.enumerate true ↔ x ∈ (s.get x.channel).entries := by
  rw [mem_enumerate]
  constructor
  · rintro ⟨c, hx⟩
    rw [h.channel_of_mem hx]
    exact hx
  · exact fun hx => ⟨_, hx⟩

/-- The packet types of a channel, in order of enumeration, are the entries of its directory. -/
theorem Sound.filter_enumerate (h : s.Sound) (c : Channel) :
    (s.enumerate true).filter (·.channel == c) = (s.get c).entries := by
  rw [enumerate_true, List.filter_flatMap, Channel.flatMap_all (c := c)]
  · exact List.filter_eq_self.mpr fun x hx => beq_iff_eq.mpr (h.channel_of_mem hx)
  · intro c' hc'
    refine List.filter_eq_nil_iff.mpr fun x hx he => hc' ?_
    rw [← h.channel_of_mem hx]
    exact beq_iff_eq.mp he

theorem Sound.enumerate_apart (h : s.Sound) : (s.enumerate true).Pairwise PacketType.Apart := by
  rw [enumerate_true, List.pairwise_flatMap]
  refine ⟨fun c _ => (h.each c).entries_apart, Channel.nodup_all.imp ?_⟩
  intro c c' hne x hx y hy
  have hxy : x.channel ≠ y.channel := by
    rw [h.channel_of_mem hx, h.channel_of_mem hy]
    exact hne
  exact ⟨fun he => hxy (congrArg (fun z : PacketType => z.channel) he),
    fun _ he => hxy (congrArg WireKey.channel he)⟩

theorem Sound.nodup_enumerate (h : s.Sound) : (s.enumerate true).Nodup :=
  h.enumerate_apart.imp And.left

/-- Without the legacy phase, the others are enumerated as they are with it. -/
theorem Sound.enumerate_false (h : s.Sound) :
    s.enumerate false = (s.enumerate true).filter fun x => !x.channel.phase.isLegacy := by
  have hentries : ∀ c, (s.get c).entries.filter (fun x => !x.channel.phase.isLegacy) =
      if c.phase.isLegacy then [] else (s.get c).entries := by
    intro c
    split
    · rename_i hc
      exact List.filter_eq_nil_iff.mpr fun x hx => by simp [h.channel_of_mem hx, hc]
    · rename_i hc
      exact List.filter_eq_self.mpr fun x hx => by simp [h.channel_of_mem hx, hc]
  rw [enumerate_true, List.filter_flatMap, enumerate, included, PerChannel.toList]
  generalize Channel.all = cs
  induction cs with
  | nil => rfl
  | cons c cs ih =>
      rw [List.map_cons, List.flatMap_cons, hentries, ← ih]
      cases hc : c.phase.isLegacy <;> simp [h.channel, hc]

/-! ### What changes make of the entries -/

section

variable {s' : DirectorySet} {x : PacketType}

theorem entries_retire {c : Channel} {old target : String}
    (hr : s.retire c old target = .ok (x, s')) (c' : Channel) :
    (s'.get c').entries = (s.get c').entries := by
  unfold retire at hr
  cases hd : (s.get c).retire old target with
  | error e =>
      rw [hd] at hr
      cases hr
  | ok p =>
      obtain ⟨y, d⟩ := p
      rw [hd] at hr
      cases hr
      obtain ⟨_, _, rfl⟩ := Directory.retire_ok hd
      by_cases hc : c = c'
      · rw [← hc, PerChannel.get_set_self]
        rfl
      · rw [PerChannel.get_set_of_ne _ _ hc]

theorem entries_set_append (s : DirectorySet) {x : PacketType} {c : Channel} (hx : x.channel = c)
    (c' : Channel) :
    ((PerChannel.set s c ((s.get c).append x)).get c').entries =
      (s.get c').entries ++ if x.channel = c' then [x] else [] := by
  subst hx
  by_cases hc : x.channel = c'
  · rw [if_pos hc, ← hc, PerChannel.get_set_self]
    rfl
  · rw [if_neg hc, PerChannel.get_set_of_ne _ _ hc, List.append_nil]

theorem entries_enter {decl : Declaration} {b : Binding} {k : ℕ}
    (he : s.enter decl b k = (.adopted x, s')) (c' : Channel) :
    x = decl.bind b k ∧
      (s'.get c').entries = (s.get c').entries ++ if x.channel = c' then [x] else [] := by
  unfold enter at he
  rcases (s.get decl.channel).enter_cases decl b k with
    ⟨_, _, hd⟩ | ⟨_, _, _, hd⟩ | ⟨_, _, hd⟩
  · rw [hd] at he
    cases he
  · rw [hd] at he
    cases he
  · rw [hd] at he
    cases he
    exact ⟨rfl, s.entries_set_append (decl.channel_bind b k) c'⟩

end

/-! ### Any adoptions and retirements -/

/-- One adoption or retirement in one of the directories. -/
inductive Step (s : DirectorySet) : DirectorySet → Prop
  | adopt {c : Channel} {decl : Declaration} {b : Binding} {k : ℕ} {outcome : Adoption}
      {s' : DirectorySet} (h : s.adopt c decl b k = .ok (outcome, s')) : Step s s'
  | retire {c : Channel} {old target : String} {x : PacketType} {s' : DirectorySet}
      (h : s.retire c old target = .ok (x, s')) : Step s s'

/-- Any number of adoptions and retirements. -/
abbrev Steps : DirectorySet → DirectorySet → Prop := Relation.ReflTransGen Step

variable {s' : DirectorySet}

/-- What an adoption that is not refused does to the directories. -/
theorem adopt_ok {c : Channel} {decl : Declaration} {b : Binding} {k : ℕ} {outcome : Adoption}
    (h : s.adopt c decl b k = .ok (outcome, s')) :
    decl.channel = (s.get c).channel ∧ ((s.get c).enter decl b k).1 = outcome ∧
      s' = s.set c ((s.get c).enter decl b k).2 := by
  unfold adopt Directory.adopt at h
  split at h
  · rename_i hc
    obtain ⟨rfl, rfl⟩ := Prod.mk.inj (Except.ok.inj h)
    exact ⟨hc, rfl, rfl⟩
  · cases h

/-- What a retirement that is not refused does to the directories. -/
theorem retire_ok {c : Channel} {old target : String} {x : PacketType}
    (h : s.retire c old target = .ok (x, s')) :
    ∃ d, (s.get c).retire old target = .ok (x, d) ∧ s' = s.set c d := by
  unfold retire at h
  cases hr : (s.get c).retire old target with
  | error e =>
      rw [hr] at h
      cases h
  | ok p =>
      obtain ⟨y, d⟩ := p
      rw [hr] at h
      obtain ⟨rfl, rfl⟩ := Prod.mk.inj (Except.ok.inj h)
      exact ⟨d, rfl, rfl⟩

theorem Sound.step (h : s.Sound) (hs : s.Step s') : s'.Sound := by
  cases hs with
  | @adopt c decl b k outcome _ ha =>
      obtain ⟨hc, _, rfl⟩ := adopt_ok ha
      exact h.set ((h.each c).enter hc b k) ((Directory.channel_enter _ _ _ _).trans (h.channel c))
  | @retire c old target x _ hr =>
      obtain ⟨d, hd, rfl⟩ := retire_ok hr
      refine h.set ((h.each c).retire hd) ?_
      obtain ⟨_, _, rfl⟩ := Directory.retire_ok hd
      exact h.channel c

theorem Sound.steps (h : s.Sound) (hs : s.Steps s') : s'.Sound := by
  induction hs with
  | refl => exact h
  | tail _ hs ih => exact ih.step hs

end DirectorySet

end WireCatalog
