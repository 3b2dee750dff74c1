import Mathlib.Data.List.Forall2
import Mathlib.Data.List.Induction
import Mathlib.Data.List.Nodup

/-! # Lists

Facts about lists that are not about packet types.

`List.eraseDups` keeps the first occurrence of each element. A new last element stays and a repeated
one goes (`eraseDups_concat`), so it commutes with tests, and what it keeps is there once. -/

namespace WireCatalog

/-! ### Words and partners -/

/-- A word of a code in which no word starts another one is told from what follows it. -/
theorem append_inj_of_prefix {α β : Type} {f : β → List α} (hf : ∀ {a b}, f a <+: f b → a = b)
    {a b : β} {s t : List α} (h : f a ++ s = f b ++ t) : a = b ∧ s = t := by
  have ha : f a <+: f b ++ t := h ▸ List.prefix_append (f a) s
  have hab : a = b := by
    rcases List.prefix_or_prefix_of_prefix ha (List.prefix_append (f b) t) with hp | hp
    · exact hf hp
    · exact (hf hp).symm
  subst hab
  exact ⟨rfl, List.append_cancel_left h⟩

/-- What is in the first of two lists that correspond has a partner in the second. -/
theorem exists_of_forall₂ {α β : Type} {R : α → β → Prop} {l : List α} {m : List β}
    (h : List.Forall₂ R l m) {a : α} (ha : a ∈ l) : ∃ b ∈ m, R a b := by
  induction h with
  | nil => cases ha
  | @cons a' b l m hab _ ih =>
      rcases List.mem_cons.mp ha with rfl | ha
      · exact ⟨b, List.mem_cons_self, hab⟩
      · obtain ⟨b', hb', hr⟩ := ih ha
        exact ⟨b', List.mem_cons_of_mem _ hb', hr⟩

/-! ### Repetitions -/

variable {α : Type} [DecidableEq α] {l m : List α} {a : α}

theorem eraseDups_append_of_subset (h : ∀ a ∈ m, a ∈ l) : (l ++ m).eraseDups = l.eraseDups := by
  have hnil : m.removeAll l = [] := by
    simpa [List.removeAll] using h
  rw [List.eraseDups_append, hnil, List.eraseDups_nil, List.append_nil]

theorem eraseDups_append_of_disjoint (h : ∀ a ∈ m, a ∉ l) :
    (l ++ m).eraseDups = l.eraseDups ++ m.eraseDups := by
  have hm : m.removeAll l = m := by
    rw [List.removeAll, List.filter_eq_self]
    intro a ha
    simpa using h a ha
  rw [List.eraseDups_append, hm]

theorem eraseDups_append_cons_of_mem (h : a ∈ l) :
    (l ++ a :: m).eraseDups = (l ++ m).eraseDups := by
  have hcons : (a :: m).removeAll l = m.removeAll l := by
    simp [List.removeAll, h]
  rw [List.eraseDups_append, List.eraseDups_append, hcons]

theorem eraseDups_concat (l : List α) (a : α) :
    (l ++ [a]).eraseDups = if a ∈ l then l.eraseDups else l.eraseDups ++ [a] := by
  by_cases ha : a ∈ l
  · rw [if_pos ha]
    exact eraseDups_append_of_subset (by simpa using ha)
  · rw [if_neg ha]
    exact eraseDups_append_of_disjoint (by simpa using ha)

theorem nodup_eraseDups (l : List α) : l.eraseDups.Nodup := by
  induction l using List.reverseRecOn with
  | nil => exact List.nodup_nil
  | append_singleton l a ih =>
      rw [eraseDups_concat]
      by_cases ha : a ∈ l
      · rwa [if_pos ha]
      · rw [if_neg ha, List.nodup_append]
        refine ⟨ih, List.nodup_singleton a, ?_⟩
        rintro b hb c hc rfl
        rw [List.mem_singleton] at hc
        rw [List.mem_eraseDups, hc] at hb
        exact ha hb

theorem eraseDups_of_nodup (h : l.Nodup) : l.eraseDups = l := by
  induction l using List.reverseRecOn with
  | nil => rfl
  | append_singleton l a ih =>
      obtain ⟨hl, _, ha⟩ := List.nodup_append.mp h
      rw [eraseDups_concat, ih hl, if_neg fun hm => ha a hm a List.mem_cons_self rfl]

theorem eraseDups_filter (p : α → Bool) (l : List α) :
    (l.filter p).eraseDups = l.eraseDups.filter p := by
  induction l using List.reverseRecOn with
  | nil => rfl
  | append_singleton l a ih =>
      rw [List.filter_append, eraseDups_concat]
      by_cases hp : p a = true
      · by_cases ha : a ∈ l <;> simp [hp, ha, eraseDups_concat, ih]
      · by_cases ha : a ∈ l <;> simp [hp, ha, ih]

theorem eraseDups_eq_singleton (h : ∀ b, b ∈ l ↔ b = a) : l.eraseDups = [a] := by
  have hperm : l.eraseDups.Perm [a] := by
    rw [List.perm_ext_iff_of_nodup (nodup_eraseDups l) (List.nodup_singleton a)]
    intro b
    rw [List.mem_eraseDups, h, List.mem_singleton]
  exact List.perm_singleton.mp hperm

/-- Repetitions of the first element do not count. -/
theorem eraseDups_cons_filter_ne (a : α) (l : List α) :
    (a :: l.filter fun b => !b == a).eraseDups = (a :: l).eraseDups := by
  simp [List.eraseDups_cons, List.filter_filter]

/-- Lists that have nothing in common keep their order. -/
theorem eraseDups_flatMap {β : Type} {l : List β} {f : β → List α}
    (h : l.Pairwise fun b c => ∀ a ∈ f c, a ∉ f b) :
    (l.flatMap f).eraseDups = l.flatMap fun b => (f b).eraseDups := by
  induction l with
  | nil => rfl
  | cons b l ih =>
      obtain ⟨hb, hl⟩ := List.pairwise_cons.mp h
      rw [List.flatMap_cons, List.flatMap_cons, eraseDups_append_of_disjoint, ih hl]
      intro a ha
      obtain ⟨c, hc, ha⟩ := List.mem_flatMap.mp ha
      exact hb c hc a ha

end WireCatalog
