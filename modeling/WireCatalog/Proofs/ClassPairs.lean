import WireCatalog.Proofs.ClassTable
import Mathlib.Data.List.Nodup
import Mathlib.Data.Set.Card

/-! # Classes and packet types in pairs

The two sides of a table of classes are tables of their own, and each binding changes both. Whatever
is bound, neither of them holds a key twice, and each is the inverse of the other
(`ClassTable.Sound`): a class stands for a packet type that has the class, and a class key with a
class is the key of what the class stands for. So there are as many classes as class keys
(`length_classes_eq_size`). -/

namespace WireCatalog

namespace Assoc

variable {α β : Type} [DecidableEq α] {t : Assoc α β} {k : α} {v : β}

/-! ### Tables without repeated keys -/

theorem mem_keys_iff : k ∈ t.map (·.1) ↔ (t.get? k).isSome := by
  induction t with
  | nil => simp [get?]
  | cons p t ih =>
      obtain ⟨j, w⟩ := p
      rw [List.map_cons, List.mem_cons, ih, get?_cons]
      split <;> simp_all

theorem mem_of_get? (h : t.get? k = some v) : (k, v) ∈ t := by
  induction t with
  | nil => cases h
  | cons p t ih =>
      obtain ⟨j, w⟩ := p
      rw [get?_cons] at h
      split at h
      · rename_i hk
        rw [hk, Option.some.inj h]
        exact List.mem_cons_self
      · exact List.mem_cons_of_mem _ (ih h)

theorem get?_of_mem (hn : (t.map (·.1)).Nodup) (h : (k, v) ∈ t) : t.get? k = some v := by
  induction t with
  | nil => cases h
  | cons p t ih =>
      obtain ⟨j, w⟩ := p
      obtain ⟨hj, hn⟩ := List.nodup_cons.mp hn
      rcases List.mem_cons.mp h with he | hmem
      · obtain ⟨rfl, rfl⟩ := Prod.mk.inj he
        exact get?_cons_self _ _ _
      · have hne : k ≠ j := by
          rintro rfl
          exact hj (List.mem_map.mpr ⟨_, hmem, rfl⟩)
        rw [get?_cons_of_ne _ _ hne, ih hn hmem]

theorem nodup_erase (hn : (t.map (·.1)).Nodup) (k : α) : ((t.erase k).map (·.1)).Nodup :=
  hn.sublist (List.filter_sublist.map _)

theorem nodup_put (hn : (t.map (·.1)).Nodup) (k : α) (v : β) : ((t.put k v).map (·.1)).Nodup := by
  rw [put, List.map_cons, List.nodup_cons, mem_keys_iff, get?_erase_self]
  exact ⟨by simp, nodup_erase hn k⟩

/-- A table without repeated keys has as many pairs as keys with a value. -/
theorem encard_keys (hn : (t.map (·.1)).Nodup) : {k | (t.get? k).isSome}.encard = t.length := by
  have hset : {k | (t.get? k).isSome} = ((t.map (·.1)).toFinset : Set α) := by
    ext k
    rw [List.coe_toFinset]
    exact mem_keys_iff.symm
  rw [hset, Set.encard_coe_eq_coe_finsetCard, List.toFinset_card_of_nodup hn, List.length_map]

end Assoc

/-- Every class key is the class key of something. -/
theorem PacketType.exists_classKey (k : WireKey × String) : ∃ x : PacketType, x.classKey = k :=
  ⟨{ key := k.1, legacyId := unknownId, version := default, canonical := k.2, further := []
     isDynamic := false, name := "", serial := 0 }, rfl⟩

namespace ClassTable

variable {t : ClassTable}

/-! ### All look-ups after a binding -/

theorem typeOf?_bind_eq (t : ClassTable) (cls cls' : ClassName) (x : PacketType) :
    (t.bind cls x).typeOf? cls' =
      if cls' = cls then some x
      else if t.classOf? x = some cls' then none
      else t.typeOf? cls' := by
  split
  · rename_i hcls
    rw [hcls, typeOf?_bind_self]
  · rename_i hcls
    exact typeOf?_bind_of_ne x hcls

theorem classOf?_bind_eq (t : ClassTable) (cls : ClassName) (x y : PacketType) :
    (t.bind cls x).classOf? y =
      if y.classKey = x.classKey then some cls
      else if (t.typeOf? cls).map PacketType.classKey = some y.classKey then none
      else t.classOf? y := by
  split
  · rename_i hkey
    rw [classOf?, hkey]
    exact classOf?_bind_self t cls x
  · rename_i hkey
    exact classOf?_bind_of_ne cls hkey

/-! ### What bindings keep -/

/-- What bindings keep true of a table. -/
structure Sound (t : ClassTable) : Prop where
  nodup_types : (t.types.map (·.1)).Nodup
  nodup_classes : (t.classes.map (·.1)).Nodup
  paired : t.Paired
  carried : ∀ cls x, t.classOf? x = some cls → ∃ y, t.typeOf? cls = some y ∧ y.classKey = x.classKey

theorem sound_empty : empty.Sound where
  nodup_types := List.nodup_nil
  nodup_classes := List.nodup_nil
  paired := paired_empty
  carried := by
    intro cls x h
    cases h

namespace Sound

theorem nodup_typesWithoutOld (h : t.Sound) (cls : ClassName) (x : PacketType) :
    ((t.typesWithoutOld cls x).map (·.1)).Nodup := by
  unfold typesWithoutOld
  split
  · split
    · exact h.nodup_types
    · exact Assoc.nodup_erase h.nodup_types _
  · exact h.nodup_types

theorem nodup_classesWithoutOld (h : t.Sound) (cls : ClassName) (x : PacketType) :
    ((t.classesWithoutOld cls x).map (·.1)).Nodup := by
  unfold classesWithoutOld
  split
  · split
    · exact h.nodup_classes
    · exact Assoc.nodup_erase h.nodup_classes _
  · exact h.nodup_classes

/-- A class key that keeps its class has one that keeps its packet type. -/
theorem carried_bind (h : t.Sound) (cls : ClassName) (x : PacketType) {cls' : ClassName}
    {y : PacketType} (hy : (t.bind cls x).classOf? y = some cls') :
    ∃ z, (t.bind cls x).typeOf? cls' = some z ∧ z.classKey = y.classKey := by
  rw [classOf?_bind_eq] at hy
  split at hy
  · rename_i hkey
    rw [← Option.some.inj hy]
    exact ⟨x, typeOf?_bind_self t cls x, hkey.symm⟩
  · rename_i hkey
    split at hy
    · cases hy
    · rename_i hother
      obtain ⟨z, hz, hzy⟩ := h.carried cls' y hy
      -- The class is not the bound one, which carried another key, nor the one that `x` had.
      have hcls : cls' ≠ cls := by
        rintro rfl
        exact hother (by rw [hz, Option.map_some, hzy])
      have hold : t.classOf? x ≠ some cls' := by
        intro hx
        obtain ⟨w, hw, hwx⟩ := h.carried cls' x hx
        obtain rfl := Option.some.inj (hz.symm.trans hw)
        exact hkey (hzy.symm.trans hwx)
      refine ⟨z, ?_, hzy⟩
      rw [typeOf?_bind_of_ne x hcls, if_neg hold, hz]

theorem bind (h : t.Sound) (cls : ClassName) (x : PacketType) : (t.bind cls x).Sound where
  nodup_types := Assoc.nodup_put (h.nodup_typesWithoutOld cls x) _ _
  nodup_classes := Assoc.nodup_put (h.nodup_classesWithoutOld cls x) _ _
  paired := h.paired.bind cls x
  carried := fun _ _ => h.carried_bind cls x

/-! ### How many are bound -/

theorem typeOf?_iff (h : t.Sound) {cls : ClassName} {x : PacketType} :
    t.typeOf? cls = some x ↔ (cls, x) ∈ t.types :=
  ⟨Assoc.mem_of_get?, Assoc.get?_of_mem h.nodup_types⟩

/-- No two classes stand for packet types with one class key. -/
theorem nodup_classKeys (h : t.Sound) : (t.types.map fun p => p.2.classKey).Nodup := by
  refine List.Nodup.map_on ?_ (List.Nodup.of_map _ h.nodup_types)
  rintro ⟨cls, x⟩ hx ⟨cls', y⟩ hy hkey
  have hclass := h.paired cls x (h.typeOf?_iff.mpr hx)
  have hclass' := h.paired cls' y (h.typeOf?_iff.mpr hy)
  rw [classOf?, hkey] at hclass
  obtain rfl := Option.some.inj (hclass.symm.trans hclass')
  obtain rfl := Option.some.inj ((h.typeOf?_iff.mpr hx).symm.trans (h.typeOf?_iff.mpr hy))
  rfl

/-- The class keys of what the classes stand for are the class keys that have a class. -/
theorem perm_classKeys (h : t.Sound) :
    (t.types.map fun p => p.2.classKey).Perm (t.classes.map (·.1)) := by
  rw [List.perm_ext_iff_of_nodup h.nodup_classKeys h.nodup_classes]
  intro k
  rw [List.mem_map, Assoc.mem_keys_iff]
  constructor
  · rintro ⟨⟨cls, x⟩, hx, rfl⟩
    have hclass := h.paired cls x (h.typeOf?_iff.mpr hx)
    exact Option.isSome_of_mem hclass
  · intro hk
    obtain ⟨cls, hcls⟩ := Option.isSome_iff_exists.mp hk
    obtain ⟨x, rfl⟩ := PacketType.exists_classKey k
    obtain ⟨y, hy, hkey⟩ := h.carried cls x hcls
    exact ⟨(cls, y), h.typeOf?_iff.mp hy, hkey⟩

theorem length_classes_eq_size (h : t.Sound) : t.classes.length = t.size := by
  simpa [size] using h.perm_classKeys.length_eq.symm

theorem encard_classes (h : t.Sound) : {cls | (t.typeOf? cls).isSome}.encard = t.size :=
  Assoc.encard_keys h.nodup_types

theorem encard_classKeys (h : t.Sound) :
    {k | ∃ x, x.classKey = k ∧ (t.classOf? x).isSome}.encard = t.size := by
  have hset : {k | ∃ x, x.classKey = k ∧ (t.classOf? x).isSome} =
      {k | (t.classes.get? k).isSome} := by
    ext k
    constructor
    · rintro ⟨x, rfl, hx⟩
      exact hx
    · intro hk
      obtain ⟨x, rfl⟩ := PacketType.exists_classKey k
      exact ⟨x, rfl, hk⟩
  rw [hset, Assoc.encard_keys h.nodup_classes, h.length_classes_eq_size]

end Sound

end ClassTable

/-! ### Binders that were taught -/

namespace Binder

/-- What calls make of a binder that starts with an empty table. -/
inductive Taught : Binder → Prop
  | start : Taught (table .empty)
  | bind {t : ClassTable} (h : Taught (table t)) (cls : ClassName) (x : PacketType) :
      Taught (table (t.bind cls x))
  | remember {b : Binder} (h : Taught b) (cls : ClassName) (x : PacketType) :
      Taught (b.remember cls x)

theorem Taught.exists_table {b : Binder} (h : b.Taught) : ∃ t, b = table t ∧ t.Sound := by
  induction h with
  | start => exact ⟨_, rfl, ClassTable.sound_empty⟩
  | bind h cls x ih =>
      obtain ⟨t, ht, hsound⟩ := ih
      cases ht
      exact ⟨_, rfl, hsound.bind cls x⟩
  | remember h cls x ih =>
      obtain ⟨t, rfl, hsound⟩ := ih
      exact ⟨_, rfl, hsound.bind cls x⟩

/-- **Classes and packet types come in pairs, and the last binding wins.** However a binder was
taught, a class that stands for a packet type is the class of that packet type, and the class of a
packet type stands for something with the same class key, that is, with the same wire key and
canonical name. The size is the number of classes that stand for something, and of class keys that
have a class. A further binding ties the class and the packet type to each other; then the class
that the packet type had stands for nothing, the class key of what the class stood for has no class,
and everything else is as it was. -/
theorem classes_and_types_pair_up {t : ClassTable} (h : (table t).Taught) :
    (∀ cls x, t.typeOf? cls = some x → t.classOf? x = some cls) ∧
    (∀ cls x, t.classOf? x = some cls → ∃ y, t.typeOf? cls = some y ∧ y.classKey = x.classKey) ∧
    {cls | (t.typeOf? cls).isSome}.encard = t.size ∧
    {k | ∃ x, x.classKey = k ∧ (t.classOf? x).isSome}.encard = t.size ∧
    ∀ cls x,
      (∀ cls', (t.bind cls x).typeOf? cls' =
        if cls' = cls then some x
        else if t.classOf? x = some cls' then none
        else t.typeOf? cls') ∧
      ∀ y, (t.bind cls x).classOf? y =
        if y.classKey = x.classKey then some cls
        else if (t.typeOf? cls).map PacketType.classKey = some y.classKey then none
        else t.classOf? y := by
  obtain ⟨t', ht, hsound⟩ := h.exists_table
  cases ht
  exact ⟨hsound.paired, hsound.carried, hsound.encard_classes, hsound.encard_classKeys,
    fun cls x => ⟨fun cls' => t.typeOf?_bind_eq cls cls' x, t.classOf?_bind_eq cls x⟩⟩

/-- A packet type of the play phase. -/
def playType (id : Int) (name : String) : PacketType :=
  ((Declaration.named ⟨.play, .serverToClient⟩ name).withId id).bind { name := name } 0

/-- Two classes with a packet type each, and then the first class is bound to the second packet
type: the other class and the other packet type are left without a partner. -/
theorem classes_and_types_pair_up_rebound :
    let t := (ClassTable.empty.bind ⟨"a.Chat"⟩ (playType 14 "Chat")).bind ⟨"a.Boss"⟩
      (playType 12 "Boss")
    (table t).Taught ∧ {cls | (t.typeOf? cls).isSome}.encard = 2 ∧
      let u := t.bind ⟨"a.Chat"⟩ (playType 12 "Boss")
      u.typeOf? ⟨"a.Chat"⟩ = some (playType 12 "Boss") ∧ u.typeOf? ⟨"a.Boss"⟩ = none ∧
        u.classOf? (playType 12 "Boss") = some ⟨"a.Chat"⟩ ∧ u.classOf? (playType 14 "Chat") = none := by
  intro t
  have ht : (table t).Taught := (Taught.start.bind _ _).bind _ _
  obtain ⟨_, _, hsize, _, hbind⟩ := classes_and_types_pair_up ht
  obtain ⟨htypes, hclasses⟩ := hbind ⟨"a.Chat"⟩ (playType 12 "Boss")
  refine ⟨ht, hsize, ?_, ?_, ?_, ?_⟩
  · rw [htypes]
    decide
  · rw [htypes]
    decide
  · rw [hclasses]
    decide
  · rw [hclasses]
    decide

end Binder

end WireCatalog
