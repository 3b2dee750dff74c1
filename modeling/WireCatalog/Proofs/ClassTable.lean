import WireCatalog.Packet.ClassTable

/-! # What a binding of a class changes

`typeOf?_bind_of_ne` and `classOf?_bind_of_ne` say what `bind` does to the classes and the packet
types that it does not bind: the class that the packet type had stands for nothing, and what has the
key of the packet type that the class carried has no class. All others are as they were.

So both sides of a table agree (`Paired.bind`): a class that stands for a packet type is the class
of that packet type. -/

namespace WireCatalog

namespace ClassTable

variable {t : ClassTable} {cls cls' : ClassName} {x y : PacketType}

/-! ### Look-ups after a binding -/

theorem typeOf?_bind_self (t : ClassTable) (cls : ClassName) (x : PacketType) :
    (t.bind cls x).typeOf? cls = some x :=
  Assoc.get?_put_self _ _ _

theorem classOf?_bind_self (t : ClassTable) (cls : ClassName) (x : PacketType) :
    (t.bind cls x).classOf? x = some cls :=
  Assoc.get?_put_self _ _ _

/-- Another class stands for what it stood for, unless it was the class of the packet type. -/
theorem typeOf?_bind_of_ne (x : PacketType) (h : cls' ≠ cls) :
    (t.bind cls x).typeOf? cls' =
      if t.classOf? x = some cls' then none else t.typeOf? cls' := by
  rw [typeOf?, bind, Assoc.get?_put_of_ne _ _ h, typesWithoutOld]
  cases hold : t.classOf? x with
  | none => rfl
  | some old =>
      simp only [Option.some.injEq]
      by_cases hcls : old = cls
      · rw [if_pos hcls, if_neg (hcls ▸ h.symm), typeOf?]
      · rw [if_neg hcls]
        by_cases he : old = cls'
        · rw [if_pos he, he, Assoc.get?_erase_self]
        · rw [if_neg he, Assoc.get?_erase_of_ne _ (Ne.symm he), typeOf?]

/-- A packet type with another key has the class that it had, unless the bound class carried what
has its key. -/
theorem classOf?_bind_of_ne (cls : ClassName) (h : y.classKey ≠ x.classKey) :
    (t.bind cls x).classOf? y =
      if (t.typeOf? cls).map PacketType.classKey = some y.classKey then none
      else t.classOf? y := by
  rw [classOf?, bind, Assoc.get?_put_of_ne _ _ h, classesWithoutOld]
  cases hcarried : t.typeOf? cls with
  | none => rfl
  | some z =>
      simp only [Option.map_some, Option.some.injEq]
      by_cases hz : z.classKey = x.classKey
      · rw [if_pos hz, if_neg (hz ▸ h.symm), classOf?]
      · rw [if_neg hz]
        by_cases he : z.classKey = y.classKey
        · rw [if_pos he, he, Assoc.get?_erase_self]
        · rw [if_neg he, Assoc.get?_erase_of_ne _ (Ne.symm he), classOf?]

/-- A class that is bound to something after another class was bound is either that class or had its
packet type before. -/
theorem typeOf?_bind (h : (t.bind cls x).typeOf? cls' = some y) :
    y = x ∨ t.typeOf? cls' = some y := by
  by_cases hcls : cls' = cls
  · subst hcls
    rw [typeOf?_bind_self] at h
    exact .inl (Option.some.inj h).symm
  · rw [typeOf?_bind_of_ne x hcls] at h
    split at h
    · cases h
    · exact .inr h

theorem bind_bind (t : ClassTable) (cls : ClassName) (x : PacketType) :
    (t.bind cls x).bind cls x = t.bind cls x := by
  have htypes : (t.bind cls x).typesWithoutOld cls x = (t.bind cls x).types := by
    rw [typesWithoutOld, classOf?_bind_self]
    exact if_pos rfl
  have hclasses : (t.bind cls x).classesWithoutOld cls x = (t.bind cls x).classes := by
    rw [classesWithoutOld, typeOf?_bind_self]
    exact if_pos rfl
  have hput : (t.bind cls x).types.put cls x = (t.bind cls x).types := Assoc.put_put _ _ _
  have hput' : (t.bind cls x).classes.put x.classKey cls = (t.bind cls x).classes :=
    Assoc.put_put _ _ _
  rw [bind, htypes, hclasses, hput, hput']

/-! ### Classes and their packet types -/

/-- Whether what a class stands for has the class. -/
def Paired (t : ClassTable) : Prop := ∀ cls x, t.typeOf? cls = some x → t.classOf? x = some cls

theorem paired_empty : empty.Paired := by
  intro cls x h
  cases h

/-- A binding keeps the two sides of a table in agreement. -/
theorem Paired.bind (h : t.Paired) (cls : ClassName) (x : PacketType) : (t.bind cls x).Paired := by
  intro cls' y hy
  by_cases hcls : cls' = cls
  · subst hcls
    rw [typeOf?_bind_self] at hy
    rw [← Option.some.inj hy, classOf?_bind_self]
  · rw [typeOf?_bind_of_ne x hcls] at hy
    split at hy
    · cases hy
    · rename_i hother
      have hclass := h cls' y hy
      -- Neither `x` nor what `cls` stood for has the key of `y`, as their classes differ.
      have hkey : y.classKey ≠ x.classKey := by
        intro he
        refine hother ?_
        rwa [classOf?, ← he]
      rw [classOf?_bind_of_ne cls hkey, if_neg, hclass]
      intro hcarried
      obtain ⟨z, hz, he⟩ := Option.map_eq_some_iff.mp hcarried
      have hclass' := h cls z hz
      rw [classOf?, he] at hclass'
      exact hcls (Option.some.inj (hclass.symm.trans hclass'))

end ClassTable

namespace Binder

variable {b : Binder} {cls cls' : ClassName} {x y : PacketType}

theorem typeOf?_remember (h : (b.remember cls x).typeOf? cls' = some y) :
    y = x ∨ b.typeOf? cls' = some y := by
  cases b with
  | forgetful => cases h
  | table t => exact ClassTable.typeOf?_bind h

theorem remember_remember (b : Binder) (cls : ClassName) (x : PacketType) :
    (b.remember cls x).remember cls x = b.remember cls x := by
  cases b with
  | forgetful => rfl
  | table t => exact congrArg Binder.table (t.bind_bind cls x)

/-- Whether a binder remembers classes, and what a class stands for has the class. -/
def Pairs : Binder → Prop
  | forgetful => False
  | table t => t.Paired

namespace Pairs

theorem remember (h : b.Pairs) (cls : ClassName) (x : PacketType) : (b.remember cls x).Pairs := by
  cases b with
  | forgetful => cases h
  | table t => exact ClassTable.Paired.bind h cls x

theorem typeOf?_remember_self (h : b.Pairs) (cls : ClassName) (x : PacketType) :
    (b.remember cls x).typeOf? cls = some x := by
  cases b with
  | forgetful => cases h
  | table t => exact t.typeOf?_bind_self cls x

theorem classOf?_of_typeOf? (h : b.Pairs) (hx : b.typeOf? cls = some x) :
    b.classOf? x = some cls := by
  cases b with
  | forgetful => cases h
  | table t => exact h cls x hx

end Pairs

end Binder

end WireCatalog
