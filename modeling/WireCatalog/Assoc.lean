/-! # Association lists

Tables kept as lists of pairs. The pair nearest to the front decides what a key stands for, and
`put` keeps at most one pair for a key. -/

namespace WireCatalog

abbrev Assoc (α β : Type) := List (α × β)

namespace Assoc

variable {α β : Type} [DecidableEq α]

/-- What the table holds for a key. -/
def get? (t : Assoc α β) (k : α) : Option β :=
  List.lookup k t

/-- The table without a key. -/
def erase (t : Assoc α β) (k : α) : Assoc α β :=
  t.filter fun p => p.1 ≠ k

/-- The table with a key standing for the given value. -/
def put (t : Assoc α β) (k : α) (v : β) : Assoc α β :=
  (k, v) :: t.erase k

theorem get?_cons (t : Assoc α β) (j k : α) (v : β) :
    get? ((j, v) :: t) k = if k = j then some v else t.get? k := by
  by_cases h : k = j
  · simp [get?, h]
  · have hb : (k == j) = false := by simpa using h
    simp [get?, List.lookup_cons, h, hb]

@[simp] theorem get?_cons_self (t : Assoc α β) (k : α) (v : β) :
    get? ((k, v) :: t) k = some v := by
  simp [get?_cons]

theorem get?_cons_of_ne (t : Assoc α β) {j k : α} (v : β) (h : k ≠ j) :
    get? ((j, v) :: t) k = t.get? k := by
  simp [get?_cons, h]

@[simp] theorem get?_erase_self (t : Assoc α β) (k : α) : (t.erase k).get? k = none := by
  induction t with
  | nil => rfl
  | cons p t ih =>
    rcases p with ⟨j, v⟩
    by_cases h : j = k
    · simpa [erase, h] using ih
    · have : erase ((j, v) :: t) k = (j, v) :: erase t k := by simp [erase, h]
      rw [this, get?_cons_of_ne _ _ (Ne.symm h), ih]

theorem get?_erase_of_ne (t : Assoc α β) {j k : α} (h : k ≠ j) :
    (t.erase j).get? k = t.get? k := by
  induction t with
  | nil => rfl
  | cons p t ih =>
    rcases p with ⟨i, v⟩
    by_cases hi : i = j
    · subst hi
      rw [get?_cons_of_ne _ _ h, ← ih]
      simp [erase]
    · have : erase ((i, v) :: t) j = (i, v) :: erase t j := by simp [erase, hi]
      rw [this, get?_cons, get?_cons, ih]

@[simp] theorem get?_put_self (t : Assoc α β) (k : α) (v : β) : (t.put k v).get? k = some v :=
  get?_cons_self _ _ _

theorem get?_put_of_ne (t : Assoc α β) {j k : α} (v : β) (h : k ≠ j) :
    (t.put j v).get? k = t.get? k := by
  rw [put, get?_cons_of_ne _ _ h, get?_erase_of_ne _ h]

/-- Putting the same pair twice is putting it once. -/
theorem put_put (t : Assoc α β) (k : α) (v : β) : (t.put k v).put k v = t.put k v := by
  simp [put, erase]

end Assoc

end WireCatalog
