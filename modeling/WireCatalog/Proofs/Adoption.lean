import WireCatalog.Proofs.Representation
import Mathlib.Data.List.Infix

/-! # Adoption is final

An adoption ends with an entry, unless the name is taken (`Adoption.packetType?`). That entry is the
first one that the declaration repeats (`equivalent?_enter`). No change of a directory takes an
entry away or puts one before it (`entries_prefix_change`), so the declaration finds the same entry
ever after, under any binding.

`adoption_is_final` says so of every directory that adoptions and retirements can make. -/

namespace WireCatalog

/-- The entry that an adoption ends with: none if the name was taken. -/
def Adoption.packetType? : Adoption → Option PacketType
  | adopted x => some x
  | present x => some x
  | nameTaken _ _ => none

theorem Adoption.packetType?_eq_some_iff {outcome : Adoption} {x : PacketType} :
    outcome.packetType? = some x ↔ outcome = .adopted x ∨ outcome = .present x := by
  cases outcome <;> simp [packetType?]

namespace Directory

variable {d : Directory} {decl : Declaration} {x : PacketType} {b : Binding} {k : ℕ}

/-! ### One adoption -/

/-- A declaration that has its entry is present, whatever the binding. -/
theorem enter_of_equivalent? (h : d.equivalent? decl = some x) (b : Binding) (k : ℕ) :
    d.enter decl b k = (.present x, d) := by
  rw [enter, h]

/-- The entry that an adoption ends with is what the declaration finds after it. -/
theorem equivalent?_enter (h : (d.enter decl b k).1.packetType? = some x) :
    (d.enter decl b k).2.equivalent? decl = some x := by
  rcases d.enter_cases decl b k with ⟨y, hy, he⟩ | ⟨y, _, _, he⟩ | ⟨hnone, _, he⟩
  · rw [he] at h ⊢
    obtain rfl : y = x := Option.some.inj h
    exact hy
  · rw [he] at h
    cases h
  · rw [he] at h ⊢
    obtain rfl : decl.bind b k = x := Option.some.inj h
    exact equivalent?_append_bind hnone b k

/-- An adoption that makes no new entry leaves the directory as it is. -/
theorem enter_eq_self (h : ∀ x, (d.enter decl b k).1 ≠ .adopted x) :
    (d.enter decl b k).2 = d := by
  rcases d.enter_cases decl b k with ⟨_, _, he⟩ | ⟨_, _, _, he⟩ | ⟨_, _, he⟩
  · rw [he]
  · rw [he]
  · rw [he] at h
    exact absurd rfl (h _)

theorem entries_prefix_enter (d : Directory) (decl : Declaration) (b : Binding) (k : ℕ) :
    d.entries <+: (d.enter decl b k).2.entries := by
  rcases d.enter_cases decl b k with ⟨_, _, he⟩ | ⟨_, _, _, he⟩ | ⟨_, _, he⟩
  · rw [he]
  · rw [he]
  · rw [he]
    exact List.prefix_append _ _

/-! ### Any changes -/

/-- A change leaves the entries that were there in front. -/
theorem entries_prefix_change (d : Directory) (ch : Change) :
    d.entries <+: (d.change ch).entries := by
  cases ch with
  | adopt decl b k =>
      by_cases hc : decl.channel = d.channel
      · rw [change_of_channel hc]
        exact d.entries_prefix_enter decl b k
      · rw [change_of_foreign hc]
  | retire old target =>
      cases hr : d.retire old target with
      | error e => rw [change_of_retire_error hr]
      | ok p =>
          obtain ⟨y, d'⟩ := p
          rw [change_of_retire_ok hr]
          obtain ⟨_, _, rfl⟩ := retire_ok hr
          exact List.prefix_rfl

/-- A declaration keeps its entry through any changes. -/
theorem equivalent?_changeAll (h : d.equivalent? decl = some x) (changes : List Change) :
    (d.changeAll changes).equivalent? decl = some x := by
  induction changes generalizing d with
  | nil => exact h
  | cons ch changes ih => exact ih (equivalent?_mono (d.entries_prefix_change ch) h)

/-! ### Adoption again -/

/-- **Adoption is final.** Take a directory after any adoptions and retirements, and adopt a
declaration of its channel. If that ends with an entry, new or present, the same declaration is
present as this entry after any further changes, whatever binding comes with it, and changes nothing
then. An adoption that makes no new entry leaves the directory as it was, and so does a retirement
that is refused. -/
theorem adoption_is_final (c : Channel) (before : List Change) {decl : Declaration}
    (hc : decl.channel = c) (b : Binding) (k : ℕ) :
    let d := (empty c).changeAll before
    ∃ outcome d', d.adopt decl b k = .ok (outcome, d') ∧
      (∀ x, outcome = .adopted x ∨ outcome = .present x → ∀ after b' k',
        (d'.changeAll after).adopt decl b' k' = .ok (.present x, d'.changeAll after)) ∧
      ((∀ x, outcome ≠ .adopted x) → d' = d) ∧
      ∀ old target e, d.retire old target = .error e → d.change (.retire old target) = d := by
  intro d
  have hd : decl.channel = d.channel := hc.trans (channel_changeAll (empty c) before).symm
  refine ⟨(d.enter decl b k).1, (d.enter decl b k).2, adopt_of_channel hd b k,
    fun x hx after b' k' => ?_, enter_eq_self, fun old target e he => change_of_retire_error he⟩
  have hentry := equivalent?_enter (Adoption.packetType?_eq_some_iff.mpr hx)
  have hlater := equivalent?_changeAll hentry after
  have hchannel : decl.channel = ((d.enter decl b k).2.changeAll after).channel := by
    rw [channel_changeAll, channel_enter]
    exact hd
  rw [adopt_of_channel hchannel, enter_of_equivalent? hlater]

/-- What was adopted as `PONG` is present still when its declaration comes again, under a name that
is taken by then. -/
theorem adoption_is_final_pong :
    let c : Channel := ⟨.status, .serverToClient⟩
    let pong := (Declaration.named c "Pong").withId 1
    let x := pong.bind ⟨"PONG", false, false⟩ 0
    let d := ((empty c).append x).changeAll
      [.adopt (Declaration.named c "Echo") ⟨"ECHO", false, false⟩ 1, .retire "OUT_ECHO" "ECHO"]
    pong.channel = c ∧
      (empty c).adopt pong ⟨"PONG", false, false⟩ 0 = .ok (.adopted x, (empty c).append x) ∧
      (d.byName? "OUT_ECHO").isSome ∧
      d.adopt pong ⟨"OUT_ECHO", false, false⟩ 2 = .ok (.present x, d) := by
  intro c pong x d
  have hadopt : (empty c).adopt pong ⟨"PONG", false, false⟩ 0 =
      .ok (.adopted x, (empty c).append x) := rfl
  have hc : pong.channel = c := rfl
  obtain ⟨outcome, d', hd', hfinal, _⟩ := adoption_is_final c [] hc ⟨"PONG", false, false⟩ 0
  obtain ⟨rfl, rfl⟩ := Prod.mk.inj (Except.ok.inj (hadopt.symm.trans hd'))
  exact ⟨hc, hadopt, by decide +kernel, hfinal x (.inl rfl) _ _ _⟩

end Directory

end WireCatalog
