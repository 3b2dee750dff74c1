import WireCatalog.Proofs.Confinement
import Mathlib.Logic.Function.Basic

/-! # Shutting a confined thread down

To shut a thread down a caller closes it, takes the handle on which the end of the thread can be
awaited, and waits if it got the handle. `Teardown` is a confined thread among callers that do so;
the steps of their calls, further submissions and closings, and the steps of the thread happen in
any order.

There is one handle, so of several calls that overlap one waits and the others return at once.
`Kept` says where the handle is: once it is taken, a caller waits with it or the thread has
finished. It follows when a call returns before everything accepted has run
(`returns_early_iff`). -/

namespace WireCatalog.Worker

variable {τ ρ σ : Type}

/-- How far a caller has come with shutting the thread down. -/
inductive Stage
  /-- It is in no such call. -/
  | outside
  /-- It has closed the thread. -/
  | closed
  /-- It has the handle and waits for the end of the thread. -/
  | waiting
  deriving DecidableEq

/-- A confined thread that callers shut down. -/
structure Teardown (τ ρ σ : Type) where
  confinement : Confinement τ ρ σ
  /-- Whether the thread found its queue closed and empty, and ended. -/
  hasFinished : Bool
  /-- Whether nobody has taken the handle yet. -/
  hasHandle : Bool
  stage : ℕ → Stage

inductive Move (τ : Type)
  | submit (x : τ)
  | close
  /-- The thread runs its next task, or ends if there will be none. -/
  | work
  /-- A caller makes the next step of its call, or the first step of a new one. -/
  | shutdown (caller : ℕ)

namespace Teardown

/-- A thread that has just started. -/
def start (s : σ) : Teardown τ ρ σ := ⟨.start s, false, true, fun _ => .outside⟩

/-- The tasks that were accepted, in order. -/
def accepted (T : Teardown τ ρ σ) : List τ := T.confinement.history

/-- The tasks that have run, in order. -/
def ran (T : Teardown τ ρ σ) : List τ := T.confinement.ran

/-- Whether the thread can only end: it is closed and no task waits. -/
def isDrained (T : Teardown τ ρ σ) : Bool :=
  !T.confinement.thread.isOpen && T.confinement.thread.waiting.isEmpty

/-- Leads a caller to a stage. -/
def enter (T : Teardown τ ρ σ) (c : ℕ) (s : Stage) : Teardown τ ρ σ :=
  { T with stage := Function.update T.stage c s }

section

variable (run : τ → σ → Effect σ ρ)

/-- The system after an action on the thread. -/
def act (T : Teardown τ ρ σ) (a : Action τ) : Teardown τ ρ σ :=
  { T with confinement := T.confinement.perform run a }

/-- The system after the next step of a caller. One that waits stays where it is until the thread
has finished. -/
def advance (T : Teardown τ ρ σ) (c : ℕ) : Teardown τ ρ σ :=
  match T.stage c with
  | .outside => (T.act run .close).enter c .closed
  | .closed =>
    if T.hasHandle then { T.enter c .waiting with hasHandle := false } else T.enter c .outside
  | .waiting => if T.hasFinished then T.enter c .outside else T

/-- The system after a move. -/
def perform (T : Teardown τ ρ σ) : Move τ → Teardown τ ρ σ
  | .submit x => T.act run (.submit x)
  | .close => T.act run .close
  | .work => if T.isDrained then { T with hasFinished := true } else T.act run .work
  | .shutdown c => T.advance run c

/-- The system after any moves. -/
def performAll (T : Teardown τ ρ σ) (moves : List (Move τ)) : Teardown τ ρ σ :=
  moves.foldl (perform run) T

theorem performAll_cons (T : Teardown τ ρ σ) (m : Move τ) (moves : List (Move τ)) :
    T.performAll run (m :: moves) = (T.perform run m).performAll run moves := rfl

/-- Whether the next step of a caller ends its call. -/
def Returns (T : Teardown τ ρ σ) (c : ℕ) : Prop :=
  T.stage c ≠ .outside ∧ (T.advance run c).stage c = .outside

/-- Whether a call ends while an accepted task has not run. -/
def ReturnsEarly (T : Teardown τ ρ σ) (c : ℕ) : Prop := T.Returns run c ∧ T.ran ≠ T.accepted

end

variable {run : τ → σ → Effect σ ρ} {T : Teardown τ ρ σ} {s₀ : σ} {c d : ℕ}

/-! ### One step -/

@[simp] theorem stage_enter_self (T : Teardown τ ρ σ) (c : ℕ) (s : Stage) :
    (T.enter c s).stage c = s := by
  simp [enter]

theorem stage_enter_of_ne (T : Teardown τ ρ σ) (s : Stage) (h : d ≠ c) :
    (T.enter c s).stage d = T.stage d := by
  simp [enter, h]

/-- Who waits after a caller was led elsewhere waited before. -/
theorem waiting_of_enter {s : Stage} (hs : s ≠ .waiting)
    (h : (T.enter c s).stage d = .waiting) : T.stage d = .waiting := by
  by_cases hdc : d = c
  · rw [hdc, stage_enter_self] at h
    exact absurd h hs
  · rwa [stage_enter_of_ne _ _ hdc] at h

/-- Who waits goes on waiting while other callers are led elsewhere. -/
theorem exists_waiting_enter (s : Stage) (hc : T.stage c ≠ .waiting)
    (h : ∃ d, T.stage d = .waiting) : ∃ d, (T.enter c s).stage d = .waiting := by
  obtain ⟨d, hd⟩ := h
  have hdc : d ≠ c := by
    rintro rfl
    exact hc hd
  exact ⟨d, (stage_enter_of_ne _ _ hdc).trans hd⟩

theorem advance_of_outside (h : T.stage c = .outside) :
    T.advance run c = (T.act run .close).enter c .closed := by
  simp only [advance, h]

theorem advance_of_closed (h : T.stage c = .closed) (hh : T.hasHandle = true) :
    T.advance run c = { T.enter c .waiting with hasHandle := false } := by
  simp only [advance, h, hh, if_true]

/-- A caller with the handle waits for the thread. -/
theorem advance_of_waiting (h : T.stage c = .waiting) (hf : T.hasFinished = false) :
    T.advance run c = T := by
  simp [advance, h, hf]

/-- A call ends after the step in which it does not get the handle, or after its wait. -/
theorem returns_iff :
    T.Returns run c ↔
      T.stage c = .closed ∧ T.hasHandle = false ∨ T.stage c = .waiting ∧ T.hasFinished = true := by
  unfold Returns advance
  cases hs : T.stage c with
  | outside => simp
  | closed => cases hh : T.hasHandle <;> simp
  | waiting => cases hf : T.hasFinished <;> simp [hs]

theorem Returns.advance_eq (h : T.Returns run c) : T.advance run c = T.enter c .outside := by
  rcases returns_iff.mp h with ⟨hs, hh⟩ | ⟨hs, hf⟩
  · simp [advance, hs, hh]
  · simp [advance, hs, hf]

theorem isDrained_iff :
    T.isDrained = true ↔
      T.confinement.thread.isOpen = false ∧ T.confinement.thread.waiting = [] := by
  simp [isDrained]

/-- A drained thread stays as it is: it accepts nothing, and there is nothing to run. -/
theorem isDrained_act (h : T.isDrained = true) (a : Action τ) : (T.act run a).isDrained = true := by
  obtain ⟨ho, hw⟩ := isDrained_iff.mp h
  rw [isDrained_iff, act]
  cases a with
  | submit x =>
      rw [Confinement.perform_submit_of_closed ho]
      exact ⟨ho, hw⟩
  | close => exact ⟨rfl, hw⟩
  | shutdown => exact ⟨rfl, hw⟩
  | work =>
      rw [Confinement.perform_work_of_idle hw]
      exact ⟨ho, hw⟩

/-! ### Where the handle is -/

/-- What moves keep true of a system that started from the state `s₀`. -/
structure Kept (run : τ → σ → Effect σ ρ) (s₀ : σ) (T : Teardown τ ρ σ) : Prop where
  confinement : T.confinement.Kept run s₀
  finished : T.hasFinished = true → T.isDrained = true
  closed : ∀ c, T.stage c ≠ .outside → T.confinement.thread.isOpen = false
  held : ∀ c, T.stage c = .waiting → T.hasHandle = false
  taken : T.hasHandle = false → T.hasFinished = true ∨ ∃ c, T.stage c = .waiting

namespace Kept

theorem start : Kept run s₀ (start s₀ : Teardown τ ρ σ) where
  confinement := Confinement.Kept.start
  finished := by
    intro h
    cases h
  closed := fun c hc => absurd rfl hc
  held := by
    intro c hc
    cases hc
  taken := by
    intro h
    cases h

/-- What happens on the thread moves neither the handle nor a caller. -/
theorem act (h : Kept run s₀ T) (a : Action τ) : Kept run s₀ (T.act run a) where
  confinement := h.confinement.perform a
  finished := fun hf => isDrained_act (h.finished hf) a
  closed := fun c hc => (Confinement.performAll_of_closed run _ (h.closed c hc) [a]).1
  held := h.held
  taken := h.taken

/-- A caller that begins a call closes the thread. -/
theorem call (h : Kept run s₀ T) (hc : T.stage c = .outside) :
    Kept run s₀ ((T.act run .close).enter c .closed) where
  confinement := h.confinement.perform .close
  finished := (h.act .close).finished
  closed := fun d hd => rfl
  held := fun d hd => h.held d (waiting_of_enter Stage.noConfusion hd)
  taken := by
    intro hh
    have hne : T.stage c ≠ .waiting := by
      rw [hc]
      exact Stage.noConfusion
    exact (h.taken hh).imp_right (exists_waiting_enter _ hne)

/-- A caller that takes the handle waits with it. -/
theorem take (h : Kept run s₀ T) (hc : T.stage c = .closed) :
    Kept run s₀ { T.enter c .waiting with hasHandle := false } where
  confinement := h.confinement
  finished := h.finished
  closed := fun d hd => h.closed c (by rw [hc]; exact Stage.noConfusion)
  held := fun d hd => rfl
  taken := fun hh => .inr ⟨c, stage_enter_self _ _ _⟩

/-- A caller that leaves without having waited leaves the handle with the one that waits; one that
has waited leaves behind a thread that has finished. -/
theorem leave (h : Kept run s₀ T) (hc : T.stage c = .waiting → T.hasFinished = true) :
    Kept run s₀ (T.enter c .outside) where
  confinement := h.confinement
  finished := h.finished
  closed := by
    intro d hd
    by_cases hdc : d = c
    · rw [hdc, stage_enter_self] at hd
      exact absurd rfl hd
    · rw [stage_enter_of_ne _ _ hdc] at hd
      exact h.closed d hd
  held := fun d hd => h.held d (waiting_of_enter Stage.noConfusion hd)
  taken := by
    intro hh
    by_cases hw : T.stage c = .waiting
    · exact .inl (hc hw)
    · exact (h.taken hh).imp_right (exists_waiting_enter _ hw)

theorem advance (h : Kept run s₀ T) (c : ℕ) : Kept run s₀ (T.advance run c) := by
  cases hc : T.stage c with
  | outside =>
      rw [advance_of_outside hc]
      exact h.call hc
  | closed =>
      cases hh : T.hasHandle with
      | true =>
          rw [advance_of_closed hc hh]
          exact h.take hc
      | false =>
          rw [(returns_iff.mpr (.inl ⟨hc, hh⟩)).advance_eq]
          exact h.leave fun hw => by rw [hc] at hw; cases hw
  | waiting =>
      cases hf : T.hasFinished with
      | true =>
          rw [(returns_iff.mpr (.inr ⟨hc, hf⟩)).advance_eq]
          exact h.leave fun _ => hf
      | false =>
          rw [advance_of_waiting hc hf]
          exact h

theorem perform (h : Kept run s₀ T) (m : Move τ) : Kept run s₀ (T.perform run m) := by
  cases m with
  | submit x => exact h.act (.submit x)
  | close => exact h.act .close
  | work =>
      rw [Teardown.perform]
      split
      · rename_i hd
        exact ⟨h.confinement, fun _ => hd, h.closed, h.held, fun _ => .inl rfl⟩
      · exact h.act .work
  | shutdown c => exact h.advance c

theorem performAll (h : Kept run s₀ T) (moves : List (Move τ)) :
    Kept run s₀ (T.performAll run moves) := by
  induction moves generalizing T with
  | nil => exact h
  | cons m moves ih => exact ih (h.perform m)

/-- Everything accepted has run once no task waits. -/
theorem ran_eq_accepted_iff (h : Kept run s₀ T) :
    T.ran = T.accepted ↔ T.confinement.thread.waiting = [] := by
  rw [accepted, h.confinement.history_eq, ran, List.self_eq_append_right, List.map_eq_nil_iff]

theorem ran_of_finished (h : Kept run s₀ T) (hf : T.hasFinished = true) : T.ran = T.accepted :=
  h.ran_eq_accepted_iff.mpr (isDrained_iff.mp (h.finished hf)).2

/-- A call returns early if it finds that the handle is gone, while the caller that has it waits and
the thread has tasks to run. -/
theorem returnsEarly_iff (h : Kept run s₀ T) :
    T.ReturnsEarly run c ↔
      T.stage c = .closed ∧ (∃ d, T.stage d = .waiting) ∧ T.confinement.thread.waiting ≠ [] := by
  rw [ReturnsEarly, returns_iff, Ne, h.ran_eq_accepted_iff]
  constructor
  · rintro ⟨⟨hc, hh⟩ | ⟨hc, hf⟩, hw⟩
    · refine ⟨hc, ?_, hw⟩
      rcases h.taken hh with hf | hd
      · exact absurd (isDrained_iff.mp (h.finished hf)).2 hw
      · exact hd
    · exact absurd (isDrained_iff.mp (h.finished hf)).2 hw
  · rintro ⟨hc, ⟨d, hd⟩, hw⟩
    exact ⟨.inl ⟨hc, h.held d hd⟩, hw⟩

end Kept

/-! ### The end of the thread -/

theorem perform_work_of_isDrained (h : T.isDrained = true) :
    T.perform run .work = { T with hasFinished := true } :=
  if_pos h

theorem performAll_work_of_isDrained (run : τ → σ → Effect σ ρ) (h : T.isDrained = true) (n : ℕ) :
    performAll run { T with hasFinished := true } (List.replicate n .work) =
      { T with hasFinished := true } := by
  induction n with
  | zero => rfl
  | succ n ih =>
      have hd : ({ T with hasFinished := true } : Teardown τ ρ σ).isDrained = true := h
      rw [List.replicate_succ, performAll_cons, perform_work_of_isDrained hd]
      exact ih

/-- A closed thread ends once it has made more steps than tasks were waiting. -/
theorem performAll_work (run : τ → σ → Effect σ ρ) (h : T.confinement.thread.isOpen = false)
    {n : ℕ} (hn : T.confinement.thread.waiting.length < n) :
    let T' := T.performAll run (List.replicate n .work)
    T'.hasFinished = true ∧ T'.stage = T.stage ∧ T'.accepted = T.accepted := by
  induction n generalizing T with
  | zero => omega
  | succ n ih =>
      -- Each step runs a task while there is one, and the one after them ends the thread.
      rw [List.replicate_succ, performAll_cons]
      cases hw : T.confinement.thread.waiting with
      | nil =>
          have hd : T.isDrained = true := isDrained_iff.mpr ⟨h, hw⟩
          rw [perform_work_of_isDrained hd, performAll_work_of_isDrained run hd]
          exact ⟨rfl, rfl, rfl⟩
      | cons p rest =>
          have hd : T.isDrained = false := by simp [isDrained, hw]
          have hwork : T.perform run .work = T.act run .work := by simp [perform, hd]
          rw [hwork]
          refine ih (Confinement.performAll_of_closed run _ h [.work]).1 ?_
          have hlength := congrArg List.length hw
          rw [act, Confinement.length_waiting_work]
          rw [List.length_cons] at hlength
          omega

/-- **A call returns early exactly if it overlaps with one that waits.** After any moves of any
callers and the thread, a call returns while an accepted task has not run if and only if it has
closed the thread and finds the handle gone, which another caller took to wait with, and tasks wait.
So no caller that took the handle returns early, and no call does that overlaps with no other. A
caller with the handle does return, and everything accepted has run then, once the thread has made
more steps than tasks were waiting. -/
theorem returns_early_iff (run : τ → σ → Effect σ ρ) (s₀ : σ) (moves : List (Move τ)) (c : ℕ) :
    let T := (start s₀).performAll run moves
    (T.ReturnsEarly run c ↔
      T.stage c = .closed ∧ (∃ d, T.stage d = .waiting) ∧ T.confinement.thread.waiting ≠ []) ∧
    (T.stage c = .waiting → ∀ n, T.confinement.thread.waiting.length < n →
      let T' := T.performAll run (List.replicate n .work)
      T'.Returns run c ∧ T'.ran = T.accepted) := by
  intro T
  have h : Kept run s₀ T := Kept.start.performAll moves
  refine ⟨h.returnsEarly_iff, fun hc n hn => ?_⟩
  intro T'
  have hclosed := h.closed c (by rw [hc]; exact Stage.noConfusion)
  obtain ⟨hf, hstage, haccepted⟩ := performAll_work run hclosed hn
  have h' : Kept run s₀ T' := h.performAll _
  refine ⟨returns_iff.mpr (.inr ⟨?_, hf⟩), (h'.ran_of_finished hf).trans haccepted⟩
  rw [hstage, hc]

/-- One caller waits for the one task, and the call of another returns before the task has run. -/
theorem returns_early_iff_two_callers :
    let run : ℕ → List ℕ → Effect (List ℕ) ℕ := fun x l => ⟨.value x, l ++ [x], false⟩
    let T := (start []).performAll run [.submit 7, .shutdown 0, .shutdown 0, .shutdown 1]
    T.ReturnsEarly run 1 ∧ T.accepted = [7] ∧ T.ran = [] ∧ T.stage 0 = .waiting ∧
      let T' := T.performAll run [.work, .work]
      T'.Returns run 0 ∧ T'.ran = [7] := by
  intro run T
  obtain ⟨hearly, _⟩ :=
    returns_early_iff run [] [.submit 7, .shutdown 0, .shutdown 0, .shutdown 1] 1
  obtain ⟨_, hreturns⟩ :=
    returns_early_iff run [] [.submit 7, .shutdown 0, .shutdown 0, .shutdown 1] 0
  refine ⟨hearly.mpr ⟨rfl, ⟨0, rfl⟩, by decide⟩, rfl, rfl, rfl, ?_⟩
  exact hreturns rfl 2 (by decide)

end Teardown

end WireCatalog.Worker
