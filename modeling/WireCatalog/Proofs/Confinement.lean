import WireCatalog.Worker.Session
import Mathlib.Data.List.Basic
import Mathlib.Logic.Function.Iterate

/-! # Confined threads among their callers

Callers submit tasks to a confined thread and close it, while the thread runs the tasks that wait:
`Confinement` is the thread together with the state that its tasks share and the tickets of the
callers, and its actions happen in any order. A task carries the number of its ticket and completes
it when it ends (`ticketed`). The history of the tasks that were accepted is kept apart from the
queue.

`Kept` says that queue, history and tickets belong together, and that the tasks which ran are those
at the front of the history, as if the thread had never done anything else (`replay`). Every action
keeps it (`Kept.perform`). How far the thread gets is `le_length_ran`: each step runs one more task
while there is one. -/

namespace WireCatalog.Worker

variable {τ ρ σ : Type}

/-! ### Tickets -/

/-- The ticket of a task after the task ended. A panic drops the sender. -/
def Ticket.complete : Outcome ρ → Ticket ρ → Ticket ρ
  | .value r => Ticket.send r
  | .panic _ => Ticket.lose

/-- The ticket of a task that ended so, or has not ended. -/
def Ticket.after : Option (Outcome ρ) → Ticket ρ
  | none => .pending
  | some o => Ticket.pending.complete o

/-- A session settles the ticket of a queued job in the same way. -/
theorem Session.settled_eq {α : Type} (o : Outcome (Result α)) :
    Session.settled o = Ticket.after (some o) := by
  cases o <;> rfl

theorem Ticket.poll_after (o : Option (Outcome ρ)) :
    (∀ r, (after o).poll.1 = .value r ↔ o = some (.value r)) ∧
      ((after o).poll.1 = .lost ↔ ∃ m, o = some (.panic m)) ∧
      ((after o).poll.1 = .pending ↔ o = none) := by
  rcases o with _ | r | m <;> simp [after, complete, send, lose, poll]

theorem Thread.outcome?_concat (t : Thread τ ρ) (isOpen : Bool) (waiting : List τ)
    (p : τ × Outcome ρ) (k : ℕ) :
    Thread.outcome? ⟨isOpen, waiting, t.ended ++ [p]⟩ k =
      if k = t.ended.length then some p.2 else t.outcome? k := by
  rcases Nat.lt_trichotomy k t.ended.length with hk | rfl | hk
  · have hne : k ≠ t.ended.length := by omega
    simp [outcome?, List.getElem?_append_left hk, hne]
  · simp [outcome?]
  · have hne : k ≠ t.ended.length := by omega
    have hold : t.ended[k]? = none := List.getElem?_eq_none (by omega)
    have hnew : (t.ended ++ [p])[k]? = none := List.getElem?_eq_none (by simp; omega)
    simp [outcome?, hold, hnew, hne]

/-! ### The system -/

/-- A confined thread among its callers. -/
structure Confinement (τ ρ σ : Type) where
  /-- The thread. Each task carries the number of its ticket. -/
  thread : Thread (ℕ × τ) ρ
  /-- The state that the tasks work on. -/
  shared : σ
  tickets : List (Ticket ρ)
  /-- The tasks that were accepted, in order. -/
  history : List τ

inductive Action (τ : Type)
  | submit (x : τ)
  | close
  /-- A shutdown closes the thread and then waits for the steps of the thread. -/
  | shutdown
  /-- The thread takes the next task out of its queue and runs it. -/
  | work

/-- Whether an action is a step of the thread. -/
def Action.isWork : Action τ → Bool
  | work => true
  | _ => false

/-- The tasks that callers submit before one of them closes the thread. -/
def Action.submittedOpen : List (Action τ) → List τ
  | [] => []
  | submit x :: actions => x :: submittedOpen actions
  | close :: _ => []
  | shutdown :: _ => []
  | work :: actions => submittedOpen actions

/-- A task that completes its ticket when it ends. -/
def ticketed (run : τ → σ → Effect σ ρ) (x : ℕ × τ) (p : σ × List (Ticket ρ)) :
    Effect (σ × List (Ticket ρ)) ρ :=
  let e := run x.2 p.1
  ⟨e.outcome, (e.state, p.2.modify x.1 (Ticket.complete e.outcome)), e.closes⟩

/-- What becomes of tasks that run one after another. -/
def replay (run : τ → σ → Effect σ ρ) : List τ → σ → List (Outcome ρ) × σ
  | [], s => ([], s)
  | x :: xs, s =>
    let e := run x s
    let (outcomes, s) := replay run xs e.state
    (e.outcome :: outcomes, s)

theorem replay_concat (run : τ → σ → Effect σ ρ) (xs : List τ) (x : τ) (s : σ) :
    replay run (xs ++ [x]) s =
      ((replay run xs s).1 ++ [(run x (replay run xs s).2).outcome],
        (run x (replay run xs s).2).state) := by
  induction xs generalizing s with
  | nil => rfl
  | cons y xs ih => simp only [List.cons_append, replay, ih]

namespace Confinement

/-- A thread that has just started. -/
def start (s : σ) : Confinement τ ρ σ := ⟨.fresh, s, [], []⟩

section

variable (run : τ → σ → Effect σ ρ)

/-- The system after an action. -/
def perform (S : Confinement τ ρ σ) : Action τ → Confinement τ ρ σ
  | .submit x =>
    match S.thread.submit? (S.tickets.length, x) with
    | none => S
    | some (_, t) =>
      { S with thread := t, tickets := S.tickets ++ [.pending], history := S.history ++ [x] }
  | .close => { S with thread := S.thread.close }
  | .shutdown => { S with thread := S.thread.close }
  | .work =>
    let (t, s, tickets) := S.thread.step (ticketed run) (S.shared, S.tickets)
    { S with thread := t, shared := s, tickets := tickets }

/-- The system after any actions. -/
def performAll (S : Confinement τ ρ σ) (actions : List (Action τ)) : Confinement τ ρ σ :=
  actions.foldl (perform run) S

theorem performAll_cons (S : Confinement τ ρ σ) (a : Action τ) (actions : List (Action τ)) :
    S.performAll run (a :: actions) = (S.perform run a).performAll run actions := rfl

end

/-- The tasks that have run, in order. -/
def ran (S : Confinement τ ρ σ) : List τ := S.thread.ended.map (·.1.2)

/-! ### One action -/

section

variable {run : τ → σ → Effect σ ρ} {S : Confinement τ ρ σ} {s₀ : σ}

theorem perform_submit_of_open {x : τ} (h : S.thread.isOpen = true) :
    S.perform run (.submit x) =
      { S with
        thread :=
          ⟨S.thread.isOpen, S.thread.waiting ++ [(S.tickets.length, x)], S.thread.ended⟩
        tickets := S.tickets ++ [.pending]
        history := S.history ++ [x] } := by
  simp only [perform, Thread.submit?_of_open _ h]

theorem perform_submit_of_closed {x : τ} (h : S.thread.isOpen = false) :
    S.perform run (.submit x) = S := by
  simp only [perform, Thread.submit?_of_closed _ h]

theorem perform_work_of_idle (h : S.thread.waiting = []) : S.perform run .work = S := by
  simp [perform, Thread.step, h]

theorem perform_work {k : ℕ} {x : τ} {rest : List (ℕ × τ)}
    (h : S.thread.waiting = (k, x) :: rest) :
    let e := run x S.shared
    S.perform run .work =
      { S with
        thread := ⟨S.thread.isOpen && !e.closes, rest, S.thread.ended ++ [((k, x), e.outcome)]⟩
        shared := e.state
        tickets := S.tickets.modify k (Ticket.complete e.outcome) } := by
  simp only [perform, Thread.step, h, ticketed]

theorem accepted_work :
    (S.perform run .work).thread.accepted = S.thread.accepted :=
  Thread.accepted_step _ _ _

theorem length_waiting_work :
    (S.perform run .work).thread.waiting.length = S.thread.waiting.length - 1 :=
  Thread.length_waiting_step _ _ _

/-! ### What every action keeps -/

/-- What actions keep true of a system that started from the state `s₀`. -/
structure Kept (run : τ → σ → Effect σ ρ) (s₀ : σ) (S : Confinement τ ρ σ) : Prop where
  tasks : S.thread.accepted.map (·.2) = S.history
  numbers : S.thread.accepted.map (·.1) = List.range S.history.length
  tickets : S.tickets =
    (List.range S.history.length).map fun k => Ticket.after (S.thread.outcome? k)
  replayed : replay run S.ran s₀ = (S.thread.ended.map (·.2), S.shared)

namespace Kept

theorem start : Kept run s₀ (.start s₀) where
  tasks := rfl
  numbers := rfl
  tickets := rfl
  replayed := rfl

theorem length_tickets (h : Kept run s₀ S) : S.tickets.length = S.history.length := by
  rw [h.tickets, List.length_map, List.length_range]

theorem length_accepted (h : Kept run s₀ S) : S.thread.accepted.length = S.history.length := by
  rw [← h.tasks, List.length_map]

/-- The next task to run has as its number how many have run. -/
theorem next_number (h : Kept run s₀ S) {k : ℕ} {x : τ} {rest : List (ℕ × τ)}
    (hw : S.thread.waiting = (k, x) :: rest) : k = S.thread.ended.length := by
  have hlt : S.thread.ended.length < S.history.length := by
    rw [← h.length_accepted, Thread.length_accepted, hw, List.length_cons]
    omega
  have hnth := congrArg (·[S.thread.ended.length]?) h.numbers
  simpa [Thread.accepted, hw, List.getElem?_range hlt] using hnth

theorem submit (h : Kept run s₀ S) (x : τ) : Kept run s₀ (S.perform run (.submit x)) := by
  cases ho : S.thread.isOpen with
  | false => rwa [perform_submit_of_closed ho]
  | true =>
      have haccepted := Thread.accepted_of_submit?
        (Thread.submit?_of_open (S.tickets.length, x) ho)
      have hlast : Ticket.after (S.thread.outcome? S.history.length) = .pending := by
        have hle : S.thread.ended.length ≤ S.history.length := by
          rw [← h.length_accepted, Thread.length_accepted]
          omega
        rw [Thread.outcome?, List.getElem?_eq_none hle]
        rfl
      rw [perform_submit_of_open ho]
      refine ⟨?_, ?_, ?_, h.replayed⟩
      · rw [haccepted, List.map_append, h.tasks]
        rfl
      · rw [haccepted, List.map_append, h.numbers, List.length_append, List.length_singleton,
          List.range_succ, h.length_tickets]
        rfl
      · show S.tickets ++ [.pending] =
          (List.range (S.history ++ [x]).length).map fun k => Ticket.after (S.thread.outcome? k)
        rw [List.length_append, List.length_singleton, List.range_succ, List.map_append,
          ← h.tickets, List.map_singleton, hlast]

theorem close (h : Kept run s₀ S) : Kept run s₀ { S with thread := S.thread.close } where
  tasks := by rw [Thread.accepted_close, h.tasks]
  numbers := by rw [Thread.accepted_close, h.numbers]
  tickets := h.tickets
  replayed := h.replayed

/-- Only the ticket of the task that runs changes. -/
theorem modify_tickets (h : Kept run s₀ S) {p : ℕ × τ} {rest : List (ℕ × τ)} {o : Outcome ρ}
    {isOpen : Bool} :
    S.tickets.modify S.thread.ended.length (Ticket.complete o) =
      (List.range S.history.length).map fun j => Ticket.after
        (Thread.outcome? ⟨isOpen, rest, S.thread.ended ++ [(p, o)]⟩ j) := by
  apply List.ext_getElem?
  intro j
  rw [List.getElem?_modify, h.tickets, List.getElem?_map, List.getElem?_map]
  by_cases hj : j < S.history.length
  · rw [List.getElem?_range hj, Option.map_some, Option.map_some, Thread.outcome?_concat]
    by_cases he : S.thread.ended.length = j
    · subst he
      simp [Thread.outcome?, Ticket.after]
    · simp [he, Ne.symm he]
  · rw [List.getElem?_eq_none (by simpa using hj)]
    rfl

theorem work (h : Kept run s₀ S) : Kept run s₀ (S.perform run .work) := by
  cases hw : S.thread.waiting with
  | nil => rwa [perform_work_of_idle hw]
  | cons p rest =>
      obtain ⟨k, x⟩ := p
      -- The number that the task carries is the position of its outcome among those that ended.
      obtain rfl := h.next_number hw
      have haccepted : (S.perform run .work).thread.accepted = S.thread.accepted := accepted_work
      rw [perform_work hw] at haccepted ⊢
      refine ⟨?_, ?_, h.modify_tickets, ?_⟩
      · rw [haccepted, h.tasks]
      · rw [haccepted, h.numbers]
      · have hreplay := h.replayed
        simp only [ran, List.map_append, List.map_cons, List.map_nil] at hreplay ⊢
        rw [replay_concat, hreplay]

theorem perform (h : Kept run s₀ S) (a : Action τ) : Kept run s₀ (S.perform run a) := by
  cases a with
  | submit x => exact h.submit x
  | close => exact h.close
  | shutdown => exact h.close
  | work => exact h.work

theorem performAll (h : Kept run s₀ S) (actions : List (Action τ)) :
    Kept run s₀ (S.performAll run actions) := by
  induction actions generalizing S with
  | nil => exact h
  | cons a actions ih => exact ih (h.perform a)

/-- What has run is the front of the history. -/
theorem history_eq (h : Kept run s₀ S) : S.history = S.ran ++ S.thread.waiting.map (·.2) := by
  rw [← h.tasks, Thread.accepted, List.map_append, List.map_map]
  rfl

theorem ran_front (h : Kept run s₀ S) : S.ran <+: S.history := by
  rw [h.history_eq]
  exact List.prefix_append _ _

theorem ran_numbers (h : Kept run s₀ S) :
    S.thread.ended.map (·.1.1) = List.range S.ran.length := by
  have hle : S.ran.length ≤ S.history.length := h.ran_front.length_le
  have hfront := congrArg (List.take S.ran.length) h.numbers
  rw [Thread.accepted, List.map_append, List.map_map, List.take_range, Nat.min_eq_left hle,
    List.take_left' (by simp [ran])] at hfront
  exact hfront

end Kept

/-! ### How far the thread gets -/

theorem waiting_submit (run : τ → σ → Effect σ ρ) (S : Confinement τ ρ σ) (x : τ) :
    (S.perform run (.submit x)).ran = S.ran ∧
      S.thread.waiting.length ≤ (S.perform run (.submit x)).thread.waiting.length := by
  cases ho : S.thread.isOpen with
  | false => simp [perform_submit_of_closed ho]
  | true => simp [perform_submit_of_open ho, ran]

/-- Each step of the thread runs one more task while there is one. Nothing else that happens, no
panic and no closing, keeps a task from running. -/
theorem le_length_ran (run : τ → σ → Effect σ ρ) (S : Confinement τ ρ σ)
    (actions : List (Action τ)) :
    S.ran.length + min (actions.countP Action.isWork) S.thread.waiting.length ≤
      (S.performAll run actions).ran.length := by
  -- The tasks that wait grow by submissions and shrink by steps of the thread alone.
  induction actions generalizing S with
  | nil => simp [performAll]
  | cons a actions ih =>
      have hrest := ih (S.perform run a)
      rw [performAll_cons]
      cases a with
      | submit x =>
          obtain ⟨hran, hle⟩ := waiting_submit run S x
          rw [hran] at hrest
          rw [List.countP_cons_of_neg (by simp [Action.isWork])]
          omega
      | close => exact hrest
      | shutdown => exact hrest
      | work =>
          have haccepted : (S.perform run .work).thread.accepted.length =
              S.thread.accepted.length := congrArg List.length accepted_work
          have hwaiting : (S.perform run .work).thread.waiting.length =
              S.thread.waiting.length - 1 := length_waiting_work
          rw [Thread.length_accepted, Thread.length_accepted] at haccepted
          rw [ran, List.length_map] at hrest ⊢
          rw [List.countP_cons_of_pos rfl]
          omega

/-! ### Acceptance -/

theorem history_prefix_perform (run : τ → σ → Effect σ ρ) (S : Confinement τ ρ σ) (a : Action τ) :
    S.history <+: (S.perform run a).history := by
  cases a with
  | submit x =>
      cases ho : S.thread.isOpen with
      | false => simp [perform_submit_of_closed ho]
      | true => simp [perform_submit_of_open ho]
  | close => exact List.prefix_rfl
  | shutdown => exact List.prefix_rfl
  | work => exact List.prefix_rfl

theorem history_prefix_performAll (run : τ → σ → Effect σ ρ) (S : Confinement τ ρ σ)
    (actions : List (Action τ)) :
    S.history <+: (S.performAll run actions).history := by
  induction actions generalizing S with
  | nil => exact List.prefix_rfl
  | cons a actions ih => exact (history_prefix_perform run S a).trans (ih (S.perform run a))

/-- Everything that was accepted has run once the thread has made as many steps as tasks were
waiting. -/
theorem Kept.history_prefix_ran (h : Kept run s₀ S) {later : List (Action τ)}
    (hlater : S.thread.waiting.length ≤ later.countP Action.isWork) :
    S.history <+: (S.performAll run later).ran := by
  have hle := le_length_ran run S later
  have hlength := congrArg List.length h.history_eq
  rw [List.length_append, List.length_map] at hlength
  refine List.prefix_of_prefix_length_le (history_prefix_performAll run S later)
    (h.performAll later).ran_front ?_
  omega

theorem history_performAll_work (run : τ → σ → Effect σ ρ) (S : Confinement τ ρ σ) (n : ℕ) :
    (S.performAll run (List.replicate n .work)).history = S.history := by
  induction n generalizing S with
  | zero => rfl
  | succ n ih =>
      rw [List.replicate_succ, performAll_cons, ih]
      rfl

/-- A thread that is left to itself for long enough has run its history. -/
theorem Kept.ran_performAll_work (h : Kept run s₀ S) {n : ℕ}
    (hn : S.thread.waiting.length ≤ n) :
    (S.performAll run (List.replicate n .work)).ran = S.history := by
  have hcount : (List.replicate n (Action.work : Action τ)).countP Action.isWork = n := by
    simp [List.countP_replicate, Action.isWork]
  have hall := h.history_prefix_ran (hcount.symm ▸ hn)
  have hfront := (h.performAll (List.replicate n .work)).ran_front
  rw [history_performAll_work] at hfront
  exact hfront.eq_of_length_le hall.length_le

/-- Once everything has run, the tickets are those of the tasks that ran one after another. -/
theorem Kept.tickets_of_ran (h : Kept run s₀ S) (hran : S.ran = S.history) :
    S.tickets = (replay run S.history s₀).1.map fun o => Ticket.after (some o) := by
  have hlength : S.thread.ended.length = S.history.length := by
    rw [← hran, ran, List.length_map]
  rw [← hran, h.replayed, h.tickets]
  apply List.ext_getElem?
  intro k
  rw [List.getElem?_map, List.getElem?_map, List.getElem?_map]
  by_cases hk : k < S.history.length
  · have hk' : k < S.thread.ended.length := by omega
    simp [List.getElem?_range hk, Thread.outcome?, List.getElem?_eq_getElem hk']
  · rw [List.getElem?_eq_none (by simpa using hk), List.getElem?_eq_none (by omega)]
    rfl

/-- A closed thread stays closed and accepts nothing. -/
theorem performAll_of_closed (run : τ → σ → Effect σ ρ) (S : Confinement τ ρ σ)
    (h : S.thread.isOpen = false) (actions : List (Action τ)) :
    (S.performAll run actions).thread.isOpen = false ∧
      (S.performAll run actions).history = S.history := by
  induction actions generalizing S with
  | nil => exact ⟨h, rfl⟩
  | cons a actions ih =>
      cases a with
      | submit x =>
          rw [performAll_cons, perform_submit_of_closed h]
          exact ih S h
      | close => exact ih (S.perform run .close) rfl
      | shutdown => exact ih (S.perform run .shutdown) rfl
      | work =>
          refine ih (S.perform run .work) ?_
          cases hw : S.thread.waiting with
          | nil => rwa [perform_work_of_idle hw]
          | cons p rest => simp [perform_work hw, h]

/-- If no task closes the thread, it accepts what is submitted until a caller closes it. -/
theorem history_performAll (hrun : ∀ x s, (run x s).closes = false)
    (h : S.thread.isOpen = true) (actions : List (Action τ)) :
    (S.performAll run actions).history = S.history ++ Action.submittedOpen actions := by
  induction actions generalizing S with
  | nil => simp [performAll, Action.submittedOpen]
  | cons a actions ih =>
      rw [performAll_cons]
      cases a with
      | submit x =>
          rw [perform_submit_of_open h, ih (by exact h), Action.submittedOpen, List.append_assoc]
          rfl
      | close =>
          rw [(performAll_of_closed run _ rfl actions).2, Action.submittedOpen, List.append_nil]
          rfl
      | shutdown =>
          rw [(performAll_of_closed run _ rfl actions).2, Action.submittedOpen, List.append_nil]
          rfl
      | work =>
          have hopen : (S.perform run .work).thread.isOpen = true := by
            cases hw : S.thread.waiting with
            | nil => rwa [perform_work_of_idle hw]
            | cons p rest => simp [perform_work hw, h, hrun]
          rw [ih hopen, Action.submittedOpen]
          rfl

end

end Confinement

/-! ### Nested jobs -/

theorem Job.runAt_nested {α σ : Type} {site : Site α σ} {s : σ}
    (h : Executor.runsInPlace (site.isConfined? s) = true) (j : Job α) :
    (nested j).runAt site s = ((j.runAt site s).1.inPlace, (j.runAt site s).2) := by
  rw [runAt, if_pos h]

/-- However deep a job is nested, where jobs run in place it does at once what it would do by
itself. -/
theorem Job.runAt_iterate_nested {α σ : Type} {site : Site α σ} {s : σ}
    (h : Executor.runsInPlace (site.isConfined? s) = true) (d : ℕ) (j : Job α) :
    (nested^[d] j).runAt site s =
      (Outcome.inPlace^[d] (j.runAt site s).1, (j.runAt site s).2) := by
  induction d with
  | zero => rfl
  | succ d ih => rw [Function.iterate_succ_apply', runAt_nested h, ih, Function.iterate_succ_apply']

theorem Job.effect_iterate_nested {α : Type} (d : ℕ) (j : Job α) (l : List α) :
    (nested^[d] j).effect l =
      { j.effect l with outcome := Outcome.inPlace^[d] (j.effect l).outcome } := by
  rw [effect, runAt_iterate_nested rfl]
  rfl

namespace Confinement

/-- **A confined thread is first in, first out, and runs each task exactly once.** After any actions
of its callers and itself, the tasks that have run are those at the front of the history, each of
them once and on what the one before it left behind, panics included. Of what was accepted
everything runs once the thread has made as many steps as tasks were waiting. Until a caller closes
it the thread accepts every task; afterwards it accepts none, and what waits goes on waiting. A
ticket has the value of its own task if that ended with one, and is lost if it panicked. A job that
is confined where jobs run in place is never handed over: it does at once what it would do by
itself. So a job that a job of the thread confines to it runs in its place, whether or not the
thread is open. -/
theorem exactly_once_in_order (run : τ → σ → Effect σ ρ) (s₀ : σ) (actions : List (Action τ)) :
    let S := (start s₀).performAll run actions
    (S.ran <+: S.history ∧ S.thread.ended.map (·.1.1) = List.range S.ran.length ∧
      replay run S.ran s₀ = (S.thread.ended.map (·.2), S.shared)) ∧
    (∀ later : List (Action τ), S.thread.waiting.length ≤ later.countP Action.isWork →
      S.history <+: (S.performAll run later).ran) ∧
    ((∀ x s, (run x s).closes = false) → S.history = Action.submittedOpen actions) ∧
    (∀ a, a = .close ∨ a = .shutdown →
      (S.perform run a).thread.waiting = S.thread.waiting ∧
      ∀ later : List (Action τ), let S' := (S.perform run a).performAll run later
        S'.history = S.history ∧
        ∀ x, S'.thread.submit? (S'.tickets.length, x) = none ∧ S'.perform run (.submit x) = S') ∧
    (∀ k, k < S.history.length → ∃ t, S.tickets[k]? = some t ∧
      let outcome? := (replay run S.ran s₀).1[k]?
      (∀ r, t.poll.1 = .value r ↔ outcome? = some (.value r)) ∧
      (t.poll.1 = .lost ↔ ∃ m, outcome? = some (.panic m)) ∧
      (t.poll.1 = .pending ↔ outcome? = none)) ∧
    (∀ (α σ' : Type) (site : Site α σ') (s : σ') (d : ℕ) (j : Job α),
      Executor.runsInPlace (site.isConfined? s) = true →
      (Job.nested^[d] j).runAt site s =
        (Outcome.inPlace^[d] (j.runAt site s).1, (j.runAt site s).2)) ∧
    ∀ (α : Type) (T : Confinement (Job α) (Result α) (List α)) (k d : ℕ) (j : Job α)
      (rest : List (ℕ × Job α)), T.thread.waiting = (k, Job.nested^[d] j) :: rest →
      let e := j.effect T.shared
      let outcome := Outcome.inPlace^[d] e.outcome
      T.perform Job.effect .work =
        { T with
          thread := ⟨T.thread.isOpen && !e.closes, rest,
            T.thread.ended ++ [((k, Job.nested^[d] j), outcome)]⟩
          shared := e.state
          tickets := T.tickets.modify k (Ticket.complete outcome) } := by
  intro S
  have h : Kept run s₀ S := Kept.start.performAll actions
  refine ⟨⟨h.ran_front, h.ran_numbers, h.replayed⟩, ?_, ?_, ?_, ?_, ?_, ?_⟩
  · exact fun later => h.history_prefix_ran
  · intro hrun
    exact history_performAll hrun rfl actions
  · intro a ha
    have hclosed : S.perform run a = { S with thread := S.thread.close } := by
      rcases ha with rfl | rfl <;> rfl
    rw [hclosed]
    refine ⟨rfl, fun later => ?_⟩
    obtain ⟨ho, hh⟩ := performAll_of_closed run { S with thread := S.thread.close } rfl later
    exact ⟨hh, fun x => ⟨Thread.submit?_of_closed _ ho, perform_submit_of_closed ho⟩⟩
  · intro k hk
    refine ⟨Ticket.after (S.thread.outcome? k), ?_, ?_⟩
    · rw [h.tickets, List.getElem?_map, List.getElem?_range hk]
      rfl
    · rw [h.replayed, List.getElem?_map]
      exact Ticket.poll_after _
  · exact fun α σ' site s d j hplace => Job.runAt_iterate_nested hplace d j
  · intro α T k d j rest hw e outcome
    rw [perform_work hw, Job.effect_iterate_nested]

/-- Tasks that append a number, and panic at zero. The fourth one comes too late; the panic of the
second one keeps neither the third one nor its ticket from ending. -/
theorem exactly_once_in_order_panic :
    let run : ℕ → List ℕ → Effect (List ℕ) ℕ := fun x l =>
      ⟨if x = 0 then .panic none else .value x, l ++ [x], false⟩
    let S := (start []).performAll run [.submit 1, .submit 0, .work, .submit 2, .close, .submit 3]
    let S' := S.performAll run [.work, .work]
    S.history = [1, 0, 2] ∧ [1, 0, 2] <+: S'.ran ∧ S'.tickets = [.sent 1, .lost, .sent 2] := by
  intro run S S'
  obtain ⟨_, hall, haccepted, _⟩ := exactly_once_in_order run []
    [.submit 1, .submit 0, .work, .submit 2, .close, .submit 3]
  have hhistory : S.history = [1, 0, 2] := haccepted fun _ _ => rfl
  have hran : S.history <+: S'.ran := hall [.work, .work] (by decide)
  rw [hhistory] at hran
  exact ⟨hhistory, hran, by decide⟩

end Confinement

end WireCatalog.Worker
