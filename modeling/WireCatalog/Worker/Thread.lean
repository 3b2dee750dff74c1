/-! # Confined threads

A confined thread runs the tasks of a queue one at a time, in the order in which they were accepted.
It accepts tasks until it is closed; a task that was accepted before still runs. A task ends with a
value or in a panic, and neither stops the thread. Tasks work on a state that they share, and may
close their own thread.

The name of a thread is handed to the system as a text that ends at its first null byte, so a name
must not hold one.

Since the queue is first in, first out, the task accepted as number `k` is the one that ends as
number `k`, and the number is all that a ticket has to keep. -/

namespace WireCatalog.Worker

/-! ### Names -/

/-- A name that no thread can have: its bytes, and the position of the first null byte. -/
structure NameFault where
  position : Nat
  bytes : List UInt8
  deriving DecidableEq, Repr

/-- The text of the panic that the name causes. -/
def NameFault.message (e : NameFault) : String :=
  s!"thread name may not contain interior null bytes: NulError({e.position}, [" ++
    ", ".intercalate (e.bytes.map fun b => b.toNat.repr) ++ "])"

/-- Refuses a name with a null byte. -/
def checkName (name : String) : Except NameFault Unit :=
  let bytes := name.toUTF8.toList
  match bytes.findIdx? (· == 0) with
  | some n => .error ⟨n, bytes⟩
  | none => .ok ()

/-! ### Tasks -/

/-- How a task ends. -/
inductive Outcome (ρ : Type)
  | value (r : ρ)
  /-- The task panicked, with a message if the panic carried a text. -/
  | panic (message : Option String)
  deriving DecidableEq, Repr

/-- The text of a panic. -/
def panicText (message : Option String) : String := message.getD "<non-string panic>"

/-- The text of the panic in which a task ended, if it did. -/
def Outcome.panicText? {ρ : Type} : Outcome ρ → Option String
  | value _ => none
  | panic message => some (panicText message)

/-- What running a task does. -/
structure Effect (σ ρ : Type) where
  outcome : Outcome ρ
  /-- The shared state that the task leaves. -/
  state : σ
  /-- Whether the task closes the thread that it runs on. -/
  closes : Bool

/-! ### Threads -/

/-- The text of the refusal of a closed thread. -/
def closedMessage : String := "confined executor has shut down"

/-- A thread with tasks of type `τ` that end with values of type `ρ`. -/
structure Thread (τ ρ : Type) where
  isOpen : Bool
  /-- The tasks that have not run, the next one first. -/
  waiting : List τ
  /-- The tasks that have run, in order, with their ends. -/
  ended : List (τ × Outcome ρ)

namespace Thread

variable {τ ρ σ : Type}

/-- A thread that has just started. -/
def fresh : Thread τ ρ := ⟨true, [], []⟩

/-- The tasks that were accepted, in order. -/
def accepted (t : Thread τ ρ) : List τ := t.ended.map (·.1) ++ t.waiting

/-- Queues a task and numbers it. A closed thread refuses. -/
def submit? (t : Thread τ ρ) (x : τ) : Option (Nat × Thread τ ρ) :=
  if t.isOpen then some (t.accepted.length, { t with waiting := t.waiting ++ [x] }) else none

/-- The thread after it was told to accept no more tasks. -/
def close (t : Thread τ ρ) : Thread τ ρ := { t with isOpen := false }

/-- How the task with a number ended, if it has run. -/
def outcome? (t : Thread τ ρ) (k : Nat) : Option (Outcome ρ) := t.ended[k]?.map (·.2)

/-- The texts of the panics in which tasks ended, in order. -/
def panics (t : Thread τ ρ) : List String := t.ended.filterMap (·.2.panicText?)

/-- Runs the next task on the shared state. A thread without tasks does nothing. -/
def step (run : τ → σ → Effect σ ρ) (t : Thread τ ρ) (s : σ) : Thread τ ρ × σ :=
  match t.waiting with
  | [] => (t, s)
  | x :: xs =>
    let e := run x s
    (⟨t.isOpen && !e.closes, xs, t.ended ++ [(x, e.outcome)]⟩, e.state)

/-- Runs every task that waits. -/
def drain (run : τ → σ → Effect σ ρ) (t : Thread τ ρ) (s : σ) : Thread τ ρ × σ :=
  Nat.repeat (fun p => step run p.1 p.2) t.waiting.length (t, s)

/-! ### What each operation does to the accepted tasks -/

theorem length_accepted (t : Thread τ ρ) :
    t.accepted.length = t.ended.length + t.waiting.length := by
  simp [accepted]

theorem submit?_of_open {t : Thread τ ρ} (x : τ) (h : t.isOpen = true) :
    t.submit? x = some (t.accepted.length, { t with waiting := t.waiting ++ [x] }) := by
  simp [submit?, h]

theorem submit?_of_closed {t : Thread τ ρ} (x : τ) (h : t.isOpen = false) : t.submit? x = none := by
  simp [submit?, h]

/-- A task that is accepted comes after all that were accepted before it. -/
theorem accepted_of_submit? {t u : Thread τ ρ} {x : τ} {k : Nat} (h : t.submit? x = some (k, u)) :
    u.accepted = t.accepted ++ [x] := by
  unfold submit? at h
  split at h
  · obtain ⟨rfl, rfl⟩ := Prod.mk.inj (Option.some.inj h)
    simp [accepted]
  · exact nomatch h

@[simp] theorem accepted_close (t : Thread τ ρ) : t.close.accepted = t.accepted := rfl

@[simp] theorem accepted_step (run : τ → σ → Effect σ ρ) (t : Thread τ ρ) (s : σ) :
    (t.step run s).1.accepted = t.accepted := by
  rcases t with ⟨isOpen, waiting, ended⟩
  cases waiting <;> simp [step, accepted]

theorem length_waiting_step (run : τ → σ → Effect σ ρ) (t : Thread τ ρ) (s : σ) :
    (t.step run s).1.waiting.length = t.waiting.length - 1 := by
  rcases t with ⟨isOpen, waiting, ended⟩
  cases waiting <;> simp [step]

end Thread

end WireCatalog.Worker
