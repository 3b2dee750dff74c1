import WireCatalog.Worker.Executor
import WireCatalog.Worker.Thread

/-! # Jobs

The tasks of a session: they return a value, write to a shared log, tell where they run, panic, run
another job on the confined thread and wait for it, or shut the thread down.

What a job does depends on the `Site` where it runs, of which there are two: the confined thread and
the thread of the caller. A job that is confined runs in place where `Executor.runsInPlace` says so,
which it does everywhere on the confined thread; elsewhere it is handed to the thread, which may
refuse it. -/

namespace WireCatalog.Worker

inductive Job (α : Type)
  | value (v : Option α)
  /-- Appends an entry to the log. -/
  | log (entry : α)
  /-- Tells whether it runs on the confined thread. -/
  | place
  /-- Panics, with a text or with something else. -/
  | panic (message : Option String)
  /-- Runs another job on the confined thread and waits for it. -/
  | nested (inner : Job α)
  | shutdown
  deriving Inhabited, Repr

/-- The value of a job. -/
inductive Result (α : Type)
  | given (v : Option α)
  /-- The length of the log. -/
  | logged (length : Nat)
  | placed (onThread : Bool)
  /-- The value of an inner job, and whether it ran in place. -/
  | nested (ready : Bool) (inner : Result α)
  /-- The inner job panicked on the confined thread. -/
  | nestedLost
  /-- The confined thread did not accept the inner job. -/
  | refused
  | shutDown
  deriving Repr

variable {α : Type}

/-! ### Jobs at a site -/

/-- The end of a job that runs another job in its own place, given the end of that. -/
def Outcome.inPlace : Outcome (Result α) → Outcome (Result α)
  | value r => .value (.nested true r)
  | panic m => .panic m

/-- The value that a job gets from an inner job on the confined thread. -/
def Outcome.nested : Outcome (Result α) → Result α
  | value r => .nested false r
  | panic _ => .nestedLost

/-- What a job finds where it runs, in a state that holds the log. -/
structure Site (α σ : Type) where
  /-- Whether the job is on the confined thread, if there is one. -/
  isConfined? : σ → Option Bool
  log : σ → List α
  append : σ → α → σ
  /-- Hands a job to the confined thread and waits for it. `none` tells that the thread did not
  accept it. -/
  execute? : σ → Job α → Option (Outcome (Result α) × σ)
  shutdown : σ → σ

/-- Runs a job at a site. -/
def Job.runAt {σ : Type} (site : Site α σ) : Job α → σ → Outcome (Result α) × σ
  | value v, s => (.value (.given v), s)
  | log v, s => (.value (.logged ((site.log s).length + 1)), site.append s v)
  | place, s => (.value (.placed ((site.isConfined? s).getD false)), s)
  | panic m, s => (.panic m, s)
  | nested j, s =>
    if Executor.runsInPlace (site.isConfined? s) then
      let (outcome, s) := j.runAt site s
      (outcome.inPlace, s)
    else match site.execute? s j with
      | some (outcome, s) => (.value outcome.nested, s)
      | none => (.value .refused, s)
  | shutdown, s => (.value .shutDown, site.shutdown s)

/-! ### On the confined thread -/

/-- The confined thread. Its state is the log, and whether a job closed the thread. A job there never
hands another one over, and to shut the thread down is only to close it. -/
def Site.confined : Site α (List α × Bool) where
  isConfined? _ := some true
  log s := s.1
  append s v := (s.1 ++ [v], s.2)
  execute? _ _ := none
  shutdown s := (s.1, true)

/-- What a job does on the confined thread, given the log. -/
def Job.effect (j : Job α) (l : List α) : Effect (List α) (Result α) :=
  let (outcome, l, closes) := j.runAt .confined (l, false)
  ⟨outcome, l, closes⟩

/-! ### On the thread of the caller -/

/-- At most one confined thread, and what outlives it. -/
structure Workplace (α : Type) where
  thread : Option (Thread (Job α) (Result α))
  log : List α
  /-- The panics of the threads that were replaced. -/
  earlierPanics : List String

namespace Workplace

def empty : Workplace α := ⟨none, [], []⟩

/-- Whether the caller is the confined thread, if there is one. -/
def isConfined? (w : Workplace α) : Option Bool := w.thread.map fun _ => false

/-- The panics on every thread, in order. -/
def panics (w : Workplace α) : List String :=
  w.earlierPanics ++ w.thread.elim [] Thread.panics

/-- Lets the thread run every task that waits. -/
def drain (w : Workplace α) : Workplace α :=
  match w.thread with
  | none => w
  | some t =>
    let (t, log) := t.drain Job.effect w.log
    { w with thread := some t, log := log }

/-- Tells the thread to accept no more jobs. -/
def close (w : Workplace α) : Workplace α := { w with thread := w.thread.map Thread.close }

/-- Closes the thread and waits until it has run what it accepted. -/
def shutdown (w : Workplace α) : Workplace α := w.close.drain

/-- Shuts the thread down and starts another one. -/
def spawn (w : Workplace α) : Workplace α :=
  let w := w.shutdown
  { w with thread := some .fresh, earlierPanics := w.panics }

/-- Hands a job to the thread and waits for it. `none` tells that the thread did not accept it. -/
def confine? (w : Workplace α) (j : Job α) : Option (Outcome (Result α) × Workplace α) := do
  let t ← w.thread
  let (k, t) ← t.submit? j
  let w := drain { w with thread := some t }
  let outcome ← w.thread.bind (·.outcome? k)
  return (outcome, w)

/-- The thread of the caller. -/
def site : Site α (Workplace α) where
  isConfined? := isConfined?
  log := log
  append w v := { w with log := w.log ++ [v] }
  execute? := confine?
  shutdown := shutdown

end Workplace

/-- Runs a job on the thread of the caller. -/
def Job.run (j : Job α) (w : Workplace α) : Outcome (Result α) × Workplace α :=
  j.runAt Workplace.site w

end WireCatalog.Worker
