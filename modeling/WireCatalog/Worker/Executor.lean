/-! # Executors

Work may be confined to an executor, which runs its tasks one at a time in the order of their
submission. What becomes of a task is its fate. A caller that waits for each of its tasks finds that
a task that runs has run when it goes on. -/

namespace WireCatalog

/-- What becomes of a task. -/
inductive Fate
  /-- It runs at once, on the thread of the caller. -/
  | inline
  /-- It is queued and runs before its ticket resolves. -/
  | queued
  /-- It is not accepted. -/
  | rejected
  /-- It is accepted and never runs. -/
  | dropped
  deriving DecidableEq, Repr

/-- Whether a task of this fate runs. -/
def Fate.runs : Fate → Bool
  | inline => true
  | queued => true
  | rejected => false
  | dropped => false

inductive Executor
  /-- No executor: callers run their tasks themselves. -/
  | none
  /-- A thread that runs the tasks, until it is closed. -/
  | thread (isOpen : Bool)
  /-- Accepts no task. -/
  | rejecting
  /-- Accepts tasks and runs none. -/
  | dropping
  /-- Takes every caller for its own thread. -/
  | claiming
  deriving DecidableEq, Repr

namespace Executor

/-! ### The place of a task

A task runs in the place of its caller if there is no executor, or if the caller is on the thread of
the executor; otherwise it is queued. So a task that confines another one to its own thread never
waits for itself. -/

/-- Whether a task runs in the place of its caller. The argument tells whether the caller is on the
thread of the executor, if there is an executor. -/
def runsInPlace (isConfined? : Option Bool) : Bool := isConfined?.getD true

/-- Whether the executor takes a caller from another thread for its own thread. -/
def isConfined? : Executor → Option Bool
  | none => .none
  | thread _ => some false
  | rejecting => some false
  | dropping => some false
  | claiming => some true

/-- What becomes of a task that the executor is given to queue. -/
def queue : Executor → Fate
  | thread true => .queued
  | dropping => .dropped
  | _ => .rejected

/-- What becomes of a task that is handed to the executor from another thread. -/
def fate (e : Executor) : Fate := if runsInPlace e.isConfined? then .inline else e.queue

def isPresent (e : Executor) : Bool := e != none

/-- The executor after it was told to accept no more tasks. Only a thread can be told. -/
def close : Executor → Executor
  | thread _ => thread false
  | e => e

end Executor

end WireCatalog
