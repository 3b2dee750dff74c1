import WireCatalog.Assoc
import WireCatalog.Worker.Job
import WireCatalog.Worker.Ticket

/-! # Sessions

One caller with a workplace, the tickets that it holds and the senders of tickets that it made
itself. Tickets and senders are kept under numbers of the caller's choice. The confined thread is
idle between the caller's actions: a job that it accepts is run before the caller goes on. -/

namespace WireCatalog.Worker

structure Session (α : Type) where
  workplace : Workplace α
  tickets : Assoc Nat (Ticket (Result α))
  senders : List Nat

/-- What the caller gets for a job. -/
inductive Started
  /-- A ticket; `ready` tells whether the job ran on the thread of the caller. -/
  | accepted (ready : Bool)
  | closed
  /-- The job ran on the thread of the caller and panicked there. -/
  | panicked (text : String)
  deriving DecidableEq, Repr

/-- What a wait comes to. -/
inductive Waited (ρ : Type)
  | noTicket
  /-- The sender is still there, so the wait would not end. -/
  | blocked
  | value (r : ρ)
  | lost
  | panicked (text : String)
  deriving DecidableEq, Repr

namespace Session

variable {α : Type}

def empty : Session α := ⟨.empty, [], []⟩

/-! ### The thread -/

/-- Starts a thread of the given name in place of an earlier one. -/
def spawn (s : Session α) (name : String) : Except NameFault (Session α) :=
  (checkName name).map fun _ => { s with workplace := s.workplace.spawn }

def close (s : Session α) : Session α := { s with workplace := s.workplace.close }

def shutdown (s : Session α) : Session α := { s with workplace := s.workplace.shutdown }

/-- Whether the thread is closed, if there is one. -/
def isClosed? (s : Session α) : Option Bool := s.workplace.thread.map (!·.isOpen)

/-- Whether the caller is the confined thread, if there is one. -/
def isConfined? (s : Session α) : Option Bool := s.workplace.isConfined?

/-- The executor that the thread is, or none. -/
def executor (s : Session α) : Executor :=
  match s.workplace.thread with
  | some t => .thread t.isOpen
  | none => .none

/-! ### Jobs -/

/-- Keeps a ticket under a number. -/
def keep (s : Session α) (n : Nat) (t : Ticket (Result α)) : Session α :=
  { s with tickets := s.tickets.put n t }

/-- The ticket of a queued job that has ended. -/
def settled : Outcome (Result α) → Ticket (Result α)
  | .value r => Ticket.pending.send r
  | .panic _ => Ticket.pending.lose

/-- Starts a job of the given fate and keeps its ticket under a number. -/
def start (s : Session α) (n : Nat) (fate : Fate) (j : Job α) : Started × Session α :=
  match fate with
  | .rejected => (.closed, s)
  | .dropped => (.accepted false, s.keep n (Ticket.pending.lose))
  | .inline =>
    match j.run s.workplace with
    | (.value r, w) => (.accepted true, { s with workplace := w }.keep n (.ready (some r)))
    | (.panic m, w) => (.panicked (panicText m), { s with workplace := w })
  | .queued =>
    match s.workplace.confine? j with
    | some (outcome, w) => (.accepted false, { s with workplace := w }.keep n (settled outcome))
    | none => (.closed, s)

/-! ### Tickets and senders -/

/-- Makes a ticket that holds its value. -/
def makeReady (s : Session α) (n : Nat) (v : Option α) : Session α :=
  s.keep n (.ready (some (.given v)))

/-- Makes a ticket together with its sender. -/
def makeChannel (s : Session α) (n : Nat) : Session α :=
  { s.keep n .pending with senders := n :: s.senders }

/-- Changes the ticket with a number, if it is there. -/
def change (s : Session α) (n : Nat) (f : Ticket (Result α) → Ticket (Result α)) : Session α :=
  match s.tickets.get? n with
  | some t => s.keep n (f t)
  | none => s

/-- Uses a sender up. `none` tells that it is not there, and otherwise the answer tells whether its
ticket still is. -/
def send (s : Session α) (n : Nat) (v : Option α) : Option Bool × Session α :=
  if n ∈ s.senders then
    (some (s.tickets.get? n).isSome,
      { s.change n (Ticket.send (.given v)) with senders := s.senders.filter (· != n) })
  else (none, s)

/-- Drops a sender. The answer tells whether it was there. -/
def dropSender (s : Session α) (n : Nat) : Bool × Session α :=
  if n ∈ s.senders then
    (true, { s.change n Ticket.lose with senders := s.senders.filter (· != n) })
  else (false, s)

/-- The session without a ticket. -/
def forget (s : Session α) (n : Nat) : Session α := { s with tickets := s.tickets.erase n }

/-- Drops a ticket. The answer tells whether it was there. -/
def dropTicket (s : Session α) (n : Nat) : Bool × Session α :=
  ((s.tickets.get? n).isSome, s.forget n)

/-- Whether a ticket holds its value because the job ran at once. -/
def isReady? (s : Session α) (n : Nat) : Option Bool := (s.tickets.get? n).map Ticket.isReady

/-- Asks a ticket for its value. -/
def poll (s : Session α) (n : Nat) : Option (Poll (Result α)) × Session α :=
  match s.tickets.get? n with
  | some t => (some t.poll.1, s.keep n t.poll.2)
  | none => (none, s)

/-- Waits for the value of a ticket and uses the ticket up. A wait that is made `apart`, on a thread
of its own, takes a panic for a lost ticket. The caller does not wait while it holds the sender
itself, whether or not it still has the ticket. -/
def wait (s : Session α) (n : Nat) (apart : Bool) : Waited (Result α) × Session α :=
  if n ∈ s.senders then (.blocked, s) else
  match s.tickets.get? n with
  | none => (.noTicket, s)
  | some t =>
    match t.poll.1 with
    | .pending => (.blocked, s)
    | .value r => (.value r, s.forget n)
    | .lost => (.lost, s.forget n)
    | .spent => (if apart then .lost else .panicked spentMessage, s.forget n)

end Session

end WireCatalog.Worker
