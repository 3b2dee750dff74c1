/-! # Tickets

A ticket stands for the value of a task. The ticket of a task that ran at once holds its value from
the start. Every other ticket is completed by its sender, which sends at most one value; a sender
that goes away without one loses the ticket. Polling takes the value, or the news of the loss, so
each is seen once. -/

namespace WireCatalog.Worker

inductive Ticket (ρ : Type)
  /-- The task ran at once; the value is there until it is taken. -/
  | ready (value : Option ρ)
  /-- The sender has not sent anything. -/
  | pending
  /-- The sender has sent a value that nobody took. -/
  | sent (value : ρ)
  /-- The sender has gone without sending a value. -/
  | lost
  /-- The ticket has given its value, or told that it is lost. -/
  | spent
  deriving DecidableEq, Repr

/-- What a ticket answers when it is asked for its value. -/
inductive Poll (ρ : Type)
  | pending
  | value (r : ρ)
  | lost
  /-- The ticket must not be asked again after it gave its last answer. -/
  | spent
  deriving DecidableEq, Repr

/-- The text of a lost ticket. -/
def lostMessage : String := "confined task was dropped before completing"

/-- The text of a ticket that was asked again after its last answer. -/
def spentMessage : String := "called after complete"

namespace Ticket

variable {ρ : Type}

/-- Whether the value is there because the task ran at once. -/
def isReady : Ticket ρ → Bool
  | ready v => v.isSome
  | _ => false

/-- The answer of a ticket, and the ticket without what it gave. The loss of a value that was there
from the start can be told again and again. -/
def poll : Ticket ρ → Poll ρ × Ticket ρ
  | ready (some r) => (.value r, ready none)
  | ready none => (.lost, ready none)
  | pending => (.pending, pending)
  | sent r => (.value r, spent)
  | lost => (.lost, spent)
  | spent => (.spent, spent)

/-- The ticket after its sender sends a value. -/
def send (r : ρ) : Ticket ρ → Ticket ρ
  | pending => sent r
  | t => t

/-- The ticket after its sender goes away. -/
def lose : Ticket ρ → Ticket ρ
  | pending => lost
  | t => t

end Ticket

end WireCatalog.Worker
