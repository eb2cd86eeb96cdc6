import ReviewStream.Event.Parser
import ReviewStream.Fanout
import ReviewStream.Text.Quoted
import ReviewStream.Work.Pool

/-!
# The service

A running service has two pools: one for the events that come in and one for the commands that go
out. Events come in as lines of a stream or already classified, and are handed to the listeners by
the receiving pool, or at once by the one who has them.

What is to be sent to the review server waits in a queue of its own, so that a slow server holds up
nothing else. The queue has no bound and refuses nothing while its pool runs, but a growing backlog
draws a warning.
-/

namespace ReviewStream

inductive Work (Λ : Type) where
  | line (text : String) (provider : Provider)
  | event (context : Context Λ)
  deriving DecidableEq, Repr

/-- The event that a piece of work amounts to. Lines that are no event amount to none. -/
def Work.context? {Λ : Type} (now : Calendar.Timestamp) : Work Λ → Option (Context Λ)
  | .line text provider =>
    (Event.classify now (some provider) text).map fun event => { event, lifecycle := none }
  | .event c => some c

/-- Does a piece of work: its event, if there is one, is handed to all listeners. -/
def Work.perform {Ω ι κ Λ : Type} (F : Fanout Ω ι κ Λ) (now : Calendar.Timestamp) (w : Work Λ)
    (world : Ω) : Outcome × Ω :=
  match w.context? now with
  | some c => F.notify c world
  | none => (.returned, world)

namespace Outbound

/-- A command is known by its name. What it does is up to the one who runs it. -/
structure Command where
  name : String
  deriving DecidableEq, Repr

/-- A command in words. -/
def Command.describe (c : Command) : String :=
  "OutboundCommand \x7b name: " ++ Text.quoted c.name ++ ", .. \x7d"

/-- The backlog from which on a warning is given. -/
def warningThreshold : Nat := 20

/-- How long stopping waits for commands that were begun, in milliseconds. -/
def stopLimit : Nat := 30000

variable {α : Type}

/-- Whether a command that is queued now draws the warning. -/
def warns (p : Pool α) : Bool := warningThreshold ≤ p.queue.length

/-- What came of queueing commands. -/
structure Queued (α : Type) where
  answers : List (Option QueueError)
  warnings : Nat
  pool : Pool α

/-- Queues commands one after another. A command that is refused may draw the warning too. -/
def queueAll (p : Pool α) : List α → Queued α
  | [] => ⟨[], 0, p⟩
  | a :: as =>
    let warned := if warns p then 1 else 0
    let (answer, p) := match p.trySubmit a with
      | .ok p => (none, p)
      | .error e => (some e, p)
    let rest := queueAll p as
    ⟨answer :: rest.answers, warned + rest.warnings, rest.pool⟩

end Outbound

structure Service (Λ : Type) where
  receiving : Pool (Work Λ)
  sending : Pool Outbound.Command
  deriving DecidableEq, Repr

namespace Service

variable {Λ : Type}

def start (receivers senders capacity : Nat) : Except CapacityError (Service Λ) :=
  (Pool.bounded? receivers capacity).map (⟨·, .unbounded senders⟩)

/-- How long stopping waits for events that are being handed out, in milliseconds. -/
def stopLimit : Nat := 10000

/-- Queues incoming work, if there is room for it. -/
def submit? (s : Service Λ) (w : Work Λ) : Option (Except QueueError (Service Λ)) :=
  (s.receiving.submit? w).map fun answer => answer.map fun receiving => { s with receiving }

/-- Queues a command. -/
def command (s : Service Λ) (c : Outbound.Command) : Except QueueError (Service Λ) :=
  (s.sending.trySubmit c).map fun sending => { s with sending }

/-- Stops the receiving pool, then the sending one. -/
def stop (s : Service Λ) : Service Λ :=
  { s with receiving := s.receiving.stop, sending := s.sending.stop }

/-- Does all work that waits, in a world of listeners. -/
def performAll {Ω ι κ : Type} (F : Fanout Ω ι κ Λ) (now : Calendar.Timestamp)
    (run : Outbound.Command → Ω → Ω) (s : Service Λ) (world : Ω) : Ω × Service Λ :=
  let (world, receiving) :=
    s.receiving.performAll (fun work world => (work.perform F now world).2) world
  let (world, sending) := s.sending.performAll run world
  (world, { s with receiving, sending })

end Service

end ReviewStream
