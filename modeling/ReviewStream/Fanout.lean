import ReviewStream.Build
import ReviewStream.Event.Basic

/-!
# Fan-out of events

An event is handed to the registered listeners one after another. It may carry a lifecycle, whose
hooks are told about the moments in the treatment of the event. Listeners and hooks act on a world
of any kind, in which they may also register and remove each other, so every round goes over the
list as it was when the round began.
-/

namespace ReviewStream

/-- What the hooks of a lifecycle are told about. -/
inductive Moment where
  | scanStarting
  | scanDone
  | projectTriggered (job : JobName)
  | buildStarted (build : Build)
  | buildCompleted (build : Build)
  | allCompleted
  deriving DecidableEq, Repr

def Moment.describe : Moment → String
  | .scanStarting => "scan starting"
  | .scanDone => "scan done"
  | .projectTriggered job => "triggered " ++ job
  | .buildStarted b => "started " ++ b.render
  | .buildCompleted b => "completed " ++ b.render
  | .allCompleted => "all completed"

/-- An event together with the lifecycle it carries, if any. -/
structure Context (Λ : Type) where
  event : Event
  lifecycle : Option Λ
  deriving DecidableEq, Repr

def Context.key? {Λ : Type} (c : Context Λ) : Option PatchSetKey := c.event.key?

/-- How a call of a listener ended: it returned, it refused the event, or it broke off. -/
inductive Outcome where
  | returned
  | refused
  | brokeOff
  deriving DecidableEq, Repr

/-- The listeners and hooks of a world, and what they do to it. -/
structure Fanout (Ω ι κ Λ : Type) where
  listeners : Ω → List ι
  hooks : Ω → Λ → List κ
  deliver : ι → Context Λ → Ω → Outcome × Ω
  tell : κ → Λ → Moment → Event → Ω → Outcome × Ω

namespace Fanout

variable {Ω ι κ Λ : Type}

/-- Tells hooks about a moment. A hook that breaks off keeps the ones after it from being told. -/
def tellEach (F : Fanout Ω ι κ Λ) (l : Λ) (m : Moment) (e : Event) : List κ → Ω → Outcome × Ω
  | [], w => (.returned, w)
  | h :: hs, w =>
    match F.tell h l m e w with
    | (.brokeOff, w') => (.brokeOff, w')
    | (_, w') => tellEach F l m e hs w'

/-- Tells the hooks that a lifecycle has now about a moment. -/
def fire (F : Fanout Ω ι κ Λ) (l : Λ) (m : Moment) (e : Event) (w : Ω) : Outcome × Ω :=
  F.tellEach l m e (F.hooks w l) w

/-- Tells the hooks of a context, which may carry no lifecycle. -/
def fireIn (F : Fanout Ω ι κ Λ) (c : Context Λ) (m : Moment) (w : Ω) : Outcome × Ω :=
  match c.lifecycle with
  | some l => F.fire l m c.event w
  | none => (.returned, w)

/-- Hands an event to listeners, however the calls end. -/
def deliverEach (F : Fanout Ω ι κ Λ) (c : Context Λ) : List ι → Ω → Ω
  | [], w => w
  | i :: is, w => deliverEach F c is (F.deliver i c w).2

/-- Hands an event to all listeners, between the two moments of the scan that its lifecycle is told
about. -/
def notify (F : Fanout Ω ι κ Λ) (c : Context Λ) (w : Ω) : Outcome × Ω :=
  match F.fireIn c .scanStarting w with
  | (.brokeOff, w') => (.brokeOff, w')
  | (_, w') => F.fireIn c .scanDone (F.deliverEach c (F.listeners w') w')

end Fanout

end ReviewStream
