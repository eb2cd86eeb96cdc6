import ReviewStream.Fanout

/-!
# Registration

Listeners register for all events and hooks register with a lifecycle, as often as they like. A
removal takes all registrations of the same listener or hook back. Anybody may register and remove
anybody, also while an event goes round.
-/

namespace ReviewStream

/-- A registration, or the removal of all registrations of somebody. -/
inductive RosterChange (α : Type) where
  | add (x : α)
  | remove (x : α)
  deriving DecidableEq, Repr

namespace RosterChange

variable {α : Type} [DecidableEq α]

def apply : RosterChange α → List α → List α
  | .add x, xs => xs ++ [x]
  | .remove x, xs => xs.filter (· ≠ x)

/-- What a removal answers: whether there was a registration. -/
def answer? : RosterChange α → List α → Option Bool
  | .add _, _ => none
  | .remove x, xs => some (xs.contains x)

end RosterChange

/-- A change among the listeners, or among the hooks of a lifecycle. -/
inductive Deed (ι κ Λ : Type) where
  | listener (change : RosterChange ι)
  | hook (lifecycle : Λ) (change : RosterChange κ)
  deriving DecidableEq, Repr

/-- What happens at a switchboard: a change that is answered, or a call. -/
inductive Occurrence (ι κ Λ : Type) where
  | done (deed : Deed ι κ Λ) (answer : Option Bool)
  | handed (listener : ι) (context : Context Λ)
  | told (hook : κ) (lifecycle : Λ) (moment : Moment) (event : Event)
  deriving DecidableEq, Repr

/-- The registered listeners and hooks, what has happened so far, and what they remember of it. -/
structure Switchboard (σ ι κ Λ : Type) where
  listeners : List ι := []
  hooks : Λ → List κ := fun _ => []
  log : List (Occurrence ι κ Λ) := []
  memory : σ

/-- What a call comes to: the changes that are made in it, and how it ends. -/
structure Call (σ ι κ Λ : Type) where
  deeds : List (Deed ι κ Λ) := []
  outcome : Outcome := .returned
  memory : σ

/-- What listeners and hooks do when they are called. -/
structure Conduct (σ ι κ Λ : Type) where
  receive : ι → Context Λ → Switchboard σ ι κ Λ → Call σ ι κ Λ
  heed : κ → Λ → Moment → Event → Switchboard σ ι κ Λ → Call σ ι κ Λ

namespace Switchboard

variable {σ ι κ Λ : Type} [DecidableEq ι] [DecidableEq κ] [DecidableEq Λ]

def note (w : Switchboard σ ι κ Λ) (x : Occurrence ι κ Λ) : Switchboard σ ι κ Λ :=
  { w with log := w.log ++ [x] }

/-- What a change answers. -/
def answer? (w : Switchboard σ ι κ Λ) : Deed ι κ Λ → Option Bool
  | .listener change => change.answer? w.listeners
  | .hook l change => change.answer? (w.hooks l)

/-- Makes a change. -/
def act (w : Switchboard σ ι κ Λ) (d : Deed ι κ Λ) : Switchboard σ ι κ Λ :=
  let w' := w.note (.done d (w.answer? d))
  match d with
  | .listener change => { w' with listeners := change.apply w.listeners }
  | .hook l change =>
    { w' with hooks := fun l' => if l' = l then change.apply (w.hooks l') else w.hooks l' }

/-- Lets a call take effect. -/
def absorb (w : Switchboard σ ι κ Λ) (x : Call σ ι κ Λ) : Outcome × Switchboard σ ι κ Λ :=
  (x.outcome, { x.deeds.foldl act w with memory := x.memory })

/-- Events go round among those who are registered. -/
def fanout (C : Conduct σ ι κ Λ) : Fanout (Switchboard σ ι κ Λ) ι κ Λ where
  listeners w := w.listeners
  hooks w l := w.hooks l
  deliver i c w := (w.note (.handed i c)).absorb (C.receive i c w)
  tell h l m e w := (w.note (.told h l m e)).absorb (C.heed h l m e w)

end Switchboard

end ReviewStream
