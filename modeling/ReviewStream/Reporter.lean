import ReviewStream.Tracker

/-!
# Taking reports

A report is recorded in the ledger first. Then the hooks of the lifecycle are told, and a notice is
sent. Hooks act on the world in which the ledger is kept, and one that breaks off ends the treatment
of the report where it is.
-/

namespace ReviewStream

/-- How a report was answered. -/
inductive Answer where
  | taken
  | refused (reason : NotAboutPatchSet)
  /-- A hook broke off. -/
  | brokeOff
  deriving DecidableEq, Repr

/-- A world in which a ledger is kept and notices are sent. Sending leaves the ledger alone. -/
structure Reporter (Ω ι κ Λ : Type) extends Fanout Ω ι κ Λ where
  ledger : Ω → Ledger
  setLedger : Ledger → Ω → Ω
  send : Notice → Ω → Ω
  ledger_setLedger : ∀ l w, ledger (setLedger l w) = l
  ledger_send : ∀ n w, ledger (send n w) = ledger w

namespace Reporter

variable {Ω ι κ Λ : Type}

/-- Tells the hooks of a context about a moment and goes on, unless one of them breaks off. -/
def announce (S : Reporter Ω ι κ Λ) (c : Context Λ) (m : Moment) (rest : Ω → Answer × Ω) (w : Ω) :
    Answer × Ω :=
  match S.fireIn c m w with
  | (.brokeOff, w') => (.brokeOff, w')
  | (_, w') => rest w'

/-- Sends how far the builds of a patch set are after the start of one of them. -/
def sendProgress (S : Reporter Ω ι κ Λ) (c : Context Λ) (b : Build) (k : PatchSetKey) (w : Ω) :
    Answer × Ω :=
  match (S.ledger w).progress? k with
  | some p => (.taken, S.send (.started b c.event p) w)
  | none => (.taken, w)

/-- Closes a patch set in which nothing is outstanding any more. -/
def close (S : Reporter Ω ι κ Λ) (c : Context Λ) (k : PatchSetKey) (w : Ω) : Answer × Ω :=
  match (S.ledger w).takeCompleted k with
  | some (i, l) =>
    S.announce c .allCompleted (fun w => (.taken, S.send (.completed i) w)) (S.setLedger l w)
  | none => (.taken, w)

/-- Takes a report about the event of a context. -/
def take (S : Reporter Ω ι κ Λ) (now : Instant) (c : Context Λ) (s : Signal) (w : Ω) :
    Answer × Ω :=
  match (S.ledger w).record now c.event s with
  | .error e => (.refused e, w)
  | .ok (k, l) =>
    let w := S.setLedger l w
    match s with
    | .triggered job => S.announce c (.projectTriggered job) (fun w => (.taken, w)) w
    | .retriggered job _ => S.announce c (.projectTriggered job) (fun w => (.taken, w)) w
    | .started b => S.announce c (.buildStarted b) (S.sendProgress c b k) w
    | .completed b => S.announce c (.buildCompleted b) (S.close c k) w
    | .cancelled _ => S.close c k w

end Reporter

end ReviewStream
