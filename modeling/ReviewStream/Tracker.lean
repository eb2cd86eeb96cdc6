import ReviewStream.Fanout
import ReviewStream.Ledger.Basic

/-!
# Build tracking

The build system reports what happens to the jobs of an event. Each report is recorded in the
ledger. It leads to moments that the lifecycle of the event is told about and to notices that are
sent to the outside. The notice that all builds are completed carries the imprint, which leaves the
ledger with it.
-/

namespace ReviewStream

structure LogLine where
  level : String
  message : String
  fields : List (String × String)
  deriving DecidableEq, Repr

namespace LogLine

/-- The line as it is written: level, message, and the fields as `name=value`. -/
def render (l : LogLine) : String :=
  " ".intercalate (l.level :: l.message :: l.fields.map fun (name, value) => name ++ "=" ++ value)

end LogLine

/-- What is sent to the outside. -/
inductive Notice where
  | started (build : Build) (event : Event) (progress : Progress)
  | completed (imprint : Imprint)
  deriving DecidableEq, Repr

/-- What a report leads to: moments to tell, in order, and then a notice to send. -/
structure Reaction where
  ledger : Ledger
  moments : List Moment
  notices : List Notice
  deriving DecidableEq, Repr

namespace Tracker

/-- Closes a patch set in which nothing is outstanding any more. -/
def closeIfDone (k : PatchSetKey) (r : Reaction) : Reaction :=
  match r.ledger.takeCompleted k with
  | some (i, l) => ⟨l, r.moments ++ [.allCompleted], r.notices ++ [.completed i]⟩
  | none => r

/-- Treats one report about an event. Reports about events that concern no patch set change
nothing. -/
def react (l : Ledger) (now : Instant) (e : Event) (s : Signal) :
    Except NotAboutPatchSet Reaction :=
  (l.record now e s).map fun (k, l) =>
    match s with
    | .triggered job => ⟨l, [.projectTriggered job], []⟩
    | .retriggered job _ => ⟨l, [.projectTriggered job], []⟩
    | .started b =>
      ⟨l, [.buildStarted b], ((l.progress? k).map (Notice.started b e)).toList⟩
    | .completed b => closeIfDone k ⟨l, [.buildCompleted b], []⟩
    | .cancelled _ => closeIfDone k ⟨l, [], []⟩

/-- One report: the event it is about and what happened. -/
structure Report where
  event : Event
  signal : Signal
  deriving DecidableEq, Repr

/-- What a history of reports leads to, each taken at its place in the history. -/
structure Run where
  ledger : Ledger := {}
  time : Instant := 0
  notices : List Notice := []
  deriving DecidableEq, Repr

/-- Adds one report to a history. A refused report only takes time. -/
def Run.step (r : Run) (p : Report) : Run :=
  match react r.ledger r.time p.event p.signal with
  | .ok x => ⟨x.ledger, r.time + 1, r.notices ++ x.notices⟩
  | .error _ => { r with time := r.time + 1 }

/-- The run of a whole history. -/
def Run.ofHistory (ps : List Report) : Run := ps.foldl Run.step {}

end Tracker

/-- What is logged where notices are sent nowhere else. -/
def Notice.log : Notice → LogLine
  | .started b e p =>
    ⟨"INFO", "Build started", [("event", e.render), ("build", b.render), ("progress", p.render)]⟩
  | .completed i =>
    ⟨"INFO", "All builds completed", [("key", i.key.render), ("verdict", i.outcome),
      ("report", Text.trimmedEnd i.statusReport)]⟩

end ReviewStream
