import ReviewStream.Build
import ReviewStream.Event.Basic

/-!
# Entries and imprints

An entry says how far one job has come for a patch set: it was triggered, its build was started, the
build was completed or the job was cancelled. The operations on an entry take the time at which
they happen. The imprint of a patch set holds the event that caused builds and one entry for each
job that reacted to it, in the order in which the jobs were first heard of.
-/

namespace ReviewStream

/-- A reading of the clock. -/
abbrev Instant := Nat

structure Entry where
  job : JobName
  build : Option Build := none
  completed : Bool := false
  cancelled : Bool := false
  customUrl : Option String := none
  unsuccessfulMessage : Option String := none
  triggeredAt : Instant
  startedAt : Option Instant := none
  completedAt : Option Instant := none
  deriving DecidableEq, Repr

namespace Entry

def triggered (job : JobName) (now : Instant) : Entry := { job, triggeredAt := now }

/-- The entry with `b` as its running build. -/
def start (e : Entry) (b : Build) (now : Instant) : Entry :=
  { e with build := some b, startedAt := some now }

/-- A job whose first sign of life is a running build. -/
def started (b : Build) (now : Instant) : Entry := (triggered b.job now).start b now

/-- The entry with everything about it done. -/
def close (e : Entry) (now : Instant) : Entry :=
  { e with completed := true, completedAt := some now }

/-- The entry with `b` as its finished build. A build that was never reported started counts as
started now. -/
def finish (e : Entry) (b : Build) (now : Instant) : Entry :=
  (if e.build.isNone then e.start b now else { e with build := some b }).close now

/-- The entry as if its job had not run yet. What users wrote on it stays. -/
def reset (e : Entry) : Entry :=
  { e with build := none, startedAt := none, cancelled := false, completed := false,
           completedAt := none }

/-- The entry with its job called off. -/
def cancel (e : Entry) (now : Instant) : Entry := { e.close now with cancelled := true }

def result (e : Entry) : Option BuildResult := e.build.bind Build.result

/-- Whether the entry is done and its build ended in `r`. -/
def completedWith (e : Entry) (r : BuildResult) : Bool := e.completed && e.result = some r

/-- Whether the job still holds up others: a build is running, or one is to be expected. -/
def isBuilding (e : Entry) : Bool := if e.build.isSome then !e.completed else !e.cancelled

def render (e : Entry) : String :=
  let state := match e.build with
    | none => "XX: NULL"
    | some b =>
      Build.renderNumber b.number ++ ": " ++ (b.result.map BuildResult.name).getD "BUILDING"
  "  Project/Build: [" ++ e.job ++ "]: [" ++ state ++ "] Completed: " ++
    (if e.completed then "true" else "false") ++ "\n"

end Entry

/-- What is reported about a job. -/
inductive Signal where
  | triggered (job : JobName)
  /-- The job is to run again; the other builds of its patch set are given for the case that they
  are not known any more. -/
  | retriggered (job : JobName) (others : List Build)
  | started (build : Build)
  | completed (build : Build)
  | cancelled (job : JobName)
  deriving DecidableEq, Repr

def Signal.job : Signal → JobName
  | .triggered j => j
  | .retriggered j _ => j
  | .started b => b.job
  | .completed b => b.job
  | .cancelled j => j

/-- How many builds of a patch set were started. -/
structure Progress where
  key : PatchSetKey
  total : Nat
  started : Nat
  deriving DecidableEq, Repr

namespace Progress

/-- The progress as `(started/total)`, with `offset` builds left out of the count. -/
def renderWithout (p : Progress) (offset : Nat) : String :=
  "(" ++ Nat.repr (p.started - offset) ++ "/" ++ Nat.repr p.total ++ ")"

def render (p : Progress) : String := p.renderWithout 0

end Progress

structure Imprint where
  key : PatchSetKey
  event : Event
  entries : List Entry
  deriving DecidableEq, Repr

/-- Changes the first entry of a job, or adds a fresh one at the end. -/
def upsertEntry (job : JobName) (change : Entry → Entry) (fresh : Entry) : List Entry → List Entry
  | [] => [fresh]
  | e :: rest =>
    if e.job = job then change e :: rest else e :: upsertEntry job change fresh rest

/-- Changes the first entry of a job, if there is one. -/
def modifyEntry (job : JobName) (change : Entry → Entry) : List Entry → List Entry
  | [] => []
  | e :: rest => if e.job = job then change e :: rest else e :: modifyEntry job change rest

namespace Imprint

def entryOf? (i : Imprint) (job : JobName) : Option Entry := i.entries.find? fun e => e.job = job

/-- Changes the entry of a job, or adds a fresh one. -/
def upsert (i : Imprint) (job : JobName) (change : Entry → Entry) (fresh : Entry) : Imprint :=
  { i with entries := upsertEntry job change fresh i.entries }

def trigger (i : Imprint) (job : JobName) (now : Instant) : Imprint :=
  i.upsert job id (.triggered job now)

def start (i : Imprint) (b : Build) (now : Instant) : Imprint :=
  i.upsert b.job (·.start b now) (.started b now)

def complete (i : Imprint) (b : Build) (now : Instant) : Imprint :=
  i.upsert b.job (·.finish b now) ((Entry.started b now).close now)

/-- Records a build whose state is known: running or finished. -/
def know (i : Imprint) (now : Instant) (b : Build) : Imprint :=
  if b.isRunning then i.start b now else i.complete b now

def reset (i : Imprint) (job : JobName) (now : Instant) : Imprint :=
  i.upsert job Entry.reset (.triggered job now)

def cancel (i : Imprint) (job : JobName) (now : Instant) : Imprint :=
  i.upsert job (·.cancel now) ((Entry.triggered job now).cancel now)

/-- Records a signal. An imprint made for it takes the other builds of a retriggered job over. -/
def record (i : Imprint) (fresh : Bool) (now : Instant) : Signal → Imprint
  | .triggered job => i.trigger job now
  | .retriggered job others =>
    (if fresh then others.foldl (fun i b => i.know now b) i else i).reset job now
  | .started b => i.start b now
  | .completed b => i.complete b now
  | .cancelled job => i.cancel job now

def removeJob (i : Imprint) (job : JobName) : Imprint :=
  { i with entries := i.entries.filter fun e => e.job ≠ job }

def annotate (i : Imprint) (job : JobName) (change : Entry → Entry) : Imprint :=
  { i with entries := modifyEntry job change i.entries }

def allStarted (i : Imprint) : Bool := i.entries.all fun e => e.build.isSome

def allCompleted (i : Imprint) : Bool := i.entries.all fun e => e.completed

def progress (i : Imprint) : Progress :=
  { key := i.key, total := i.entries.length
    started := (i.entries.filter fun e => e.build.isSome).length }

def builds (i : Imprint) : List Build := i.entries.filterMap Entry.build

def statusReport (i : Imprint) : String := String.join (i.entries.map Entry.render)

/-! How the builds of a patch set ended. -/

def allSuccessful (i : Imprint) : Bool := i.entries.all (·.completedWith .success)

def anyFailed (i : Imprint) : Bool := i.entries.any (·.completedWith .failure)

def anyUnstable (i : Imprint) : Bool := i.entries.any (·.completedWith .unstable)

/-- Cancelled jobs do not count here. -/
def allNotBuilt (i : Imprint) : Bool :=
  (i.entries.filter fun e => !e.cancelled).all (·.completedWith .notBuilt)

def outcome (i : Imprint) : String :=
  if i.allSuccessful then "successful"
  else if i.anyFailed then "failed"
  else if i.anyUnstable then "unstable"
  else if i.allNotBuilt then "not built"
  else "mixed"

end Imprint

end ReviewStream
