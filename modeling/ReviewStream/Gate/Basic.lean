import ReviewStream.Build
import ReviewStream.Event.Basic
import ReviewStream.Fanout
import ReviewStream.Json.Basic
import ReviewStream.Text.Basic

/-!
# The dependency gate

The gate says whether a job that waits in the build queue may run. It objects while jobs of the same
patch set may still be missing from the queue, while they are being triggered, and while one that
the job depends on is under way. The directory knows jobs by name, each with the names of the jobs
it depends on as one text in which they are separated by commas.

While an event is handed to the listeners, jobs of its patch set are still being triggered. The gate
is a listener itself: it notes the patch set of every event with a lifecycle, and hooks into the
lifecycle to be told when the scan is done. Then it strikes the patch set out again and removes the
hook.
-/

namespace ReviewStream.Gate

/-- Known jobs, the latest entry first. -/
structure Directory where
  entries : List (JobName × Option String) := []
  deriving DecidableEq, Repr

/-- The names in a comma separated text, trimmed and without the blank ones. -/
def nameList (s : String) : List JobName :=
  (Text.pieces ',' s.toList).filterMap fun p =>
    let name := Text.trim p
    if name.isEmpty then none else some (String.ofList name)

namespace Directory

/-- Whether the job is known. -/
def knows (d : Directory) (job : JobName) : Bool := d.entries.any fun e => e.1 = job

/-- The dependencies of a job as they were written down. -/
def dependencyText? (d : Directory) (job : JobName) : Option String :=
  (d.entries.find? fun e => e.1 = job).bind (·.2)

/-- Makes a job known with its dependencies, whatever was known about it before. -/
def add (d : Directory) (job : JobName) (dependencies : Option String) : Directory :=
  ⟨(job, dependencies) :: d.entries⟩

/-- Makes a job known, unless it is already. -/
def mention (d : Directory) (job : JobName) : Directory :=
  if d.knows job then d else d.add job none

/-- The directory of configured dependencies. The jobs that others depend on are known too. -/
def ofDependencies (entries : List (JobName × String)) : Directory :=
  entries.foldl
    (fun d (job, names) => ((nameList names).foldl mention d).add job (some names)) {}

/-- The known jobs that a job depends on, in the order in which they were written down. -/
def dependencies (d : Directory) (job : JobName) : List JobName :=
  match d.dependencyText? job with
  | some s => (nameList s).filter d.knows
  | none => []

end Directory

/-- Why a job may not run yet. -/
inductive Blockage where
  | waitingForQueue
  | waitingForTriggers
  | waitingForBuilds (jobs : List JobName)
  deriving DecidableEq, Repr

namespace Blockage

/-- The jobs that block. -/
def jobs : Blockage → List JobName
  | .waitingForBuilds js => js
  | _ => []

def render : Blockage → String
  | .waitingForQueue => "Waiting to ensure other dependent jobs are in the queue"
  | .waitingForTriggers => "Waiting for other jobs to be triggered"
  | .waitingForBuilds js =>
    "Waiting for dependency builds to finish: " ++ ", ".intercalate js

def toJson : Blockage → Json
  | .waitingForQueue => .object [("reason", .string "waiting_to_ensure_other_jobs_are_in_queue")]
  | .waitingForTriggers => .object [("reason", .string "waiting_for_other_jobs_to_trigger")]
  | .waitingForBuilds js =>
    .object [("reason", .string "dependent_build_is_building"), ("jobs", .array (js.map .string))]

end Blockage

/-- A job in the build queue. -/
structure QueueItem where
  job : JobName
  /-- The patch set of the event that caused it, if it was one about a patch set. -/
  cause : Option PatchSetKey
  inQueueSince : Nat
  /-- Whether the queue let it pass already. -/
  buildable : Bool
  deriving DecidableEq, Repr

/-- What the gate looks at: the directory, how long items wait at first, which patch sets are being
triggered, and which jobs of a patch set are under way. -/
structure View where
  directory : Directory
  scheduleDelay : Nat
  isTriggering : PatchSetKey → Bool
  isIncomplete : JobName → PatchSetKey → Bool

/-- How long items wait at first if nothing else is configured, in milliseconds. -/
def defaultScheduleDelay : Nat := 3000

/-- The objection against running an item now, if there is one. -/
def View.blockage? (v : View) (item : QueueItem) (now : Nat) : Option Blockage :=
  match item.cause with
  | none => none
  | some k =>
    let dependencies := v.directory.dependencies item.job
    if item.buildable || dependencies.isEmpty then none
    else if now - item.inQueueSince < v.scheduleDelay then some .waitingForQueue
    else if v.isTriggering k then some .waitingForTriggers
    else match dependencies.filter (v.isIncomplete · k) with
      | [] => none
      | js => some (.waitingForBuilds js)

/-- A hook of a lifecycle: one of the gate's, which carries the patch set it was put in for and a
number of its own, or a foreign one. -/
inductive Hook (κ : Type) where
  | scanDone (id : Nat) (key : PatchSetKey)
  | foreign (hook : κ)
  deriving DecidableEq, Repr

/-- The patch sets that are being triggered, the hooks of all lifecycles, and the number of the next
hook of the gate. -/
structure Barrier (κ Λ : Type) where
  triggering : List PatchSetKey := []
  hooks : Λ → List (Hook κ) := fun _ => []
  nextId : Nat := 0

namespace Barrier

variable {κ Λ : Type} [DecidableEq κ] [DecidableEq Λ]

/-- Whether jobs of the patch set are being triggered. -/
def isTriggering (b : Barrier κ Λ) (k : PatchSetKey) : Bool := b.triggering.contains k

def changeHooks (b : Barrier κ Λ) (l : Λ) (change : List (Hook κ) → List (Hook κ)) :
    Barrier κ Λ :=
  { b with hooks := fun l' => if l' = l then change (b.hooks l') else b.hooks l' }

def addHook (b : Barrier κ Λ) (l : Λ) (h : Hook κ) : Barrier κ Λ :=
  b.changeHooks l (· ++ [h])

/-- Removes a hook from a lifecycle, as often as it is there. -/
def removeHook (b : Barrier κ Λ) (l : Λ) (h : Hook κ) : Barrier κ Λ :=
  b.changeHooks l (·.filter (· ≠ h))

/-- Treats an event as a listener: if it concerns a patch set and carries a lifecycle, the patch set
is being triggered until the scan is done. -/
def join (b : Barrier κ Λ) (c : Context Λ) : Barrier κ Λ :=
  match c.lifecycle, c.key? with
  | some l, some k =>
    let b := b.addHook l (.scanDone b.nextId k)
    { b with
      nextId := b.nextId + 1
      triggering := if b.triggering.contains k then b.triggering else k :: b.triggering }
  | _, _ => b

/-- What a hook of the gate does when the scan is done. -/
def leave (b : Barrier κ Λ) (l : Λ) (id : Nat) (k : PatchSetKey) : Barrier κ Λ :=
  { b.removeHook l (.scanDone id k) with triggering := b.triggering.filter (· ≠ k) }

/-- Listeners beside the gate. -/
inductive Listener (ι : Type) where
  | gate
  | other (listener : ι)
  deriving DecidableEq, Repr

/-- The gate among listeners and hooks that do not touch it and end their calls in any way. -/
def fanout {ι : Type} (listeners : List (Listener ι)) (outcome : ι → Outcome)
    (hookOutcome : κ → Moment → Outcome) : Fanout (Barrier κ Λ) (Listener ι) (Hook κ) Λ where
  listeners _ := listeners
  hooks b l := b.hooks l
  deliver
    | .gate, c, b => (.returned, b.join c)
    | .other i, _, b => (outcome i, b)
  tell
    | .scanDone id k, l, .scanDone, _, b => (.returned, b.leave l id k)
    | .scanDone _ _, _, _, _, b => (.returned, b)
    | .foreign h, _, m, _, b => (hookOutcome h m, b)

end Barrier

end ReviewStream.Gate
