import ReviewStream.Gate.Basic
import ReviewStream.Tracker

/-!
# A build site

A site is a ledger at work: what the build system reports is recorded, the hooks of the event's
lifecycle are told, and notices are sent as long as the outbound queue is open. The gate shares the
lifecycles with foreign hooks, which are told and do nothing else, and looks up in the ledger which
jobs are under way.
-/

namespace ReviewStream

/-- What was seen at a site: a foreign hook was told about a moment of a lifecycle, or the listener
that triggers jobs was handed an event, while the gate knew its patch set to be triggered or not. -/
inductive Sighting (Λ : Type) where
  | told (lifecycle : Λ) (moment : Moment) (event : Event)
  | handed (triggering : Option Bool)
  deriving DecidableEq, Repr

structure Site (Λ : Type) where
  ledger : Ledger := {}
  barrier : Gate.Barrier Unit Λ := {}
  now : Instant := 0
  sending : Bool := true
  seen : List (Sighting Λ) := []
  sent : List Notice := []
  /-- The build queue: items with the names they are asked for by. -/
  waiting : List (String × Gate.QueueItem) := []

namespace Site

variable {Λ : Type} [DecidableEq Λ]

/-- A site with one foreign hook in every lifecycle. -/
def observed : Site Λ := { barrier := { hooks := fun _ => [.foreign ()] } }

def see (s : Site Λ) (x : Sighting Λ) : Site Λ := { s with seen := s.seen ++ [x] }

/-- Sends a notice, if the outbound queue is open. -/
def send (s : Site Λ) (n : Notice) : Site Λ :=
  if s.sending then { s with sent := s.sent ++ [n] } else s

/-- What the hook of a lifecycle does when it is told about a moment. -/
def tell (h : Gate.Hook Unit) (l : Λ) (m : Moment) (e : Event) (s : Site Λ) : Site Λ :=
  match h, m with
  | .scanDone id k, .scanDone => { s with barrier := s.barrier.leave l id k }
  | .scanDone .., _ => s
  | .foreign _, _ => s.see (.told l m e)

def hooks : Fanout (Site Λ) Empty (Gate.Hook Unit) Λ where
  listeners _ := []
  hooks s l := s.barrier.hooks l
  deliver i := i.elim
  tell h l m e s := (.returned, tell h l m e s)

/-- Takes a report about the event of a context. -/
def report (s : Site Λ) (c : Context Λ) (signal : Signal) :
    Except NotAboutPatchSet (Site Λ) :=
  (Tracker.react s.ledger s.now c.event signal).map fun r =>
    let s := r.moments.foldl (fun s m => (hooks.fireIn c m s).2) { s with ledger := r.ledger }
    r.notices.foldl send s

/-- Reports jobs as triggered, up to the first report that is refused. -/
def trigger (c : Context Λ) : List JobName → Site Λ → Site Λ
  | [], s => s
  | job :: rest, s =>
    match s.report c (.triggered job) with
    | .ok s => trigger c rest s
    | .error _ => s

/-- The registry of a site: the gate, and a listener that triggers jobs for every event. -/
def registry (jobs : List JobName) :
    Fanout (Site Λ) (Gate.Barrier.Listener Unit) (Gate.Hook Unit) Λ where
  listeners _ := [.gate, .other ()]
  hooks s l := s.barrier.hooks l
  deliver
    | .gate, c, s => (.returned, { s with barrier := s.barrier.join c })
    | .other _, c, s =>
      (.returned, trigger c jobs (s.see (.handed (c.key?.map s.barrier.isTriggering))))
  tell h l m e s := (.returned, tell h l m e s)

/-- Puts a job into the build queue, under a name that may have been used before. -/
def enqueue (s : Site Λ) (name : String) (job : JobName) (cause : Option PatchSetKey)
    (buildable : Bool) : Site Λ :=
  { s with waiting := (name, { job, cause, inQueueSince := s.now, buildable }) :: s.waiting }

/-- Says whether the queue lets an item pass. -/
def setBuildable (s : Site Λ) (name : String) (buildable : Bool) : Site Λ :=
  { s with waiting := s.waiting.map fun (n, i) =>
      if n = name then (n, { i with buildable }) else (n, i) }

/-- What the gate looks at, the ledger telling which jobs are under way. -/
def view (s : Site Λ) (directory : Gate.Directory) (scheduleDelay : Nat) : Gate.View where
  directory := directory
  scheduleDelay := scheduleDelay
  isTriggering := s.barrier.isTriggering
  isIncomplete := s.ledger.isIncomplete

end Site

end ReviewStream
