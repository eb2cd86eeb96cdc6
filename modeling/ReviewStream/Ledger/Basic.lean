import ReviewStream.Ledger.Imprint
import ReviewStream.Wire

/-!
# The build ledger

The ledger holds the imprints of all patch sets whose builds are under way, in ascending order of
their keys. A signal about a patch set without an imprint creates one from the event it comes with.
A report is a snapshot of the ledger for diagnostics, with its JSON form. How an instant is written
there is left to the caller.
-/

namespace ReviewStream

/-- The ledger tracks patch sets only. -/
structure NotAboutPatchSet where
  kind : EventKind
  deriving DecidableEq, Repr

def NotAboutPatchSet.message (e : NotAboutPatchSet) : String :=
  e.kind.name ++ " events do not refer to a patchset"

structure Ledger where
  imprints : List Imprint := []
  deriving DecidableEq, Repr

/-- Puts an imprint at its place, instead of the one with the same key. -/
def putImprint (i : Imprint) : List Imprint → List Imprint
  | [] => [i]
  | i' :: rest =>
    if i.key.before i'.key then i :: i' :: rest
    else if i.key = i'.key then i :: rest
    else i' :: putImprint i rest

namespace Ledger

def empty : Ledger := {}

def get? (l : Ledger) (k : PatchSetKey) : Option Imprint := l.imprints.find? fun i => i.key = k

def put (l : Ledger) (i : Imprint) : Ledger := ⟨putImprint i l.imprints⟩

def forget (l : Ledger) (k : PatchSetKey) : Ledger := ⟨l.imprints.filter fun i => i.key ≠ k⟩

def keys (l : Ledger) : List PatchSetKey := l.imprints.map Imprint.key

/-- Records a signal that comes with an event. -/
def record (l : Ledger) (now : Instant) (e : Event) (s : Signal) :
    Except NotAboutPatchSet (PatchSetKey × Ledger) :=
  match e.key? with
  | none => .error ⟨e.kind⟩
  | some k =>
    let i := match l.get? k with
      | some i => i.record false now s
      | none => (Imprint.mk k e []).record true now s
    .ok (k, l.put i)

/-- Takes the imprint of a patch set out, provided that all its entries are completed. -/
def takeCompleted (l : Ledger) (k : PatchSetKey) : Option (Imprint × Ledger) :=
  match l.get? k with
  | some i => if i.allCompleted then some (i, l.forget k) else none
  | none => none

def removeJob (l : Ledger) (job : JobName) : Ledger := ⟨l.imprints.map (·.removeJob job)⟩

def isTriggered (l : Ledger) (k : PatchSetKey) (job : JobName) : Bool :=
  ((l.get? k).bind (·.entryOf? job)).isSome

/-- Whether the job still holds up others. -/
def isBuilding (l : Ledger) (k : PatchSetKey) (job : JobName) : Bool :=
  (((l.get? k).bind (·.entryOf? job)).map Entry.isBuilding).getD false

/-- Whether the job was triggered for the patch set and is not done yet. -/
def isIncomplete (l : Ledger) (job : JobName) (k : PatchSetKey) : Bool :=
  l.isTriggered k job && l.isBuilding k job

def isTracked (l : Ledger) (k : PatchSetKey) : Bool := (l.get? k).isSome

def allStarted (l : Ledger) (k : PatchSetKey) : Bool := ((l.get? k).map (·.allStarted)).getD false

def allCompleted (l : Ledger) (k : PatchSetKey) : Bool :=
  ((l.get? k).map (·.allCompleted)).getD false

def progress? (l : Ledger) (k : PatchSetKey) : Option Progress := (l.get? k).map (·.progress)

def statusReport? (l : Ledger) (k : PatchSetKey) : Option String :=
  (l.get? k).map (·.statusReport)

def builds? (l : Ledger) (k : PatchSetKey) : Option (List Build) := (l.get? k).map (·.builds)

/-- Changes the entry of a job and says whether there is one. -/
def annotate (l : Ledger) (k : PatchSetKey) (job : JobName) (change : Entry → Entry) :
    Bool × Ledger :=
  match l.get? k with
  | some i =>
    if (i.entryOf? job).isSome then (true, l.put (i.annotate job change)) else (false, l)
  | none => (false, l)

/-- Links the build of a job to an address of its own. -/
def setCustomUrl (l : Ledger) (k : PatchSetKey) (job : JobName) (url : String) : Bool × Ledger :=
  l.annotate k job fun e => { e with customUrl := some url }

/-- Gives the reason why the build of a job was not successful. -/
def setUnsuccessfulMessage (l : Ledger) (k : PatchSetKey) (job : JobName) (text : String) :
    Bool × Ledger :=
  l.annotate k job fun e => { e with unsuccessfulMessage := some text }

end Ledger

/-- What a report tells about one patch set. -/
structure ReportedImprint where
  key : PatchSetKey
  kind : EventKind
  project : String
  entries : List Entry
  deriving DecidableEq, Repr

def Imprint.reported (i : Imprint) : ReportedImprint :=
  { key := i.key, kind := i.event.kind, project := i.event.project, entries := i.entries }

def Ledger.report (l : Ledger) : List ReportedImprint := l.imprints.map Imprint.reported

/-- What the report tells about a patch set. -/
def Ledger.reported? (l : Ledger) (k : PatchSetKey) : Option ReportedImprint :=
  l.report.find? fun r => r.key = k

namespace Entry

/-- The JSON form of an instant that may not have come yet. -/
def timeToJson (time : Instant → Json) : Option Instant → Json
  | some t => time t
  | none => .null

def toJson (time : Instant → Json) (e : Entry) : Json :=
  .object [("job", .string e.job),
    ("build", match e.build with | some b => b.toJson | none => .null),
    ("completed", .bool e.completed), ("cancelled", .bool e.cancelled),
    ("custom_url", .ofText? e.customUrl), ("unsuccessful_message", .ofText? e.unsuccessfulMessage),
    ("triggered_at", time e.triggeredAt), ("started_at", timeToJson time e.startedAt),
    ("completed_at", timeToJson time e.completedAt)]

end Entry

def ReportedImprint.toJson (time : Instant → Json) (r : ReportedImprint) : Json :=
  .object [("key", r.key.toJson), ("event_type", .string r.kind.name),
    ("project", .string r.project), ("entries", .array (r.entries.map (Entry.toJson time)))]

def reportToJson (time : Instant → Json) (rs : List ReportedImprint) : Json :=
  .object [("imprints", .array (rs.map (ReportedImprint.toJson time)))]

def Progress.toJson (p : Progress) : Json :=
  .object [("key", p.key.toJson), ("total", .ofNat p.total), ("started", .ofNat p.started)]

end ReviewStream
