import Mathlib.Data.List.Nodup
import Mathlib.Logic.Function.Basic
import Mathlib.Tactic.Lemma
import ReviewStream.Proofs.Text.Basic
import ReviewStream.Settings.Basic

/-!
# Fields of the settings

Each variable is about one field of the settings and about nothing else. Where two environments have
the same text for it, blanks at its ends apart, the field is the same in both. A variable that is
unset, blank or not understood leaves its own field at the default and the rest as it is without it.
-/

namespace ReviewStream.Settings

open Calendar (Weekday)

inductive Field where
  | serverName
  | host
  | port
  | serverVersion
  | timeout
  | exceptionDays
  | exceptionTimes
  | receivingWorkers
  | sendingWorkers
  | queueCapacity
  | scheduleDelay
  | dependencies
  | httpAddress
  deriving DecidableEq

namespace Field

def all : List Field :=
  [serverName, host, port, serverVersion, timeout, exceptionDays, exceptionTimes, receivingWorkers,
    sendingWorkers, queueCapacity, scheduleDelay, dependencies, httpAddress]

abbrev Value : Field → Type
  | serverName | host => String
  | port => UInt16
  | serverVersion => Option String
  | timeout | scheduleDelay => Duration
  | exceptionDays => List Weekday
  | exceptionTimes => List Watchdog.TimeSpan
  | receivingWorkers | sendingWorkers | queueCapacity => UInt64
  | dependencies => List (JobName × String)
  | httpAddress => SocketAddress

/-- What the name of its variable ends with. -/
def name : Field → String
  | serverName => "SERVER_NAME"
  | host => "HOST"
  | port => "PORT"
  | serverVersion => "SERVER_VERSION"
  | timeout => "WATCHDOG_TIMEOUT_SECS"
  | exceptionDays => "WATCHDOG_EXCEPTION_DAYS"
  | exceptionTimes => "WATCHDOG_EXCEPTION_TIMES"
  | receivingWorkers => "RECEIVING_WORKERS"
  | sendingWorkers => "SENDING_WORKERS"
  | queueCapacity => "QUEUE_CAPACITY"
  | scheduleDelay => "BUILD_SCHEDULE_DELAY_SECS"
  | dependencies => "JOB_DEPENDENCIES"
  | httpAddress => "HTTP_ADDR"

def variableName (f : Field) : String := variableLabel ++ f.name

/-- The value of a field that a text stands for, if it stands for one. -/
def read : (f : Field) → String → Option f.Value
  | serverName, s | host, s => some s
  | port, s => (Text.unsignedBelow? UInt16.size s.toList).map UInt16.ofNat
  | serverVersion, s => some (some (formatVersion s))
  | timeout, s | scheduleDelay, s =>
    (Text.unsignedBelow? UInt64.size s.toList).map Duration.ofSeconds
  | exceptionDays, s => (Watchdog.parseDays s).toOption
  | exceptionTimes, s => (Watchdog.parseSpans s).toOption
  | receivingWorkers, s | sendingWorkers, s | queueCapacity, s =>
    (Text.unsignedBelow? UInt64.size s.toList).map UInt64.ofNat
  | dependencies, s => (parseDependencies s).toOption
  | httpAddress, s => SocketAddress.parse? s

def get : (f : Field) → Settings → f.Value
  | serverName, s => s.serverName
  | host, s => s.host
  | port, s => s.port
  | serverVersion, s => s.serverVersion
  | timeout, s => s.watchdog.timeout
  | exceptionDays, s => s.watchdog.exceptions.days
  | exceptionTimes, s => s.watchdog.exceptions.spans
  | receivingWorkers, s => s.receivingWorkers
  | sendingWorkers, s => s.sendingWorkers
  | queueCapacity, s => s.queueCapacity
  | scheduleDelay, s => s.buildScheduleDelay
  | dependencies, s => s.jobDependencies
  | httpAddress, s => s.httpAddress

def set : (f : Field) → f.Value → Settings → Settings
  | serverName, v, s => { s with serverName := v }
  | host, v, s => { s with host := v }
  | port, v, s => { s with port := v }
  | serverVersion, v, s => { s with serverVersion := v }
  | timeout, v, s => { s with watchdog.timeout := v }
  | exceptionDays, v, s => { s with watchdog.exceptions.days := v }
  | exceptionTimes, v, s => { s with watchdog.exceptions.spans := v }
  | receivingWorkers, v, s => { s with receivingWorkers := v }
  | sendingWorkers, v, s => { s with sendingWorkers := v }
  | queueCapacity, v, s => { s with queueCapacity := v }
  | scheduleDelay, v, s => { s with buildScheduleDelay := v }
  | dependencies, v, s => { s with jobDependencies := v }
  | httpAddress, v, s => { s with httpAddress := v }

def default (f : Field) : f.Value := f.get {}

/-- A variable gives its field the value that the text between its blanks stands for. -/
def Gives (f : Field) (value : Option String) (v : f.Value) : Prop :=
  ∃ s, value = some s ∧ Text.allBlank s.toList = false ∧ f.read (Text.trimmed s) = some v

/-- A variable that gives its field no value: it is unset or blank, or it is not understood. -/
def Unusable (f : Field) (value : Option String) : Prop :=
  ∀ s, value = some s → Text.allBlank s.toList = true ∨ f.read (Text.trimmed s) = none

variable {f g : Field} {s t : Settings} {x y : Option String}

lemma mem_all (f : Field) : f ∈ all := by
  cases f <;> decide

lemma variableName_injective : Function.Injective variableName := by
  intro f g h
  have hnames : all.map name = variableNames := rfl
  have hnodup : (all.map name).Nodup := hnames ▸ by decide
  refine List.inj_on_of_nodup_map hnodup (mem_all f) (mem_all g) ?_
  have hlist := congrArg String.toList h
  rw [variableName, variableName, String.toList_append, String.toList_append] at hlist
  exact String.toList_inj.mp (List.append_cancel_left hlist)

@[simp] lemma get_set_self (f : Field) (v : f.Value) (s : Settings) : f.get (f.set v s) = v := by
  cases f <;> rfl

lemma get_set_of_ne (h : g ≠ f) (v : f.Value) (s : Settings) : g.get (f.set v s) = g.get s := by
  cases f <;> cases g <;> first | rfl | exact absurd rfl h

lemma settings_ext (h : ∀ f : Field, f.get s = f.get t)
    (hdelay : s.watchdog.startDelay = t.watchdog.startDelay)
    (hperiod : s.watchdog.period = t.watchdog.period) : s = t := by
  obtain ⟨_, _, _, _, ⟨_, ⟨_, _⟩, _, _⟩, _, _, _, _, _, _⟩ := s
  obtain ⟨_, _, _, _, ⟨_, ⟨_, _⟩, _, _⟩, _, _, _, _, _, _⟩ := t
  simp only [Settings.mk.injEq, WatchdogSettings.mk.injEq, Watchdog.Exceptions.mk.injEq]
  exact ⟨h serverName, h host, h port, h serverVersion,
    ⟨h timeout, ⟨h exceptionDays, h exceptionTimes⟩, hdelay, hperiod⟩, h receivingWorkers,
    h sendingWorkers, h queueCapacity, h scheduleDelay, h dependencies, h httpAddress⟩

lemma startDelay_set (f : Field) (v : f.Value) (s : Settings) :
    (f.set v s).watchdog.startDelay = s.watchdog.startDelay := by
  cases f <;> rfl

lemma period_set (f : Field) (v : f.Value) (s : Settings) :
    (f.set v s).watchdog.period = s.watchdog.period := by
  cases f <;> rfl

def valueOf (f : Field) (value : Option String) : f.Value :=
  ((value.bind Text.nonBlank?).bind f.read).getD f.default

lemma get_ofLookup (f : Field) (lookup : String → Option String) :
    f.get (ofLookup lookup) = f.valueOf (lookup f.variableName) := by
  have hvalue : (lookup f.variableName).bind Text.nonBlank? = value? lookup f.name := rfl
  rw [valueOf, hvalue]
  cases f <;> simp only [get, ofLookup, seconds?, number64?, number?, list, name]
  all_goals
    generalize value? lookup _ = value
    cases value <;> rfl

lemma valueOf_of_gives {v : f.Value} (h : f.Gives x v) : f.valueOf x = v := by
  obtain ⟨text, rfl, hblank, hread⟩ := h
  rw [valueOf, Option.bind_some, Text.nonBlank?_of_not_allBlank hblank, Option.bind_some, hread,
    Option.getD_some]

lemma valueOf_of_unusable (h : f.Unusable x) : f.valueOf x = f.default := by
  have hread : (x.bind Text.nonBlank?).bind f.read = none := by
    cases x with
    | none => rfl
    | some text =>
      cases hblank : Text.allBlank text.toList with
      | true => rw [Option.bind_some, Text.nonBlank?_eq_none_iff.mpr hblank, Option.bind_none]
      | false =>
        have hnone : f.read (Text.trimmed text) = none :=
          (h text rfl).resolve_left (by simp [hblank])
        rw [Option.bind_some, Text.nonBlank?_of_not_allBlank hblank, Option.bind_some, hnone]
  rw [valueOf, hread, Option.getD_none]

end Field

/-- The values of a variable that count as the same: both are unset or blank, or they are the same
text between blanks. -/
inductive SameText : Option String → Option String → Prop where
  | missing (x y : Option String) : (∀ s, x = some s → Text.allBlank s.toList = true) →
      (∀ s, y = some s → Text.allBlank s.toList = true) → SameText x y
  | text (s t : String) : Text.trim s.toList = Text.trim t.toList → SameText (some s) (some t)

lemma SameText.bind_nonBlank? {x y : Option String} (h : SameText x y) :
    x.bind Text.nonBlank? = y.bind Text.nonBlank? := by
  have hnone : ∀ x : Option String, (∀ s, x = some s → Text.allBlank s.toList = true) →
      x.bind Text.nonBlank? = none := by
    intro x hx
    cases x with
    | none => rfl
    | some s => exact Text.nonBlank?_eq_none_iff.mpr (hx s rfl)
  cases h with
  | missing _ _ hx hy => rw [hnone x hx, hnone y hy]
  | text s t h => simp only [Option.bind_some, Text.nonBlank?, h]

/-- A field depends on its own variable only, and on this up to blanks around its text. It has the
value that the variable gives it, and a variable that gives none leaves the field at the default and
all the rest alone. -/
theorem fields_independent (f : Field) (lookup : String → Option String) :
    (∀ lookup', SameText (lookup f.variableName) (lookup' f.variableName) →
      f.get (ofLookup lookup) = f.get (ofLookup lookup')) ∧
    (∀ v, f.Gives (lookup f.variableName) v → f.get (ofLookup lookup) = v) ∧
    (f.Unusable (lookup f.variableName) → f.get (ofLookup lookup) = f.default) ∧
    ∀ x, f.Unusable x →
      ofLookup (Function.update lookup f.variableName x) = f.set f.default (ofLookup lookup) := by
  refine ⟨fun lookup' h => ?_, fun v h => ?_, fun h => ?_, fun x h => ?_⟩
  · rw [f.get_ofLookup, f.get_ofLookup, Field.valueOf, Field.valueOf, h.bind_nonBlank?]
  · rw [f.get_ofLookup, Field.valueOf_of_gives h]
  · rw [f.get_ofLookup, Field.valueOf_of_unusable h]
  · -- There are no variables for when the watchdog checks, so that stays as it is.
    refine Field.settings_ext (fun g => ?_) (by rw [Field.startDelay_set]; rfl)
      (by rw [Field.period_set]; rfl)
    by_cases hg : g = f
    · subst hg
      rw [g.get_ofLookup, Function.update_self, Field.valueOf_of_unusable h, Field.get_set_self]
    · have hname : g.variableName ≠ f.variableName := fun he => hg (Field.variableName_injective he)
      rw [Field.get_set_of_ne hg, g.get_ofLookup, g.get_ofLookup, Function.update_of_ne hname]

/-- Days that are not understood leave the times and the timeout as they are, and the timeout does
not depend on the days, on what else is set or on the blanks around it. -/
theorem invalid_days_leave_other_windows :
    let times := Field.exceptionTimes.variableName
    let timeout := Field.timeout.variableName
    let days := Field.exceptionDays.variableName
    let lookup := fun v => [(times, "2:0-3:30"), (timeout, " 120 ")].lookup v
    let bare := fun v => [(timeout, "120"), (days, "1,7")].lookup v
    let s := ofLookup (Function.update lookup days (some "1,9"))
    Field.exceptionDays.Unusable (some "1,9") ∧ s.watchdog.exceptions.days = [] ∧
      s.watchdog.exceptions.spans = [⟨⟨2, 0⟩, ⟨3, 30⟩⟩] ∧
      SameText (lookup timeout) (bare timeout) ∧ s.watchdog.timeout = .ofSeconds 120 ∧
      (ofLookup bare).watchdog.timeout = .ofSeconds 120 := by
  intro times timeout days lookup bare s
  have hunusable : Field.exceptionDays.Unusable (some "1,9") := by
    rintro _ ⟨⟩
    exact .inr (by decide)
  obtain ⟨-, -, -, hdays⟩ := fields_independent .exceptionDays lookup
  have hs : s = Field.exceptionDays.set [] (ofLookup lookup) := hdays (some "1,9") hunusable
  have hlookup : lookup timeout = some " 120 " := by decide
  have hbare : bare timeout = some "120" := by decide
  have hsame : SameText (lookup timeout) (bare timeout) := by
    rw [hlookup, hbare]
    exact .text _ _ (by decide)
  obtain ⟨htimeout, hgives, -⟩ := fields_independent .timeout lookup
  have hseconds : (ofLookup lookup).watchdog.timeout = .ofSeconds 120 :=
    hgives (.ofSeconds 120) ⟨" 120 ", hlookup, by decide, by decide⟩
  obtain ⟨-, hspans, -⟩ := fields_independent .exceptionTimes lookup
  have htimes : (ofLookup lookup).watchdog.exceptions.spans = [⟨⟨2, 0⟩, ⟨3, 30⟩⟩] :=
    hspans _ ⟨"2:0-3:30", by decide, by decide, by decide⟩
  rw [hs]
  exact ⟨hunusable, rfl, htimes, hsame, hseconds, (htimeout bare hsame).symm.trans hseconds⟩

end ReviewStream.Settings
