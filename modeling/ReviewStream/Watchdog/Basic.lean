import ReviewStream.Duration
import ReviewStream.Watchdog.Window

/-!
# The watchdog

The watchdog knows when the last line came in and is asked now and then whether the stream has been
silent for too long. It looks away in its exception windows, and once it is shut down it never acts
again. Moments are given by the time that has passed on a clock, durations are compared in whole
seconds.
-/

namespace ReviewStream

/-- When and how often the watchdog checks the stream, and how long it may be silent. -/
structure WatchdogSettings where
  timeout : Duration := ⟨0⟩
  exceptions : Watchdog.Exceptions := {}
  startDelay : Duration := .ofSeconds 60
  period : Duration := .ofSeconds 20
  deriving DecidableEq, Repr

/-- Without a timeout there is no watchdog. -/
def WatchdogSettings.isEnabled (w : WatchdogSettings) : Bool := w.timeout.nanos ≠ 0

structure Watchdog where
  settings : WatchdogSettings
  lastSignal : Duration
  shutDown : Bool := false
  deriving DecidableEq, Repr

namespace Watchdog

open Calendar (Weekday)

/-- What a check found. Only after too long a silence is a reconnect requested. -/
inductive Finding where
  | excepted
  | alive (quiet : Duration)
  | silent (quiet : Duration)
  | inert
  deriving DecidableEq, Repr

/-- Whether a check that found this requests a reconnect. -/
def Finding.reconnects : Finding → Bool
  | silent _ => true
  | _ => false

/-- A line came in. -/
def signal (w : Watchdog) (now : Duration) : Watchdog := { w with lastSignal := now }

def shutdown (w : Watchdog) : Watchdog := { w with shutDown := true }

/-- How long the stream has been silent; not at all, if the clock reads less than it did. -/
def quietTime (w : Watchdog) (now : Duration) : Duration := ⟨now.nanos - w.lastSignal.nanos⟩

/-- Checks the stream, the wall clock showing a time of a day of the week. -/
def check (w : Watchdog) (now : Duration) (day : Weekday) (time : TimeOfDay) : Finding :=
  if w.shutDown then .inert
  else if w.settings.exceptions.apply day time then .excepted
  else
    let quiet := w.quietTime now
    if w.settings.timeout.seconds < quiet.seconds then .silent quiet else .alive quiet

/-- The timer of a watchdog: the moment of the next check and the period, which is not zero. -/
structure Timer where
  next : Duration
  period : Duration
  deriving DecidableEq, Repr

namespace Timer

/-- The first check comes after the start delay. Without a period there is no timer. -/
def start? (s : WatchdogSettings) (now : Duration) : Option Timer :=
  if s.period.nanos = 0 then none else some ⟨⟨now.nanos + s.startDelay.wait.nanos⟩, s.period⟩

/-- The timer after `n` more checks. -/
def skip (t : Timer) (n : Nat) : Timer := { t with next := ⟨t.next.nanos + n * t.period.nanos⟩ }

/-- The number of checks up to a horizon. -/
def count (t : Timer) (horizon : Duration) : Nat :=
  if horizon.nanos < t.next.nanos then 0
  else (horizon.nanos - t.next.nanos) / t.period.nanos + 1

/-- The moments of the checks up to a horizon. -/
def moments (t : Timer) (horizon : Duration) : List Duration :=
  (List.range (t.count horizon)).map fun n => (t.skip n).next

end Timer

/-- A watchdog with or without its timer. -/
structure Watch where
  watchdog : Watchdog
  timer : Option Timer
  deriving DecidableEq, Repr

namespace Watch

def start (s : WatchdogSettings) (now : Duration) (timed : Bool) : Watch :=
  { watchdog := { settings := s, lastSignal := now }
    timer := if timed then Timer.start? s now else none }

/-- The moments up to a horizon at which a check of the timer requests a reconnect, given what the
wall clock shows, and the watchdog after these checks. -/
def pass (w : Watch) (wall : Duration → Weekday × TimeOfDay) (horizon : Duration) :
    List Duration × Watch :=
  match w.timer with
  | none => ([], w)
  | some t =>
    ((t.moments horizon).filter fun d => (w.watchdog.check d (wall d).1 (wall d).2).reconnects,
      { w with timer := some (t.skip (t.count horizon)) })

/-- When the next check of the timer is due. -/
def due? (w : Watch) : Option Duration := w.timer.map Timer.next

end Watch

end Watchdog

end ReviewStream
