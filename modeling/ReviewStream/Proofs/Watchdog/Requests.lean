import Mathlib.Data.List.Induction
import Mathlib.Tactic.Lemma
import ReviewStream.Proofs.Watchdog.Window
import ReviewStream.Watchdog.Basic

/-!
# Requests of the watchdog

A check requests at most one reconnect, and only while the stream has been silent for longer than
the timeout. Durations are compared in whole seconds, so a silence may exceed the timeout by up to a
second before it counts. A request is no signal: until the next line comes in, later checks request
again.
-/

namespace ReviewStream.Watchdog

section Check

variable {w : Watchdog} {now now' : Duration} {day : Calendar.Weekday} {time : TimeOfDay}

lemma check_of_shutDown (h : w.shutDown = true) : w.check now day time = .inert := by
  simp [check, h]

lemma check_reconnects_iff : (w.check now day time).reconnects = true ↔
    w.shutDown = false ∧ w.settings.exceptions.apply day time = false ∧
      w.settings.timeout.seconds < (w.quietTime now).seconds := by
  unfold check
  cases hdown : w.shutDown with
  | true => simp [Finding.reconnects]
  | false =>
    cases hlook : w.settings.exceptions.apply day time with
    | true => simp [Finding.reconnects]
    | false =>
      by_cases hlate : w.settings.timeout.seconds < (w.quietTime now).seconds
      · simp [hlate, Finding.reconnects]
      · simp [hlate, Finding.reconnects]

lemma seconds_quietTime_mono (h : now.nanos ≤ now'.nanos) :
    (w.quietTime now).seconds ≤ (w.quietTime now').seconds :=
  Nat.div_le_div_right (Nat.sub_le_sub_right h _)

lemma timeout_lt_of_seconds_lt {t : Duration} (h : t.seconds < (w.quietTime now).seconds) :
    w.lastSignal.nanos + t.nanos < now.nanos := by
  simp only [Duration.seconds, quietTime] at h
  omega

lemma seconds_lt_of_second_le {t : Duration}
    (h : w.lastSignal.nanos + t.nanos + (Duration.ofSeconds 1).nanos ≤ now.nanos) :
    t.seconds < (w.quietTime now).seconds := by
  simp only [Duration.ofSeconds] at h
  simp only [Duration.seconds, quietTime]
  omega

end Check

/-- What happens to a watchdog. -/
inductive Happening where
  | signalled (now : Duration)
  | checked (now : Duration) (wall : WallClock)
  | shutDown
  deriving DecidableEq

def Happening.signal? : Happening → Option Duration
  | signalled now => some now
  | _ => none

/-- A watchdog and the readings of the clock at which it requested a reconnect. -/
structure Duty where
  watchdog : Watchdog
  requests : List Duration := []

namespace Duty

/-- The reconnects that a check requests. -/
def asked (w : Watchdog) (now : Duration) (wall : WallClock) : List Duration :=
  if (w.check now wall.date.weekday wall.time).reconnects then [now] else []

def happen (d : Duty) : Happening → Duty
  | .signalled now => { d with watchdog := d.watchdog.signal now }
  | .checked now wall => { d with requests := d.requests ++ asked d.watchdog now wall }
  | .shutDown => { d with watchdog := d.watchdog.shutdown }

/-- What has come of a watchdog that was new at `start`. -/
def after (s : WatchdogSettings) (start : Duration) (xs : List Happening) : Duty :=
  xs.foldl happen { watchdog := { settings := s, lastSignal := start } }

/-- When the latest signal of a history came; a new watchdog counts from its start. -/
def latestSignal (start : Duration) (xs : List Happening) : Duration :=
  (xs.filterMap Happening.signal?).getLast?.getD start

variable {s : WatchdogSettings} {start : Duration} {xs ys : List Happening} {now now' : Duration}
  {wall wall' : WallClock}

lemma after_append_singleton (s : WatchdogSettings) (start : Duration) (xs : List Happening)
    (x : Happening) : after s start (xs ++ [x]) = (after s start xs).happen x := by
  simp [after]

lemma watchdog_after (s : WatchdogSettings) (start : Duration) (xs : List Happening) :
    (after s start xs).watchdog =
      { settings := s, lastSignal := latestSignal start xs
        shutDown := decide (.shutDown ∈ xs) } := by
  induction xs using List.reverseRecOn with
  | nil => rfl
  | append_singleton xs x ih =>
    rw [after_append_singleton]
    cases x with
    | signalled now => simp [happen, ih, signal, latestSignal, Happening.signal?]
    | checked now wall => simp [happen, ih, latestSignal, Happening.signal?]
    | shutDown => simp [happen, ih, shutdown, latestSignal, Happening.signal?]

lemma latestSignal_append (h : ∀ t, .signalled t ∉ ys) :
    latestSignal start (xs ++ ys) = latestSignal start xs := by
  have hnone : ys.filterMap Happening.signal? = [] := by
    rw [List.filterMap_eq_nil_iff]
    intro y hy
    cases y with
    | signalled t => exact absurd hy (h t)
    | checked now wall => rfl
    | shutDown => rfl
  rw [latestSignal, List.filterMap_append, hnone, List.append_nil, latestSignal]

/-- The stream counts as silent: the watchdog was not shut down, the clock on the wall is outside
the exception windows, and in whole seconds the silence exceeds the timeout. -/
def Silent (s : WatchdogSettings) (start : Duration) (xs : List Happening) (now : Duration)
    (wall : WallClock) : Prop :=
  .shutDown ∉ xs ∧ ¬ s.exceptions.Covers wall ∧
    s.timeout.seconds < ((after s start xs).watchdog.quietTime now).seconds

lemma reconnects_iff_silent :
    ((after s start xs).watchdog.check now wall.date.weekday wall.time).reconnects = true ↔
      Silent s start xs now wall := by
  have hlook : s.exceptions.apply wall.date.weekday wall.time = false ↔
      ¬ s.exceptions.Covers wall := by
    rw [← Bool.not_eq_true, Exceptions.apply_iff_covers]
  unfold Silent
  rw [check_reconnects_iff]
  simp [watchdog_after, hlook]

lemma requests_of_silent (h : Silent s start xs now wall) :
    (after s start (xs ++ [.checked now wall])).requests =
      (after s start xs).requests ++ [now] := by
  rw [after_append_singleton, happen, asked, if_pos (reconnects_iff_silent.mpr h)]

lemma requests_of_not_silent (h : ¬ Silent s start xs now wall) :
    (after s start (xs ++ [.checked now wall])).requests = (after s start xs).requests := by
  have hno : ¬ ((after s start xs).watchdog.check now wall.date.weekday wall.time).reconnects =
      true := fun hyes => h (reconnects_iff_silent.mp hyes)
  rw [after_append_singleton, happen, asked, if_neg hno, List.append_nil]

lemma silent_of_requests
    (h : (after s start (xs ++ [.checked now wall])).requests =
      (after s start xs).requests ++ [now]) : Silent s start xs now wall := by
  by_contra hnot
  rw [requests_of_not_silent hnot] at h
  simp at h

lemma Silent.later (h : Silent s start xs now wall) (hsignal : ∀ t, .signalled t ∉ ys)
    (hdown : .shutDown ∉ ys) (hwall : ¬ s.exceptions.Covers wall') (hnow : now.nanos ≤ now'.nanos) :
    Silent s start (xs ++ ys) now' wall' := by
  obtain ⟨hup, -, hlate⟩ := h
  have hlast : latestSignal start (xs ++ ys) = latestSignal start xs := latestSignal_append hsignal
  have hquiet : ((after s start (xs ++ ys)).watchdog.quietTime now').seconds =
      ((after s start xs).watchdog.quietTime now').seconds := by
    simp only [watchdog_after, quietTime, hlast]
  refine ⟨by simp [hup, hdown], hwall, ?_⟩
  rw [hquiet]
  exact hlate.trans_le (seconds_quietTime_mono hnow)

/-- What checks request, whatever has happened to the watchdog before. A check requests one
reconnect or none. It requests one only after a silence that is longer than the timeout, and surely
after one that is longer by a second, unless the clock on the wall is in an exception window or the
watchdog was shut down. What was requested once is requested again until the next signal. -/
theorem requests_of_checks (s : WatchdogSettings) (start : Duration) (xs : List Happening)
    (now : Duration) (wall : WallClock) :
    let requests := fun ys => (after s start ys).requests
    let check := Happening.checked now wall
    let last := latestSignal start xs
    let requested := requests (xs ++ [check]) = requests xs ++ [now]
    (requested ∨ requests (xs ++ [check]) = requests xs) ∧
      ((∀ t, requests (xs ++ [.signalled t]) = requests xs) ∧
        requests (xs ++ [.shutDown]) = requests xs) ∧
      (requested → .shutDown ∉ xs ∧ ¬ s.exceptions.Covers wall ∧
        last.nanos + s.timeout.nanos < now.nanos) ∧
      (.shutDown ∉ xs → ¬ s.exceptions.Covers wall →
        last.nanos + s.timeout.nanos + (Duration.ofSeconds 1).nanos ≤ now.nanos → requested) ∧
      (requested → ∀ ys now' wall', (∀ t, .signalled t ∉ ys) → .shutDown ∉ ys →
        ¬ s.exceptions.Covers wall' → now.nanos ≤ now'.nanos →
          requests (xs ++ check :: ys ++ [.checked now' wall']) =
            requests (xs ++ check :: ys) ++ [now']) ∧
      (now.nanos < last.nanos → requests (xs ++ [check]) = requests xs) ∧
      (.shutDown ∈ xs → requests (xs ++ [check]) = requests xs ∧
        (after s start xs).watchdog.check now wall.date.weekday wall.time = .inert) ∧
      ((∀ span ∈ s.exceptions.spans,
          span.first.minute.toNat < 60 ∧ span.last.minute.toNat < 60) →
        (s.exceptions.Covers wall ↔ wall.date.weekday ∈ s.exceptions.days ∨
          ∃ span ∈ s.exceptions.spans, span.first.minutes ≤ 60 * wall.hour.val + wall.minute.val ∧
            60 * wall.hour.val + wall.minute.val ≤ span.last.minutes)) := by
  intro requests check last requested
  have hlast : (after s start xs).watchdog.lastSignal = last := by rw [watchdog_after]
  have hlate : Silent s start xs now wall → last.nanos + s.timeout.nanos < now.nanos := by
    intro h
    rw [← hlast]
    exact timeout_lt_of_seconds_lt h.2.2
  have hshut : .shutDown ∈ xs → (after s start xs).watchdog.shutDown = true := by
    intro h
    simp [watchdog_after, h]
  refine ⟨?_, ⟨fun t => ?_, ?_⟩, fun h => ?_, fun hup hwall hsecond => ?_,
    fun h ys now' wall' hsignal hdown hwall hnow => ?_, fun hback => ?_, fun hdown => ⟨?_, ?_⟩, ?_⟩
  · by_cases h : Silent s start xs now wall
    · exact .inl (requests_of_silent h)
    · exact .inr (requests_of_not_silent h)
  · simp only [requests, after_append_singleton, happen]
  · simp only [requests, after_append_singleton, happen]
  · have hsilent := silent_of_requests h
    exact ⟨hsilent.1, hsilent.2.1, hlate hsilent⟩
  · exact requests_of_silent ⟨hup, hwall, seconds_lt_of_second_le (hlast ▸ hsecond)⟩
  · have hsilent := silent_of_requests h
    have hsignal' : ∀ t, .signalled t ∉ check :: ys := by simp [check, hsignal]
    have hdown' : .shutDown ∉ check :: ys := by simp [check, hdown]
    exact requests_of_silent (hsilent.later hsignal' hdown' hwall hnow)
  · refine requests_of_not_silent fun h => ?_
    have := hlate h
    omega
  · exact requests_of_not_silent fun h => h.1 hdown
  · exact check_of_shutDown (hshut hdown)
  · have hminutes : wall.time.minutes = 60 * wall.hour.val + wall.minute.val := by
      simp [TimeOfDay.minutes]
    intro h
    rw [← hminutes]
    exact Exceptions.covers_iff_minutes h

/-- The silence is requested to end a minute before the window at noon, not in it, and again when it
is over. -/
theorem requests_around_noon :
    let s : WatchdogSettings :=
      { timeout := .ofMillis 1500
        exceptions := { days := [.sat], spans := [⟨⟨12, 0⟩, ⟨13, 0⟩⟩] } }
    let monday : Calendar.Date := ⟨2024, 6, 3⟩
    let xs : List Happening := [.checked (.ofSeconds 5) ⟨monday, 12, 0⟩, .signalled (.ofSeconds 10)]
    let check := Happening.checked (.ofMillis 12500) ⟨monday, 11, 59⟩
    let atNoon := Happening.checked (.ofSeconds 15) ⟨monday, 13, 0⟩
    .shutDown ∉ xs ∧ ¬ s.exceptions.Covers ⟨monday, 11, 59⟩ ∧
      (after s ⟨0⟩ (xs ++ [check])).requests = [.ofMillis 12500] ∧
      ¬ s.exceptions.Covers ⟨monday, 13, 1⟩ ∧
      (after s ⟨0⟩ (xs ++ check :: [atNoon] ++
        [.checked (.ofSeconds 20) ⟨monday, 13, 1⟩])).requests =
          [.ofMillis 12500, .ofSeconds 20] := by
  intro s monday xs check atNoon
  have hup : Happening.shutDown ∉ xs := by decide
  have hbefore : ¬ s.exceptions.Covers ⟨monday, 11, 59⟩ := by
    rw [← Exceptions.apply_iff_covers]
    decide
  have hafter : ¬ s.exceptions.Covers ⟨monday, 13, 1⟩ := by
    rw [← Exceptions.apply_iff_covers]
    decide
  obtain ⟨-, -, -, hsure, hagain, -⟩ :=
    requests_of_checks s ⟨0⟩ xs (.ofMillis 12500) ⟨monday, 11, 59⟩
  have hrequested := hsure hup hbefore (by decide)
  have hagain := hagain hrequested [atNoon] (.ofSeconds 20) ⟨monday, 13, 1⟩ (by simp [atNoon])
    (by decide) hafter (by decide)
  exact ⟨hup, hbefore, hrequested.trans (by decide), hafter, hagain.trans (by decide)⟩

/-- The checks at some moments, given what the wall clock shows then. -/
def checksAt (clock : Duration → WallClock) (moments : List Duration) : List Happening :=
  moments.map fun now => .checked now (clock now)

lemma watchdog_after_checks (clock : Duration → WallClock) (moments : List Duration) :
    (after s start (xs ++ checksAt clock moments)).watchdog = (after s start xs).watchdog := by
  have hsignal : ∀ t, .signalled t ∉ checksAt clock moments := by simp [checksAt]
  have hdown : .shutDown ∉ checksAt clock moments := by simp [checksAt]
  rw [watchdog_after, watchdog_after, latestSignal_append hsignal]
  simp [hdown]

/-- What a timer requests up to a horizon is what the checks at its moments request. -/
theorem requests_of_pass (clock : Duration → WallClock) (timer : Timer) (horizon : Duration) :
    let watch : Watch := { watchdog := (after s start xs).watchdog, timer := some timer }
    (after s start (xs ++ checksAt clock (timer.moments horizon))).requests =
      (after s start xs).requests ++
        (watch.pass (fun now => ((clock now).date.weekday, (clock now).time)) horizon).1 := by
  intro watch
  change _ = _ ++ (timer.moments horizon).filter _
  induction timer.moments horizon using List.reverseRecOn with
  | nil => simp [checksAt]
  | append_singleton moments now ih =>
    have hlast : xs ++ checksAt clock (moments ++ [now]) =
        (xs ++ checksAt clock moments) ++ [.checked now (clock now)] := by
      simp [checksAt]
    rw [hlast, after_append_singleton, happen, ih, watchdog_after_checks, List.filter_append,
      List.append_assoc, asked]
    simp [List.filter_cons, watch]

end Duty

end ReviewStream.Watchdog
