import Mathlib.Data.Prod.Lex
import Mathlib.Tactic.Lemma
import ReviewStream.Watchdog.Window

/-!
# Times in exception windows

Times of the day are compared by their hours and then by their minutes. For times that a clock can
show this is the order of the minutes of the day, so a span holds the minutes from its first to its
last one.
-/

namespace ReviewStream.Watchdog

namespace TimeOfDay

/-- Hour and minute, compared in this order. -/
def place (t : TimeOfDay) : ℕ ×ₗ ℕ := toLex (t.hour.toNat, t.minute.toNat)

/-- The number of minutes since midnight. -/
def minutes (t : TimeOfDay) : Nat := 60 * t.hour.toNat + t.minute.toNat

lemma before_iff {s t : TimeOfDay} : s.before t = true ↔ s.place < t.place := by
  unfold before place
  rw [Prod.Lex.toLex_lt_toLex]
  simp [UInt32.lt_iff_toNat_lt, UInt32.toNat_inj]

lemma place_le_iff {s t : TimeOfDay} (hs : s.minute.toNat < 60) (ht : t.minute.toNat < 60) :
    s.place ≤ t.place ↔ s.minutes ≤ t.minutes := by
  unfold place minutes
  rw [Prod.Lex.toLex_le_toLex]
  omega

end TimeOfDay

namespace TimeSpan

lemma contains_iff {s : TimeSpan} {t : TimeOfDay} :
    s.contains t = true ↔ s.first.place ≤ t.place ∧ t.place ≤ s.last.place := by
  unfold contains
  rw [Bool.and_eq_true, Bool.not_eq_true', Bool.not_eq_true', ← Bool.not_eq_true,
    ← Bool.not_eq_true, TimeOfDay.before_iff, TimeOfDay.before_iff, not_lt, not_lt]

end TimeSpan

/-- A day and a minute that a wall clock shows. -/
structure WallClock where
  date : Calendar.Date
  hour : Fin 24
  minute : Fin 60
  deriving DecidableEq

namespace WallClock

def time (c : WallClock) : TimeOfDay := ⟨UInt32.ofNat c.hour, UInt32.ofNat c.minute⟩

@[simp] lemma toNat_hour_time (c : WallClock) : c.time.hour.toNat = c.hour :=
  UInt32.toNat_ofNat_of_lt' (c.hour.isLt.trans (by decide))

@[simp] lemma toNat_minute_time (c : WallClock) : c.time.minute.toNat = c.minute :=
  UInt32.toNat_ofNat_of_lt' (c.minute.isLt.trans (by decide))

end WallClock

namespace Exceptions

/-- The clock shows one of the listed days, or a time in one of the listed spans. -/
def Covers (x : Exceptions) (c : WallClock) : Prop :=
  c.date.weekday ∈ x.days ∨
    ∃ s ∈ x.spans, s.first.place ≤ c.time.place ∧ c.time.place ≤ s.last.place

lemma apply_iff_covers {x : Exceptions} {c : WallClock} :
    x.apply c.date.weekday c.time = true ↔ x.Covers c := by
  unfold apply onDay atTime Covers
  rw [Bool.or_eq_true, List.contains_iff_mem, List.any_eq_true]
  simp only [TimeSpan.contains_iff]

lemma covers_iff_minutes {x : Exceptions} {c : WallClock}
    (h : ∀ s ∈ x.spans, s.first.minute.toNat < 60 ∧ s.last.minute.toNat < 60) :
    x.Covers c ↔ c.date.weekday ∈ x.days ∨
      ∃ s ∈ x.spans, s.first.minutes ≤ c.time.minutes ∧ c.time.minutes ≤ s.last.minutes := by
  have hc : c.time.minute.toNat < 60 := by
    rw [WallClock.toNat_minute_time]
    exact c.minute.isLt
  have hspan : ∀ s ∈ x.spans, (s.first.place ≤ c.time.place ∧ c.time.place ≤ s.last.place) ↔
      s.first.minutes ≤ c.time.minutes ∧ c.time.minutes ≤ s.last.minutes := by
    intro s hs
    rw [TimeOfDay.place_le_iff (h s hs).1 hc, TimeOfDay.place_le_iff hc (h s hs).2]
  unfold Covers
  exact or_congr_right (exists_congr fun s => and_congr_right (hspan s))

end Exceptions

end ReviewStream.Watchdog
