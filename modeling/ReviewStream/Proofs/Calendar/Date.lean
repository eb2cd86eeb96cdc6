import Mathlib.Tactic.Lemma
import ReviewStream.Calendar.Date

/-!
# Dates and day counts

The date that is made of a count of days is one of the calendar, and it counts that many days. Years
are taken to start in March here, as in the definitions.
-/

namespace ReviewStream.Calendar

/-- The year of an era and the day of that year, found from the day of the era. The last day of a
year is there only in years that end with a leap day. -/
lemma yearOfEra_bounds {d y r : Int} (hd : 0 ≤ d ∧ d < 146097)
    (hy : y = (d - d / 1460 + d / 36524 - d / 146096) / 365)
    (hr : r = d - (365 * y + y / 4 - y / 100)) :
    (0 ≤ y ∧ y < 400) ∧ (0 ≤ r ∧ r ≤ 365) ∧
      (r = 365 → y % 4 = 3 ∧ (y % 100 ≠ 99 ∨ y = 399)) := by
  by_cases hlast : d = 146096
  · subst hlast hy hr
    decide
  have hcentury : d / 36524 = 0 ∨ d / 36524 = 1 ∨ d / 36524 = 2 ∨ d / 36524 = 3 := by omega
  -- Every fourth year is one day longer than `1460 / 4`, so the year may be the one before.
  have hyear : y = 4 * (d / 1460) - 1 ∨ y = 4 * (d / 1460) ∨ y = 4 * (d / 1460) + 1 ∨
      y = 4 * (d / 1460) + 2 ∨ y = 4 * (d / 1460) + 3 := by omega
  have hhundred : y / 100 = d / 36524 := by omega
  rcases hyear with h | h | h | h | h
  · have hfour : y / 4 = d / 1460 - 1 := by omega
    rcases hcentury with h' | h' | h' | h' <;> omega
  all_goals
    have hfour : y / 4 = d / 1460 := by omega
    rcases hcentury with h' | h' | h' | h' <;> omega

/-- The date on day `r` of year `y` of an era, given the month `m` from March that the day is in. -/
def Date.inEra (era y r m : Int) : Date :=
  let month := if m < 10 then m + 3 else m - 9
  ⟨y + era * 400 + (if month ≤ 2 then 1 else 0), month.toNat,
    (r - (153 * m + 2) / 5 + 1).toNat⟩

lemma ofDays_eq (n : Int) : ∃ era y r m : Int, Date.ofDays n = Date.inEra era y r m ∧
    n + 719468 = era * 146097 + (365 * y + y / 4 - y / 100) + r ∧ (0 ≤ y ∧ y < 400) ∧
    m = (5 * r + 2) / 153 ∧ (0 ≤ r ∧ r ≤ 365) ∧
    (r = 365 → y % 4 = 3 ∧ (y % 100 ≠ 99 ∨ y = 399)) := by
  obtain ⟨hy, hr, hleap⟩ := yearOfEra_bounds
    (d := n + 719468 - (n + 719468) / 146097 * 146097) (by omega) rfl rfl
  refine ⟨(n + 719468) / 146097, _, _, _, rfl, ?_, hy, rfl, hr, hleap⟩
  omega

variable {era y r m : Int}

lemma toDays_inEra (hy : 0 ≤ y ∧ y < 400) (hr : 0 ≤ r ∧ r ≤ 365) (hm : m = (5 * r + 2) / 153) :
    (Date.inEra era y r m).toDays = era * 146097 + (365 * y + y / 4 - y / 100) + r - 719468 := by
  by_cases hmonth : m < 10
  · have hsmall : ¬ (m + 3 ≤ 2) := by omega
    have hnat : ¬ ((m + 3).toNat ≤ 2) := by omega
    simp only [Date.inEra, Date.toDays, hmonth, hsmall, hnat, if_true, if_false]
    omega
  · have hsmall : m - 9 ≤ 2 := by omega
    have hnat : (m - 9).toNat ≤ 2 := by omega
    simp only [Date.inEra, Date.toDays, hmonth, hsmall, hnat, if_true, if_false]
    omega

lemma isLeapYear_inEra (hleap : y % 4 = 3 ∧ (y % 100 ≠ 99 ∨ y = 399)) (era : Int) :
    isLeapYear (y + era * 400 + 1) = true := by
  simp only [isLeapYear, Bool.and_eq_true, Bool.or_eq_true, decide_eq_true_eq]
  omega

lemma isValid_inEra (hr : 0 ≤ r ∧ r ≤ 365) (hm : m = (5 * r + 2) / 153)
    (hleap : r = 365 → y % 4 = 3 ∧ (y % 100 ≠ 99 ∨ y = 399)) :
    (Date.inEra era y r m).isValid = true := by
  simp only [Date.isValid, Bool.and_eq_true, decide_eq_true_eq]
  by_cases hfebruary : m = 11
  · subst hfebruary
    have hdays : 28 ≤ daysInMonth (Date.inEra era y r 11).year (Date.inEra era y r 11).month := by
      simp [Date.inEra, daysInMonth]
      split <;> omega
    by_cases hlast : r = 365
    · subst hlast
      simp [Date.inEra, daysInMonth, isLeapYear_inEra (hleap rfl) era]
    · have hday : 1 ≤ (Date.inEra era y r 11).day ∧ (Date.inEra era y r 11).day ≤ 28 := by
        simp only [Date.inEra]
        omega
      omega
  · have hmonths : m = 0 ∨ m = 1 ∨ m = 2 ∨ m = 3 ∨ m = 4 ∨ m = 5 ∨ m = 6 ∨ m = 7 ∨ m = 8 ∨
        m = 9 ∨ m = 10 := by omega
    rcases hmonths with h | h | h | h | h | h | h | h | h | h | h <;> subst h <;>
      simp [Date.inEra, daysInMonth] <;> omega

/-- The date of a count of days counts that many days. -/
theorem toDays_ofDays (n : Int) : (Date.ofDays n).toDays = n := by
  obtain ⟨era, y, r, m, hdate, hn, hy, hm, hr, -⟩ := ofDays_eq n
  rw [hdate, toDays_inEra hy hr hm]
  omega

theorem isValid_ofDays (n : Int) : (Date.ofDays n).isValid = true := by
  obtain ⟨era, y, r, m, hdate, -, -, hm, hr, hleap⟩ := ofDays_eq n
  rw [hdate]
  exact isValid_inEra hr hm hleap

lemma bounds_of_isValid {d : Date} (h : d.isValid = true) :
    (1 ≤ d.month ∧ d.month ≤ 12) ∧ 1 ≤ d.day ∧ d.day ≤ 31 := by
  simp only [Date.isValid, Bool.and_eq_true, decide_eq_true_eq] at h
  unfold daysInMonth at h
  split at h
  case h_12 =>
    split at h <;> omega
  all_goals omega

end ReviewStream.Calendar
