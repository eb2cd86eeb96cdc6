/-!
# Dates

Dates of the proleptic Gregorian calendar, counted in days from 1970-01-01. The count goes by eras
of 400 years that start on the first of March, so that the leap day is the last day of its year.
-/

namespace ReviewStream.Calendar

structure Date where
  year : Int
  month : Nat
  day : Nat
  deriving DecidableEq, Repr

inductive Weekday where
  | sun | mon | tue | wed | thu | fri | sat
  deriving DecidableEq, Repr

def Weekday.all : List Weekday := [.sun, .mon, .tue, .wed, .thu, .fri, .sat]

/-- The day of the week in three letters. -/
def Weekday.short : Weekday → String
  | .sun => "Sun"
  | .mon => "Mon"
  | .tue => "Tue"
  | .wed => "Wed"
  | .thu => "Thu"
  | .fri => "Fri"
  | .sat => "Sat"

def Weekday.long : Weekday → String
  | .sun => "Sunday"
  | .mon => "Monday"
  | .tue => "Tuesday"
  | .wed => "Wednesday"
  | .thu => "Thursday"
  | .fri => "Friday"
  | .sat => "Saturday"

def lowerAscii (s : String) : List Char := s.toList.map Char.toLower

/-- The day of the week that a text names in three letters or in full, whatever the case. -/
def Weekday.ofName? (s : String) : Option Weekday :=
  all.find? fun d => lowerAscii s = lowerAscii d.short || lowerAscii s = lowerAscii d.long

/-- The day of the week with the given number, where Sunday is 1 and Saturday 7. -/
def Weekday.ofNumber? (n : Nat) : Option Weekday :=
  if n = 0 then none else all[n - 1]?

def isLeapYear (y : Int) : Bool := y % 4 = 0 && (y % 100 ≠ 0 || y % 400 = 0)

/-- The number of days of a month, 0 for a month that does not exist. -/
def daysInMonth (y : Int) (m : Nat) : Nat :=
  match m with
  | 1 | 3 | 5 | 7 | 8 | 10 | 12 => 31
  | 4 | 6 | 9 | 11 => 30
  | 2 => if isLeapYear y then 29 else 28
  | _ => 0

def Date.isValid (d : Date) : Bool := 1 ≤ d.day && d.day ≤ daysInMonth d.year d.month

/-- Days from 1970-01-01. -/
def Date.toDays (d : Date) : Int :=
  let y := if d.month ≤ 2 then d.year - 1 else d.year
  let era := y / 400
  let yearOfEra := y - era * 400
  let monthFromMarch : Int := if d.month ≤ 2 then d.month + 9 else d.month - 3
  let dayOfYear := (153 * monthFromMarch + 2) / 5 + d.day - 1
  let dayOfEra := yearOfEra * 365 + yearOfEra / 4 - yearOfEra / 100 + dayOfYear
  era * 146097 + dayOfEra - 719468

/-- The date that lies `n` days after 1970-01-01. -/
def Date.ofDays (n : Int) : Date :=
  let z := n + 719468
  let era := z / 146097
  let dayOfEra := z - era * 146097
  let yearOfEra := (dayOfEra - dayOfEra / 1460 + dayOfEra / 36524 - dayOfEra / 146096) / 365
  let dayOfYear := dayOfEra - (365 * yearOfEra + yearOfEra / 4 - yearOfEra / 100)
  let monthFromMarch := (5 * dayOfYear + 2) / 153
  let day := dayOfYear - (153 * monthFromMarch + 2) / 5 + 1
  let month := if monthFromMarch < 10 then monthFromMarch + 3 else monthFromMarch - 9
  ⟨yearOfEra + era * 400 + (if month ≤ 2 then 1 else 0), month.toNat, day.toNat⟩

/-- The day of the week of a date, 1970-01-01 having been a Thursday. -/
def Date.weekday (d : Date) : Weekday :=
  Weekday.all.getD (((d.toDays + 4) % 7).toNat) .sun

end ReviewStream.Calendar
