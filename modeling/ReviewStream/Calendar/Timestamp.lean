import ReviewStream.Calendar.Date
import ReviewStream.Text.Basic

/-!
# Timestamps

An instant in UTC to the nanosecond, counted from 1970-01-01T00:00:00Z. A leap second counts as the
second before it with a billion nanoseconds more. Timestamps are written as RFC 3339 and read from
the same format with some freedom: blanks around the parts, any offset, one-digit fields.
-/

namespace ReviewStream.Calendar

/-- The instants from the start of the year -262143 to the end of the year 262142. -/
def earliestSecond : Int := -8334601228800

def latestSecond : Int := 8210266876799

structure Timestamp where
  seconds : Int
  nanos : Nat
  in_range : earliestSecond ≤ seconds ∧ seconds ≤ latestSecond
  nanos_valid : nanos < 1000000000 ∨ (nanos < 2000000000 ∧ seconds % 60 = 59)
  deriving DecidableEq, Repr

namespace Timestamp

/-- The instant from which seconds are counted. -/
def epoch : Timestamp := ⟨0, 0, by decide, by decide⟩

/-- The instant at a whole number of seconds, if it is in range. -/
def ofSeconds? (s : Int) : Option Timestamp :=
  if h : earliestSecond ≤ s ∧ s ≤ latestSecond then some ⟨s, 0, h, .inl (by decide)⟩ else none

/-- The instant with the given parts, if there is one. -/
def ofParts? (s : Int) (n : Nat) : Option Timestamp :=
  if h : earliestSecond ≤ s ∧ s ≤ latestSecond then
    if h' : n < 1000000000 ∨ (n < 2000000000 ∧ s % 60 = 59) then some ⟨s, n, h, h'⟩ else none
  else none

/-- A year in four digits, with a sign where four digits do not hold it. -/
def renderYear (y : Int) : String :=
  if 0 ≤ y ∧ y ≤ 9999 then Text.padded 4 y.toNat
  else (if y < 0 then "-" else "+") ++ Text.padded 4 y.natAbs

/-- The fraction of a second in three, six or nine digits, whichever is the first that is exact. -/
def renderFraction (n : Nat) : String :=
  if n = 0 then ""
  else if n % 1000000 = 0 then "." ++ Text.padded 3 (n / 1000000)
  else if n % 1000 = 0 then "." ++ Text.padded 6 (n / 1000)
  else "." ++ Text.padded 9 n

/-- The timestamp in RFC 3339. -/
def render (t : Timestamp) : String :=
  let date := Date.ofDays (t.seconds / 86400)
  let secondOfDay := (t.seconds % 86400).toNat
  let leap := t.nanos / 1000000000
  renderYear date.year ++ "-" ++ Text.twoDigits date.month ++ "-" ++ Text.twoDigits date.day ++
    "T" ++ Text.twoDigits (secondOfDay / 3600) ++ ":" ++
    Text.twoDigits (secondOfDay / 60 % 60) ++ ":" ++ Text.twoDigits (secondOfDay % 60 + leap) ++
    renderFraction (t.nanos % 1000000000) ++ "Z"

/-- Reads at most `most` digits, and at least one. -/
def takeNumber (most : Nat) (cs : List Char) : Option (Nat × List Char) :=
  let digits := (cs.take most).takeWhile Char.isDigit
  (Text.digits? digits).map fun n => (n, cs.drop digits.length)

/-- Reads a number of at most two digits that lies between `low` and `high`. -/
def takeField (low high : Nat) (cs : List Char) : Option (Nat × List Char) :=
  (takeNumber 2 (Text.trimStart cs)).filter fun (n, _) => low ≤ n && n ≤ high

/-- Reads a year: up to four digits, or any number of them behind a sign. -/
def takeYear (cs : List Char) : Option (Int × List Char) :=
  match Text.trimStart cs with
  | '-' :: rest => (takeNumber rest.length rest).map fun (n, rest) => (-(n : Int), rest)
  | '+' :: rest => (takeNumber rest.length rest).map fun (n, rest) => ((n : Int), rest)
  | rest => (takeNumber 4 rest).map fun (n, rest) => ((n : Int), rest)

/-- Reads one separator, with blanks allowed before it. -/
def takeSeparator (sep : Char) (cs : List Char) : Option (List Char) :=
  match Text.trimStart cs with
  | c :: rest => if c = sep then some rest else none
  | [] => none

/-- Reads a fraction of a second in nanoseconds, digits beyond the ninth being dropped. -/
def takeFraction : List Char → Option (Nat × List Char)
  | '.' :: cs =>
    (takeNumber 9 cs).map fun (n, _) =>
      let digits := cs.takeWhile Char.isDigit
      (n * Nat.pow 10 (9 - digits.length), cs.drop digits.length)
  | cs => some (0, cs)

/-- Reads an offset in seconds: `Z`, `UTC`, or a sign with hours and minutes. -/
def takeOffset (cs : List Char) : Option (Int × List Char) :=
  let signed (negative : Bool) (cs : List Char) : Option (Int × List Char) :=
    match cs with
    | h₁ :: h₂ :: rest => do
      let hours ← Text.digits? [h₁, h₂]
      match rest.dropWhile fun c => c = ':' || Text.isBlank c with
      | m₁ :: m₂ :: rest =>
        let minutes ← Text.digits? [m₁, m₂]
        if minutes < 60 then
          let offset : Int := hours * 3600 + minutes * 60
          some (if negative then -offset else offset, rest)
        else none
      | _ => none
    | _ => none
  match cs with
  | 'z' :: rest | 'Z' :: rest => some (0, rest)
  | '+' :: rest => signed false rest
  | '-' :: rest | '\u2212' :: rest => signed true rest
  | u :: t :: c :: rest =>
    if [u, t, c].map Char.toLower = ['u', 't', 'c'] then some (0, rest) else none
  | _ => none

/-- The instant of a date and time of day at an offset. Second 60 is the leap second. -/
def ofLocal? (date : Date) (hour minute second nanos : Nat) (offset : Int) : Option Timestamp :=
  if date.isValid && decide (offset.natAbs < 86400) then
    let start := date.toDays * 86400
    -- The date has to be in range where it is read, and the instant in UTC.
    if earliestSecond ≤ start ∧ start ≤ latestSecond then
      let (second, leap) := if second = 60 then (59, 1000000000) else (second, 0)
      ofParts? (start + hour * 3600 + minute * 60 + second - offset) (nanos + leap)
    else none
  else none

def parse? (s : String) : Option Timestamp := do
  let (year, cs) ← takeYear s.toList
  let cs ← takeSeparator '-' cs
  let (month, cs) ← takeField 1 12 cs
  let cs ← takeSeparator '-' cs
  let (day, cs) ← takeField 1 31 cs
  let cs ← match cs with
    | 't' :: rest | 'T' :: rest | ' ' :: rest => some rest
    | _ => none
  let (hour, cs) ← takeField 0 23 cs
  let cs ← takeSeparator ':' cs
  let (minute, cs) ← takeField 0 59 cs
  let cs ← takeSeparator ':' cs
  let (second, cs) ← takeField 0 60 cs
  let (nanos, cs) ← takeFraction cs
  let (offset, cs) ← takeOffset (Text.trimStart cs)
  if Text.allBlank cs then ofLocal? ⟨year, month, day⟩ hour minute second nanos offset else none

end Timestamp

end ReviewStream.Calendar
