import ReviewStream.Calendar.Date
import ReviewStream.Json.Record
import ReviewStream.Text.Basic

/-!
# Exception windows

The watchdog looks away on some days of the week and during some spans of the day. Both are
configured as comma separated texts: days by number, Sunday being 1, and spans as `from-to` with
times `h:m`. Of several faults the first one counts.
-/

namespace ReviewStream.Watchdog

open Calendar (Weekday)

structure TimeOfDay where
  hour : UInt32
  minute : UInt32
  deriving DecidableEq, Repr

/-- A span of the day, both ends included. -/
structure TimeSpan where
  first : TimeOfDay
  last : TimeOfDay
  deriving DecidableEq, Repr

/-- Why a text is no time, span or day. -/
inductive WindowError where
  | format (text : String)
  | hour (h : UInt32)
  | minute (m : UInt32)
  | emptySpan (first last : TimeOfDay)
  | dayOfWeek (text : String)
  deriving DecidableEq, Repr

namespace TimeOfDay

/-- The time as `hh:mm`. -/
def render (t : TimeOfDay) : String :=
  Text.twoDigits t.hour.toNat ++ ":" ++ Text.twoDigits t.minute.toNat

/-- A time of day, the hour being checked before the minute. -/
def make (hour minute : UInt32) : Except WindowError TimeOfDay :=
  if 23 < hour then .error (.hour hour)
  else if 59 < minute then .error (.minute minute)
  else .ok ⟨hour, minute⟩

/-- Whether `s` comes before `t`. -/
def before (s t : TimeOfDay) : Bool :=
  s.hour < t.hour || (s.hour = t.hour && s.minute < t.minute)

/-- An hour or a minute in text, blanks around it left out. -/
def word? (cs : List Char) : Option UInt32 :=
  (Text.unsignedBelow? UInt32.size (Text.trim cs)).map UInt32.ofNat

/-- Reads a time. -/
def parseChars (cs : List Char) : Except WindowError TimeOfDay :=
  let cs := Text.trim cs
  let fault := WindowError.format (String.ofList cs)
  match Text.splitFirst? ':' cs with
  | none => .error fault
  | some (h, m) =>
    match word? h, word? m with
    | some h, some m => make h m
    | _, _ => .error fault

def parse (s : String) : Except WindowError TimeOfDay := parseChars s.toList

def toJson (t : TimeOfDay) : Json :=
  .object [("hour", .ofNat t.hour.toNat), ("minute", .ofNat t.minute.toNat)]

def ofJson? : Json.Decoder TimeOfDay
  | .object ms => do
    return { hour := ← Json.field? ms "hour" Json.Decoder.word32
             minute := ← Json.field? ms "minute" Json.Decoder.word32 }
  | .array [h, m] => do
    return { hour := ← Json.Decoder.word32 h, minute := ← Json.Decoder.word32 m }
  | _ => none

end TimeOfDay

def WindowError.message : WindowError → String
  | .format s => "time should be in hh:mm format: " ++ s
  | .hour h => "hour should be in 24 hour format: " ++ Nat.repr h.toNat
  | .minute m => "there are 60 minutes in an hour: " ++ Nat.repr m.toNat
  | .emptySpan s t => "span start " ++ s.render ++ " should be before its end " ++ t.render
  | .dayOfWeek s => "day of week should be 1 (Sunday) to 7 (Saturday): " ++ s

namespace TimeSpan

/-- The span as `hh:mm-hh:mm`. -/
def render (s : TimeSpan) : String := s.first.render ++ "-" ++ s.last.render

/-- A span that starts before it ends. -/
def make (first last : TimeOfDay) : Except WindowError TimeSpan :=
  if first.before last then .ok ⟨first, last⟩ else .error (.emptySpan first last)

/-- Whether a time lies in the span. -/
def contains (s : TimeSpan) (t : TimeOfDay) : Bool := !t.before s.first && !s.last.before t

/-- Reads a span. -/
def parseChars (cs : List Char) : Except WindowError TimeSpan :=
  match Text.splitFirst? '-' cs with
  | none => .error (.format (String.ofList (Text.trim cs)))
  | some (first, last) => do
    let first ← TimeOfDay.parseChars first
    let last ← TimeOfDay.parseChars last
    make first last

def parse (s : String) : Except WindowError TimeSpan := parseChars s.toList

def toJson (s : TimeSpan) : Json :=
  .object [("from", s.first.toJson), ("to", s.last.toJson)]

def ofJson? : Json.Decoder TimeSpan
  | .object ms => do
    return { first := ← Json.field? ms "from" TimeOfDay.ofJson?
             last := ← Json.field? ms "to" TimeOfDay.ofJson? }
  | .array [a, b] => do
    return { first := ← TimeOfDay.ofJson? a, last := ← TimeOfDay.ofJson? b }
  | _ => none

end TimeSpan

/-- The pieces of a comma separated text that are not blank, trimmed. -/
def listed (s : String) : List (List Char) :=
  ((Text.pieces ',' s.toList).map Text.trim).filter fun p => !p.isEmpty

/-- Reads one day of the week. -/
def parseDay (cs : List Char) : Except WindowError Weekday :=
  match (Text.unsignedBelow? UInt32.size cs).bind Weekday.ofNumber? with
  | some d => .ok d
  | none => .error (.dayOfWeek (String.ofList cs))

/-- Reads days of the week. -/
def parseDays (s : String) : Except WindowError (List Weekday) := (listed s).mapM parseDay

/-- Reads spans of the day. -/
def parseSpans (s : String) : Except WindowError (List TimeSpan) :=
  (listed s).mapM TimeSpan.parseChars

/-- When the watchdog looks away. -/
structure Exceptions where
  days : List Weekday := []
  spans : List TimeSpan := []
  deriving DecidableEq, Repr

namespace Exceptions

def isEnabled (x : Exceptions) : Bool := !x.days.isEmpty || !x.spans.isEmpty

def onDay (x : Exceptions) (d : Weekday) : Bool := x.days.contains d

def atTime (x : Exceptions) (t : TimeOfDay) : Bool := x.spans.any (·.contains t)

/-- Whether the watchdog looks away on a date at a time. -/
def apply (x : Exceptions) (d : Weekday) (t : TimeOfDay) : Bool := x.onDay d || x.atTime t

def weekdayToJson (d : Weekday) : Json := .string d.short

def weekdayOfJson? : Json.Decoder Weekday
  | .string s => Weekday.ofName? s
  | _ => none

def toJson (x : Exceptions) : Json :=
  .object [("days_of_week", .array (x.days.map weekdayToJson)),
    ("times_of_day", .array (x.spans.map TimeSpan.toJson))]

def ofJson? : Json.Decoder Exceptions
  | .object ms => do
    return { days := ← Json.field? ms "days_of_week" (Json.Decoder.list weekdayOfJson?)
             spans := ← Json.field? ms "times_of_day" (Json.Decoder.list TimeSpan.ofJson?) }
  | .array [d, s] => do
    return { days := ← Json.Decoder.list weekdayOfJson? d
             spans := ← Json.Decoder.list TimeSpan.ofJson? s }
  | _ => none

end Exceptions

end ReviewStream.Watchdog
