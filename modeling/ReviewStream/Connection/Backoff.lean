import ReviewStream.Decimal.Shortest
import ReviewStream.Duration

/-!
# Backoff

The pause before the next attempt to connect grows with every failure by a factor, up to a bound.
It is computed in doubles and rounded to the nearest nanosecond, a tie going to the even one.
-/

namespace ReviewStream.Connection

structure Backoff where
  initial : Duration
  bound : Duration
  factor : Float

namespace Backoff

/-- Two seconds, doubled up to a minute. -/
def standard : Backoff := ⟨.ofSeconds 2, .ofSeconds 60, 2.0⟩

/-- A duration in seconds. -/
def inSeconds (d : Duration) : Float :=
  (UInt64.ofNat d.seconds).toFloat + (UInt64.ofNat d.subsecond).toFloat / 1e9

/-- `result * base ^ n` by repeated squaring. -/
def powerOnto (result base : Float) (n : Nat) : Float :=
  if n = 0 then result
  else
    let result := if n % 2 = 1 then result * base else result
    let n' := n / 2
    if n' = 0 then result else powerOnto result (base * base) n'
termination_by n
decreasing_by omega

/-- The largest exponent in use. -/
def exponentLimit : Nat := 64

/-- The smaller of two numbers, one that is none being left out. -/
def smaller (x y : Float) : Float :=
  if x.isNaN then y else if y.isNaN then x else if y < x then y else x

/-- The quotient rounded to the nearest integer, a tie going to the even one. -/
def roundDiv (num den : Nat) : Nat :=
  let q := num / den
  let r := num % den
  if 2 * r < den then q else if den < 2 * r then q + 1 else q + q % 2

/-- Why a number of seconds is no duration. -/
inductive NoDuration where
  | negative
  | tooLong
  deriving DecidableEq, Repr

def NoDuration.message : NoDuration → String
  | .negative => "cannot convert float seconds to Duration: value is negative"
  | .tooLong => "cannot convert float seconds to Duration: value is either too big or NaN"

/-- The duration nearest to a number of seconds. -/
def ofFloatSeconds (x : Float) : Except NoDuration Duration :=
  if x < 0 then .error .negative
  else
    let m := Decimal.Dyadic.ofBits x.toBits
    let (num, den) := Decimal.scaleBy 2 m.exponent m.mantissa 1
    let nanos := roundDiv (num * 1000000000) den
    if nanos ≤ Duration.longest.nanos then .ok ⟨nanos⟩ else .error .tooLong

/-- The pause after `failures` failures in a row, not counting the latest. -/
def delay (b : Backoff) (failures : Nat) : Except NoDuration Duration :=
  let scale := powerOnto 1.0 b.factor (min failures exponentLimit)
  ofFloatSeconds (smaller (inSeconds b.initial * scale) (inSeconds b.bound))

/-- The pause, if there is one. -/
def delay? (b : Backoff) (failures : Nat) : Option Duration := (b.delay failures).toOption

/-- Taken in seconds the longest duration is rounded up, and then it is too long. -/
example : (Backoff.mk .longest .longest 1.0).delay? 0 = none := by decide +kernel

end Backoff

end ReviewStream.Connection
