import ReviewStream.Decimal.Shortest

/-!
# Numbers in JSON text

A number is kept as its literal: sign, integer part, digits after the point and exponent. Readers
take the view they need. `nat?` and `negative?` are the integers of 64 bits, everything else is a
floating point number, and `float?` is missing where the literal is out of the range of doubles.
-/

namespace ReviewStream.Json

/-- A number literal. `whole` needs no digits of its own because leading zeros are not allowed. -/
structure Number where
  negative : Bool := false
  whole : Nat
  fraction : List Nat := []
  exponent : Option Int := none
  deriving DecidableEq, Repr

namespace Number

def ofNat (n : Nat) : Number := { whole := n }

/-- Whether the literal has neither a point nor an exponent. -/
def isPlain (n : Number) : Bool := n.fraction.isEmpty && n.exponent.isNone

/-- The unsigned integer of 64 bits that the literal denotes. -/
def nat? (n : Number) : Option Nat :=
  if n.isPlain && !n.negative && n.whole < UInt64.size then some n.whole else none

/-- The magnitude of the negative integer of 64 bits that the literal denotes; `-0` is none. -/
def negative? (n : Number) : Option Nat :=
  if n.isPlain && n.negative && 0 < n.whole && n.whole ≤ Nat.pow 2 63 then some n.whole else none

/-- Digits gathered into a significand of 64 bits, with the decimal exponent they stand at. -/
structure Gathered where
  significand : Nat
  exponent : Int

/-- Whether one more digit still fits. -/
def Gathered.fits (g : Gathered) (d : Nat) : Bool := g.significand * 10 + d < UInt64.size

/-- Digits before the point: the first that does not fit and all after it only move the point. -/
def Gathered.addWhole (g : Gathered) : List Nat → Gathered
  | [] => g
  | d :: rest =>
    if g.fits d then Gathered.addWhole { g with significand := g.significand * 10 + d } rest
    else { g with exponent := g.exponent + rest.length + 1 }

/-- Digits after the point: the first that does not fit and all after it are left out. -/
def Gathered.addFraction (g : Gathered) : List Nat → Gathered
  | [] => g
  | d :: rest =>
    if g.fits d then
      Gathered.addFraction ⟨g.significand * 10 + d, g.exponent - 1⟩ rest
    else g

def tenTo (n : Nat) : Float := Float.ofScientific 1 false n

/-- `f * 10 ^ e`, in one step while the power is a double and in steps of `10 ^ 308` below that;
missing where the result is out of range. -/
def scale (f : Float) (e : Int) : Option Float :=
  if 0 ≤ e then
    if e ≤ 308 then
      let g := f * tenTo e.toNat
      if g.isInf then none else some g
    else if f == 0 then some f else none
  else if -308 ≤ e then some (f / tenTo (-e).toNat)
  else if f == 0 then some f
  else scale (f / tenTo 308) (e + 308)
termination_by (-e).toNat

/-- The largest exponent that is read digit by digit. -/
def exponentLimit : Nat := Nat.pow 2 31 - 1

def float? (n : Number) : Option Float :=
  let digits := (Nat.toDigits 10 n.whole).map fun c => c.toNat - '0'.toNat
  let g := (Gathered.addWhole ⟨0, 0⟩ digits).addFraction n.fraction
  let magnitude : Option Float :=
    match n.exponent with
    | none => scale (UInt64.ofNat g.significand).toFloat g.exponent
    | some e =>
      if e.natAbs ≤ exponentLimit then
        scale (UInt64.ofNat g.significand).toFloat (g.exponent + e)
      else if g.significand ≠ 0 ∧ 0 < e then none
      else some 0
  magnitude.map fun x => if n.negative then -x else x

/-- Whether a strict reader takes the literal: it is an integer or in the range of doubles. -/
def inRange (n : Number) : Bool := n.nat?.isSome || n.negative?.isSome || n.float?.isSome

/-- How many digits of an exponent follow the one with which it passes `exponentLimit`. -/
def surplusDigits (e : Nat) : Nat :=
  if exponentLimit < e / 10 then surplusDigits (e / 10) + 1 else 0
termination_by e
decreasing_by
  have : exponentLimit = 2147483647 := rfl
  omega

/-- How many digits at the end of a literal that is out of range are not needed to see that. -/
def unneededDigits (n : Number) : Nat := (n.exponent.map fun e => surplusDigits e.natAbs).getD 0

/-- Floating point numbers in messages have at most sixteen digits before the point, the first of
their digits is at most the fifth behind it, and beyond that they have an exponent. -/
def layout : Decimal.Layout := ⟨-5, 15⟩

def render (n : Number) : String :=
  let fraction := if n.fraction.isEmpty then "" else "." ++ String.join (n.fraction.map Nat.repr)
  let exponent := match n.exponent with
    | none => ""
    | some e => "e" ++ (if e < 0 then "-" else "") ++ Nat.repr e.natAbs
  (if n.negative then "-" else "") ++ Nat.repr n.whole ++ fraction ++ exponent

end Number

end ReviewStream.Json
