/-!
# Shortest decimals of binary floating point numbers

A finite double is `m * 2 ^ q`. The reals that round to it form an interval around it, closed
exactly when `m` is even. `shortest` finds the decimal with the fewest digits in that interval, and
of those the one nearest to the number. `Notation` says how such digits are laid out as text.
-/

namespace ReviewStream.Decimal

/-- A positive number `mantissa * 2 ^ exponent`; `tight` marks a power of two, whose lower
neighbour is only half a step away. -/
structure Dyadic where
  mantissa : Nat
  exponent : Int
  tight : Bool

/-- A decimal `digits * 10 ^ exponent`. -/
structure Scaled where
  digits : Nat
  exponent : Int

/-- The magnitude of a finite double, read off its bits. -/
def Dyadic.ofBits (bits : UInt64) : Dyadic :=
  let fraction : Nat := bits.toNat % Nat.pow 2 52
  let biased : Nat := bits.toNat / Nat.pow 2 52 % Nat.pow 2 11
  if biased = 0 then ⟨fraction, -1074, false⟩
  else ⟨Nat.pow 2 52 + fraction, (biased : Int) - 1075, fraction = 0 && biased > 1⟩

/-- The fraction `num / den` times `base ^ e`, as a numerator and a denominator. -/
def scaleBy (base : Nat) (e : Int) (num den : Nat) : Nat × Nat :=
  if 0 ≤ e then (num * Nat.pow base e.toNat, den) else (num, den * Nat.pow base (-e).toNat)

/-- Twice the distance between two naturals that share a denominator. -/
def gap (a b : Nat) : Nat := if a ≤ b then b - a else a - b

/-- The multiple of `10 ^ e` that rounds to `x` and is nearest to it, if there is one. -/
def Dyadic.onGrid? (x : Dyadic) (e : Int) : Option Scaled :=
  let (num, den) := scaleBy 2 (x.exponent - 2) (4 * x.mantissa) 1
  let (unit, _) := scaleBy 2 (x.exponent - 2) 1 1
  let (num, den') := scaleBy 10 (-e) num den
  let (unit, _) := scaleBy 10 (-e) unit den
  let above := num + 2 * unit
  let below := num - (if x.tight then unit else 2 * unit)
  let low := num / den'
  let inside (n : Nat) : Bool :=
    let v := n * den'
    if x.mantissa % 2 = 0 then below ≤ v && v ≤ above else below < v && v < above
  let nearer (n k : Nat) : Bool :=
    let a := gap (n * den') num
    let b := gap (k * den') num
    a < b || (a = b && n % 2 = 0)
  match inside low, inside (low + 1) with
  | true, true => some ⟨if nearer low (low + 1) then low else low + 1, e⟩
  | true, false => some ⟨low, e⟩
  | false, true => some ⟨low + 1, e⟩
  | false, false => none

/-- The number of decimal digits of `n`. -/
def digitCount (n : Nat) : Nat := (Nat.toDigits 10 n).length

/-- The decimal exponent of the leading digit of `x`. -/
def Dyadic.leading (x : Dyadic) : Int :=
  let (num, den) := scaleBy 2 x.exponent x.mantissa 1
  if den ≤ num then (digitCount (num / den) : Int) - 1
  else
    let k := digitCount (den / num)
    if num * Nat.pow 10 (k - 1) ≥ den then 1 - (k : Int) else -(k : Int)

/-- The first grid with a point in the interval, from one digit to seventeen. -/
def Dyadic.shortest (x : Dyadic) : Scaled :=
  let lead := x.leading
  ((List.range 17).findSome? fun (k : Nat) => x.onGrid? (lead - k)).getD ⟨0, 0⟩

/-- The same decimal without zeros at the end of its digits; `fuel` bounds how many are taken. -/
def Scaled.normalize : Nat → Scaled → Scaled
  | 0, d => d
  | fuel + 1, d =>
    if d.digits ≠ 0 ∧ d.digits % 10 = 0 then Scaled.normalize fuel ⟨d.digits / 10, d.exponent + 1⟩
    else d

/-- How a decimal is laid out: with the leading digit between the two exponents it is written
positionally, with at least one digit after the point, and otherwise with an exponent that carries
a sign. -/
structure Layout where
  leastPositional : Int
  mostPositional : Int

/-- `n` zeros. -/
def zeros (n : Nat) : String := String.ofList (List.replicate n '0')

/-- The text of a positive decimal. -/
def Layout.render (layout : Layout) (d : Scaled) : String :=
  let digits := Nat.repr d.digits
  let count := digits.length
  let lead : Int := d.exponent + count - 1
  if layout.leastPositional ≤ lead ∧ lead ≤ layout.mostPositional then
    if 0 ≤ d.exponent then digits ++ zeros d.exponent.toNat ++ ".0"
    else if 0 ≤ lead then
      let whole := lead.toNat + 1
      (digits.take whole).toString ++ "." ++ (digits.drop whole).toString
    else "0." ++ zeros ((-lead).toNat - 1) ++ digits
  else
    let fraction := if count = 1 then "" else "." ++ (digits.drop 1).toString
    (digits.take 1).toString ++ fraction ++ "e" ++ (if lead < 0 then "-" else "+") ++
      Nat.repr lead.natAbs

/-- The text of a double in a layout. -/
def Layout.renderFloat (layout : Layout) (x : Float) : String :=
  let bits := x.toBits
  let sign := if bits.toNat / Nat.pow 2 63 = 1 then "-" else ""
  if x.isNaN then "NaN"
  else if x.isInf then sign ++ "inf"
  else if x == 0 then sign ++ "0.0"
  else sign ++ layout.render ((Dyadic.ofBits bits).shortest.normalize 20)

end ReviewStream.Decimal
