/-!
# Shortest decimal digits

A finite binary number is shown by the fewest decimal digits that read back as the same number,
and of those the nearest to it. The reals that round to a number form an interval around it, which
has its ends exactly when the mantissa is even. On each decimal grid only the two neighbours of
the number need a test, so the search goes through the grids of one digit, two digits, and so on,
and stops at the first with a neighbour in the interval. All arithmetic is exact.

## Main definitions

* `FloatParts`: sign, mantissa and binary exponent of a finite number.
* `Decimal`: significant digits and the exponent of the first of them.
* `FloatParts.shortest`: the digits.
-/

namespace BoundQuery

/-- The number `± mantissa * 2 ^ exponent`. -/
structure FloatParts where
  negative : Bool
  mantissa : Nat
  exponent : Int
deriving DecidableEq, Repr

namespace FloatParts

/-- The parts of a number that is finite. -/
def ofFloat? (x : Float) : Option FloatParts :=
  let bits := x.toBits.toNat
  let negative := bits / Nat.pow 2 63 == 1
  let field : Nat := bits / Nat.pow 2 52 % Nat.pow 2 11
  let fraction : Nat := bits % Nat.pow 2 52
  if field == 2047 then none
  else if field == 0 then some ⟨negative, fraction, -1074⟩
  else some ⟨negative, fraction + Nat.pow 2 52, (field : Int) - 1075⟩

/-- The whole number that the parts stand for, if it is one. -/
def toInt? (p : FloatParts) : Option Int :=
  let sign : Int := if p.negative then -1 else 1
  let width := Nat.pow 2 (-p.exponent).toNat
  if 0 ≤ p.exponent then some (sign * ↑(p.mantissa * Nat.pow 2 p.exponent.toNat))
  else if p.mantissa % width == 0 then some (sign * ↑(p.mantissa / width))
  else none

end FloatParts

/-- Significant digits, of which the first stands at `10 ^ exponent`. -/
structure Decimal where
  digits : List Char
  exponent : Int
deriving DecidableEq, Repr

namespace Decimal

def zero : Decimal := ⟨['0'], 0⟩

/-- The number `count * 10 ^ unit`. -/
def ofScaled (count : Nat) (unit : Int) : Decimal :=
  let digits := Nat.toDigits 10 count
  ⟨(digits.reverse.dropWhile (· == '0')).reverse, unit + digits.length - 1⟩

end Decimal

namespace FloatParts

/-- The quarter units of the last bit from the number down to the end of its interval: two,
or one below a power of two, where the next number down is nearer. -/
def gapBelow (p : FloatParts) : Nat :=
  if p.mantissa == Nat.pow 2 52 && p.exponent != -1074 then 1 else 2

/-- The exponent of the first decimal digit of the positive number `num / den`. -/
def leadingExponent (num den : Nat) : Int :=
  let guess : Int := (Nat.toDigits 10 num).length - (Nat.toDigits 10 den).length
  let reached := den * Nat.pow 10 guess.toNat ≤ num * Nat.pow 10 (-guess).toNat
  if reached then guess else guess - 1

/-- The multiple of `10 ^ unit` that reads back as the number, if a neighbour does; of two the
nearer, and of two as near the even one. -/
def onGrid? (p : FloatParts) (unit : Int) : Option Nat :=
  let scale := Nat.pow 2 (p.exponent - 2).toNat * Nat.pow 10 (-unit).toNat
  let step := Nat.pow 2 (2 - p.exponent).toNat * Nat.pow 10 unit.toNat
  let centre := 4 * p.mantissa * scale
  let low := (4 * p.mantissa - p.gapBelow) * scale
  let high := (4 * p.mantissa + 2) * scale
  let inside (count : Nat) : Bool :=
    if p.mantissa % 2 == 0 then low ≤ count * step && count * step ≤ high
    else low < count * step && count * step < high
  let below := centre / step
  let above := below + 1
  let down := centre - below * step
  let up := above * step - centre
  match inside below, inside above with
  | false, false => none
  | true, false => some below
  | false, true => some above
  | true, true =>
    if down < up then some below
    else if up < down then some above
    else if below % 2 == 0 then some below else some above

/-- The fewest digits that read back as the number, the nearest of those. -/
def shortest (p : FloatParts) : Decimal :=
  if p.mantissa == 0 then .zero
  else
    let leading := leadingExponent
      (p.mantissa * Nat.pow 2 p.exponent.toNat) (Nat.pow 2 (-p.exponent).toNat)
    let grid (fewer : Nat) : Option Decimal :=
      let unit := leading - fewer
      (p.onGrid? unit).map (Decimal.ofScaled · unit)
    ((List.range 17).findSome? grid).getD .zero

end FloatParts

end BoundQuery
