/-!
# Shortest decimals

A binary floating-point number is written with the fewest decimal digits that read back as
the same number; of several such decimals the nearest one is taken, and of two equally near
ones the greater. The choice is made in exact integer arithmetic: the numbers that read back
form an interval around the value, and for each number of digits the two neighbours of the
value on the decimal grid are tested.

## Main definitions

* `Decimal`: a coefficient and a power of ten.
* `Binary`: a coefficient and a power of two, with the interval that rounds to it.
* `Binary.shortest`: the shortest decimal.
* `Binary.ofFloat`: the magnitude of a finite number.
-/
namespace Bindery

/-- The number `coefficient * 10 ^ exponent`. -/
structure Decimal where
  coefficient : Nat
  exponent : Int
deriving DecidableEq, Inhabited

namespace Decimal

/-- Move the zeros at the end of a coefficient into the exponent. -/
def strip (fuel : Nat) (d : Decimal) : Decimal :=
  match fuel with
  | 0 => d
  | fuel + 1 =>
    if d.coefficient ≠ 0 && d.coefficient % 10 = 0 then
      strip fuel ⟨d.coefficient / 10, d.exponent + 1⟩
    else d

/-- The digits of the coefficient. -/
def digits (d : Decimal) : List Char := Nat.toDigits 10 d.coefficient

/-- How many digits stand in front of the point; not positive for a number below one. -/
def pointPlace (d : Decimal) : Int := (d.digits.length : Int) + d.exponent

end Decimal

/-- The number `coefficient * 2 ^ exponent`, next to a neighbour below that may be only half
as far away as the neighbour above. -/
structure Binary where
  coefficient : Nat
  exponent : Int
  isNarrow : Bool
deriving DecidableEq, Inhabited

namespace Binary

/-- A power with a possibly negative exponent, as numerator and denominator. -/
def powerFraction (base : Nat) (e : Int) : Nat × Nat :=
  if 0 ≤ e then (base.pow e.toNat, 1) else (1, base.pow (-e).toNat)

/-- The magnitude of a finite floating-point number. -/
def ofFloat (x : Float) : Binary :=
  let bits := x.toBits.toNat
  let fraction := bits % Nat.pow 2 52
  let biased : Nat := bits / Nat.pow 2 52 % Nat.pow 2 11
  if biased = 0 then ⟨fraction, -1074, false⟩
  else ⟨Nat.pow 2 52 + fraction, (biased : Int) - 1075, fraction = 0 && 1 < biased⟩

/-- The interval of numbers that round to a value, in quarters of the last place: lower end,
value and upper end. -/
def quarters (b : Binary) : Nat × Nat × Nat :=
  let value := 4 * b.coefficient
  (if b.isNarrow then value - 1 else value - 2, value, value + 2)

/-- The least power of ten above `num / den`, which is not zero. -/
def decimalScale (num den : Nat) : Int :=
  if den ≤ num then (Nat.toDigits 10 (num / den)).length
  else 1 - (Nat.toDigits 10 ((den - 1) / num)).length

/-- A decimal in the interval with its last digit at `10 ^ grid`, if one of the two
neighbours of the value there lies in it. -/
def onGrid (b : Binary) (grid : Int) : Option Nat :=
  let (low, value, high) := b.quarters
  let (up, down) := powerFraction 2 (b.exponent - 2)
  let (unit, parts) := powerFraction 10 grid
  let scaled (n : Nat) : Nat := n * up * parts
  let step := down * unit
  let below := scaled value / step
  let inside (c : Nat) : Bool :=
    if b.coefficient % 2 = 0 then scaled low ≤ c * step && c * step ≤ scaled high
    else scaled low < c * step && c * step < scaled high
  let belowIsNearer := scaled value - below * step < (below + 1) * step - scaled value
  if inside below && (belowIsNearer || !inside (below + 1)) then some below
  else if inside (below + 1) then some (below + 1)
  else none

/-- The exact value. -/
def exact (b : Binary) : Decimal :=
  if 0 ≤ b.exponent then ⟨b.coefficient * Nat.pow 2 b.exponent.toNat, 0⟩
  else ⟨b.coefficient * Nat.pow 5 (-b.exponent).toNat, b.exponent⟩

/-- The most digits that a floating-point number needs. -/
def maxDigits : Nat := 17

/-- The shortest decimal that reads back as the value. -/
def shortest (b : Binary) : Decimal :=
  if b.coefficient = 0 then ⟨0, 0⟩
  else
    let (up, down) := powerFraction 2 b.exponent
    let scale := decimalScale (b.coefficient * up) down
    let found := (List.range maxDigits).findSome? fun n =>
      let grid := scale - ((n : Nat) + 1 : Nat)
      (b.onGrid grid).map fun c => (⟨c, grid⟩ : Decimal)
    let d := found.getD b.exact
    d.strip (Nat.toDigits 10 d.coefficient).length

end Binary
end Bindery
