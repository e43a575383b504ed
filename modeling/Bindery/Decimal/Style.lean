import Bindery.Decimal.Shortest

/-!
# Floating-point numbers as text

Two styles are in use. The plain one never has an exponent and needs no point; the
explicit one always has a point or an exponent, so that the text tells a floating-point
number from an integer, and turns to an exponent for very large and very small numbers.

## Main definitions

* `NumberStyle`: the decisions that make a style.
* `NumberStyle.plain`, `NumberStyle.explicit`: the two that are in use.
* `NumberStyle.render`: a number as text.
-/
namespace Bindery

/-- The decisions that make a style. -/
structure NumberStyle where
  /-- A whole number has a point and a zero. -/
  hasPoint : Bool
  /-- The places in front of the point for which no exponent is used; none when an exponent
  is never used. -/
  positional : Option (Int × Int)
deriving DecidableEq, Inhabited

namespace NumberStyle

/-- No exponent, and no point in a whole number. -/
def plain : NumberStyle := ⟨false, none⟩

/-- A point or an exponent in every number; numbers from `10 ^ -4` up to `10 ^ 16` are
written without an exponent. -/
def explicit : NumberStyle := ⟨true, some (-3, 16)⟩

/-- Digits with a point in their place. -/
def positionalText (n : NumberStyle) (d : Decimal) : String :=
  let place := d.pointPlace
  if d.digits.length ≤ place then
    String.ofList (d.digits ++ List.replicate (place.toNat - d.digits.length) '0') ++
      if n.hasPoint then ".0" else ""
  else if 0 < place then
    String.ofList (d.digits.take place.toNat) ++ "." ++ String.ofList (d.digits.drop place.toNat)
  else "0." ++ String.ofList (List.replicate (-place).toNat '0' ++ d.digits)

/-- One digit in front of the point, and an exponent. -/
def exponentText (d : Decimal) : String :=
  let fraction := match d.digits.drop 1 with
    | [] => ""
    | rest => "." ++ String.ofList rest
  String.ofList (d.digits.take 1) ++ fraction ++ "e" ++ toString (d.pointPlace - 1)

/-- A magnitude as text. -/
def magnitudeText (n : NumberStyle) (d : Decimal) : String :=
  match n.positional with
  | none => n.positionalText d
  | some (low, high) =>
    if d.coefficient = 0 || (low ≤ d.pointPlace && d.pointPlace ≤ high) then n.positionalText d
    else exponentText d

/-- A floating-point number as text. -/
def render (n : NumberStyle) (x : Float) : String :=
  if x.isNaN then "NaN"
  else
    let sign := if x.toBits.toNat < Nat.pow 2 63 then "" else "-"
    sign ++ if x.isInf then "inf" else n.magnitudeText (Binary.ofFloat x).shortest

end NumberStyle
end Bindery
