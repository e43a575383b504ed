import Bindery.Numeral
import Bindery.Text.Blank
import Bindery.Value.Host

/-!
# Literals

The host value that an initialiser denotes when it is a plain literal: a number, a truth
value, a null pointer, a text, a character, or a flat list of numbers in braces. A minus in front
of a number changes the sign of what is behind it, which overflows for the least integer.

## Main definitions

* `Literal.number`: the value of a number.
* `Literal.read`: the value of a literal.
-/
namespace Bindery.Literal

open Numeral (Overflow Reading)

/-- A decimal number: its digits as an integer, and how many of them stand behind the
point. -/
structure Digits where
  value : Nat
  places : Nat
  count : Nat

/-- Take up decimal digits. -/
def Digits.addAll (d : Digits) (isFraction : Bool) (cs : List Char) : Digits :=
  cs.foldl
    (fun d c =>
      ⟨d.value * 10 + (c.toNat - '0'.toNat), if isFraction then d.places + 1 else d.places,
        d.count + 1⟩)
    d

/-- Digits, a point and digits; one of the two runs may be empty. -/
def readMantissa (cs : List Char) : Option (Digits × List Char) :=
  let whole := (⟨0, 0, 0⟩ : Digits).addAll false (cs.takeWhile Char.isDigit)
  let (all, rest) := match cs.dropWhile Char.isDigit with
    | '.' :: rest =>
      (whole.addAll true (rest.takeWhile Char.isDigit), rest.dropWhile Char.isDigit)
    | rest => (whole, rest)
  if all.count = 0 then none else some (all, rest)

/-- An exponent at the end, zero when there is none. -/
def readExponent : List Char → Option Int
  | [] => some 0
  | c :: cs =>
    if c = 'e' || c = 'E' then
      match cs with
      | '-' :: digits => (Numeral.digits? 10 digits).map fun n => -(n : Int)
      | '+' :: digits => (Numeral.digits? 10 digits).map fun n => (n : Int)
      | digits => (Numeral.digits? 10 digits).map fun n => (n : Int)
    else none

/-- The floating-point number nearest to `value * 10 ^ exponent`. A number far outside the
range of floating-point numbers is decided by its size alone. -/
def scaled (value : Nat) (exponent : Int) : Float :=
  let place := exponent + (Nat.toDigits 10 value).length
  if value = 0 || place < -400 then 0.0
  else if 400 < place then 1.0 / 0.0
  else OfScientific.ofScientific value (exponent < 0) exponent.natAbs

/-- A floating-point number without a sign. -/
def unsignedFloat? (cs : List Char) : Option Float := do
  let (d, rest) ← readMantissa cs
  let exponent ← readExponent rest
  return scaled d.value (exponent - d.places)

/-- A floating-point number with an optional sign. -/
def float? : List Char → Option Float
  | '-' :: cs => (unsignedFloat? cs).map (- ·)
  | '+' :: cs => unsignedFloat? cs
  | cs => unsignedFloat? cs

/-- The suffixes of an integer. -/
def isIntSuffix (c : Char) : Bool := c = 'u' || c = 'U' || c = 'l' || c = 'L'

/-- The suffixes of a floating-point number. -/
def isFloatSuffix (c : Char) : Bool := c = 'f' || c = 'F' || c = 'l' || c = 'L'

/-- An integer of the host in a base, with an optional sign and suffixes behind it. -/
def integer? (base : Nat) (cs : List Char) : Option Int64 :=
  (Numeral.read? base (Numeral.dropSuffix isIntSuffix cs)).map Int64.ofInt

/-- The value of a number without the sign in front. -/
def magnitude? : List Char → Option HostValue
  | '0' :: 'x' :: hex | '0' :: 'X' :: hex => (integer? 16 hex).map .int
  | cs =>
    if cs.any fun c => c = '.' || c = 'e' || c = 'E' then
      (float? (Numeral.dropSuffix isFloatSuffix cs)).map .float
    else (integer? 10 cs).map .int

/-- The value with its sign changed. -/
def negate : HostValue → Except Overflow HostValue
  | .int i => (Numeral.negate i).map .int
  | .float x => .ok (.float (-x))
  | v => .ok v

/-- The value of a number. Blanks may follow a minus. -/
def number : List Char → Reading HostValue
  | '-' :: cs => OptionT.mk ((magnitude? (Text.trimFront cs)).mapM negate)
  | '+' :: cs => .of (magnitude? cs)
  | cs => .of (magnitude? cs)

/-- The parts of a text between commas. -/
def splitCommas : List Char → List (List Char)
  | [] => [[]]
  | c :: cs =>
    match splitCommas cs with
    | [] => [[c]]
    | part :: parts => if c = ',' then [] :: part :: parts else (c :: part) :: parts

/-- An array of numbers: of integers if all of them are. -/
def arrayOf (items : List HostValue) : HostValue :=
  let buffer : HostBuffer :=
    if items.all fun v => v.int?.isSome then .ints (items.filterMap HostValue.int?)
    else .floats (items.filterMap HostValue.float?)
  .array ⟨[items.length], buffer⟩

/-- The value of a flat list of numbers. Empty parts are passed over, and nothing is read behind
a part that is no number. -/
def list (cs : List Char) : Reading HostValue :=
  if cs.contains '\x7b' then failure
  else arrayOf <$> (((splitCommas cs).map Text.trimChars).filter (!·.isEmpty)).mapM number

/-- The text between an opening and a closing character. -/
def between? (first last : Char) (cs : List Char) : Option (List Char) :=
  match cs with
  | c :: rest =>
    if c = first && rest.getLast? = some last then some rest.dropLast else none
  | [] => none

/-- The value of a literal. -/
def read (text : String) : Reading HostValue :=
  let cs := Text.trimChars text.toList
  match between? '\x7b' '\x7d' cs with
  | some inner => list inner
  | none =>
    if cs = "true".toList then pure (.bool true)
    else if cs = "false".toList then pure (.bool false)
    else if cs = "nullptr".toList then pure .nothing
    else match between? '"' '"' cs with
      | some inner => pure (.str (String.ofList inner))
      | none =>
        match between? '\'' '\'' cs with
        | some [c] => pure (.str (String.singleton c))
        | some _ => failure
        | none => number cs

/-- The value of a literal, if it is read without an overflow. -/
def read? (text : String) : Option HostValue := (read text).value?

end Bindery.Literal
