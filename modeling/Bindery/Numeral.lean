/-!
# Reading integers

Integer literals are read as signed 64-bit numbers. A reader takes an optional sign and at
least one digit, and gives nothing when the value does not fit. A sign in front of what has been
read is applied in checked arithmetic, so that reading may also end in an overflow.

## Main definitions

* `Numeral.minInt64`, `Numeral.maxInt64`: the range.
* `Numeral.read?`: a signed number in a given base.
* `Numeral.magnitude?`: decimal or `0x` digits, with digit separators dropped.
* `Numeral.negate`: the opposite of a number, or an overflow.
* `Numeral.Reading`: what a reader gives that may overflow.
-/
namespace Bindery.Numeral

/-- The least signed 64-bit number. -/
def minInt64 : Int := -9223372036854775808

/-- The greatest signed 64-bit number. -/
def maxInt64 : Int := 9223372036854775807

/-- The value of a digit in any base up to sixteen. -/
def digitValue? (c : Char) : Option Nat :=
  if '0' ≤ c && c ≤ '9' then some (c.toNat - '0'.toNat)
  else if 'a' ≤ c && c ≤ 'f' then some (c.toNat - 'a'.toNat + 10)
  else if 'A' ≤ c && c ≤ 'F' then some (c.toNat - 'A'.toNat + 10)
  else none

/-- The value of digits in a base, most significant first, on top of `value`. -/
def digitsFrom? (base : Nat) (value : Nat) : List Char → Option Nat
  | [] => some value
  | c :: cs =>
    match digitValue? c with
    | some d => if d < base then digitsFrom? base (value * base + d) cs else none
    | none => none

/-- The value of a non-empty list of digits. -/
def digits? (base : Nat) (cs : List Char) : Option Nat :=
  if cs = [] then none else digitsFrom? base 0 cs

/-- The number when it fits into 64 bits. -/
def fit? (n : Int) : Option Int := if minInt64 ≤ n && n ≤ maxInt64 then some n else none

/-- Read an optional sign and digits. -/
def read? (base : Nat) : List Char → Option Int
  | '-' :: cs => (digits? base cs).bind fun n => fit? (-(n : Int))
  | '+' :: cs => (digits? base cs).bind fun n => fit? n
  | cs => (digits? base cs).bind fun n => fit? n

/-- Read digits after a `0x` in base sixteen, any others in base ten. Digit separators are
dropped first. -/
def magnitude? (cs : List Char) : Option Int :=
  match cs.filter (· ≠ '\'') with
  | '0' :: 'x' :: hex => read? 16 hex
  | '0' :: 'X' :: hex => read? 16 hex
  | digits => read? 10 digits

/-- Drop the characters of a class from the end. -/
def dropSuffix (p : Char → Bool) (cs : List Char) : List Char :=
  (cs.reverse.dropWhile p).reverse

/-! ## Checked arithmetic -/

/-- Why a calculation has no result. -/
inductive Overflow where
  /-- The opposite of the least number does not fit. -/
  | negation
deriving DecidableEq, Inhabited

/-- The opposite of a number. -/
def negate (i : Int64) : Except Overflow Int64 :=
  if i = Int64.minValue then .error .negation else .ok (-i)

/-- What a reader gives: a value or none, unless its arithmetic overflows. -/
abbrev Reading := OptionT (Except Overflow)

namespace Reading

variable {α : Type}

/-- A value or none, without arithmetic. -/
def of (a? : Option α) : Reading α := OptionT.mk (.ok a?)

/-- The value, if there is one. -/
def value? (r : Reading α) : Option α := r.run.toOption.join

/-- Whether the arithmetic overflows. -/
def overflows (r : Reading α) : Bool := !r.run.isOk

@[simp] theorem value?_of (a? : Option α) : (of a?).value? = a? := rfl

@[simp] theorem overflows_of (a? : Option α) : (of a?).overflows = false := rfl

end Reading

/-- The reader never leaves the 64-bit range. -/
theorem fit?_eq_some {n m : Int} (h : fit? n = some m) : m = n ∧ minInt64 ≤ m ∧ m ≤ maxInt64 := by
  unfold fit? at h
  split at h
  · simp_all
  · simp at h

end Bindery.Numeral
