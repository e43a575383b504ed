import Bindery.Numeral

/-!
# Scalar kinds

The fundamental types whose values can cross to the host: truth values, characters,
integers of fixed width, and floating-point numbers of two precisions.

## Main definitions

* `ScalarKind`: the kinds.
* `ScalarKind.ofSpelling?`: the kind that a spelling denotes.
* `ScalarKind.integerRange?`: the values of an integer kind.
-/
namespace Bindery

/-- The kinds of scalars. -/
inductive ScalarKind where
  | bool
  /-- A plain character, which is a text of length one on the host side. -/
  | char
  | i8 | i16 | i32 | i64
  | u8 | u16 | u32 | u64
  | f32 | f64
deriving DecidableEq, Inhabited

namespace ScalarKind

/-- The kind that a fundamental type or an alias of fixed width denotes. -/
def ofPlain? (spelling : String) : Option ScalarKind :=
  if spelling = "bool" then some bool
  else if spelling = "char" then some char
  else if ["signed char", "int8_t"].contains spelling then some i8
  else if ["unsigned char", "uint8_t"].contains spelling then some u8
  else if ["short", "int16_t"].contains spelling then some i16
  else if ["unsigned short", "uint16_t"].contains spelling then some u16
  else if ["int", "int32_t"].contains spelling then some i32
  else if ["unsigned int", "uint32_t"].contains spelling then some u32
  else if ["long", "long long", "int64_t", "ptrdiff_t", "ssize_t", "intptr_t"].contains spelling
  then some i64
  else if ["unsigned long", "unsigned long long", "uint64_t", "size_t", "uintptr_t"].contains
      spelling then some u64
  else if spelling = "float" then some f32
  else if spelling = "double" then some f64
  else none

/-- The text behind some leading text. -/
def dropLead? (lead s : String) : Option String :=
  if lead.toList.isPrefixOf s.toList then some (String.ofList (s.toList.drop lead.length))
  else none

/-- The kind that a spelling denotes; a leading `std::` makes no difference. -/
def ofSpelling? (spelling : String) : Option ScalarKind :=
  ofPlain? ((dropLead? "std::" spelling).getD spelling)

/-- The canonical spelling in the header's own language. -/
def spelling : ScalarKind → String
  | bool => "bool"
  | char => "char"
  | i8 => "std::int8_t"
  | i16 => "std::int16_t"
  | i32 => "std::int32_t"
  | i64 => "std::int64_t"
  | u8 => "std::uint8_t"
  | u16 => "std::uint16_t"
  | u32 => "std::uint32_t"
  | u64 => "std::uint64_t"
  | f32 => "float"
  | f64 => "double"

/-- The short name. -/
def tag : ScalarKind → String
  | bool => "bool" | char => "char"
  | i8 => "i8" | i16 => "i16" | i32 => "i32" | i64 => "i64"
  | u8 => "u8" | u16 => "u16" | u32 => "u32" | u64 => "u64"
  | f32 => "f32" | f64 => "f64"

/-- The short name with a capital letter. -/
def title : ScalarKind → String
  | bool => "Bool" | char => "Char"
  | i8 => "I8" | i16 => "I16" | i32 => "I32" | i64 => "I64"
  | u8 => "U8" | u16 => "U16" | u32 => "U32" | u64 => "U64"
  | f32 => "F32" | f64 => "F64"

/-- A floating-point kind. -/
def isFloat : ScalarKind → Bool
  | f32 | f64 => true
  | _ => false

/-- An integer kind with a sign. -/
def isSigned : ScalarKind → Bool
  | i8 | i16 | i32 | i64 => true
  | _ => false

/-- An integer kind without a sign. -/
def isUnsigned : ScalarKind → Bool
  | u8 | u16 | u32 | u64 => true
  | _ => false

/-- An integer kind. -/
def isInteger (k : ScalarKind) : Bool := k.isSigned || k.isUnsigned

/-- The least and the greatest value of an integer kind. -/
def integerRange? : ScalarKind → Option (Int × Int)
  | i8 => some (Int8.minValue.toInt, Int8.maxValue.toInt)
  | i16 => some (Int16.minValue.toInt, Int16.maxValue.toInt)
  | i32 => some (Int32.minValue.toInt, Int32.maxValue.toInt)
  | i64 => some (Int64.minValue.toInt, Int64.maxValue.toInt)
  | u8 => some (0, UInt8.size - 1)
  | u16 => some (0, UInt16.size - 1)
  | u32 => some (0, UInt32.size - 1)
  | u64 => some (0, UInt64.size - 1)
  | _ => none

/-- The number of bits that a floating-point kind has for the digits of a number. -/
def precision : ScalarKind → Nat
  | f32 => 24
  | _ => 53

/-- A floating-point kind holds the integer without rounding it. -/
def holdsExactly (k : ScalarKind) (n : Int) : Bool :=
  n.natAbs % Nat.pow 2 (n.natAbs.log2 + 1 - k.precision) = 0

end ScalarKind
end Bindery
