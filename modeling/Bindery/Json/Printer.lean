import Bindery.Json.Basic

/-!
# Printing JSON

Values are printed over several lines: each item of an array and each member of an object
stands on a line of its own, two blanks further in than its container. Empty containers
stay on one line. Quotes, backslashes and control characters in texts are escaped, all
other characters are written as they are.

## Main definitions

* `Json.quote`: a text between quotes.
* `Json.pretty`: the printed form of a value.
-/
namespace Bindery.Json

/-- A hexadecimal digit. -/
def hexDigit (n : Nat) : Char := (Nat.toDigits 16 (n % 16)).headD '0'

/-- A character inside a quoted text. -/
def escape (c : Char) : List Char :=
  if c = '"' then ['\\', '"']
  else if c = '\\' then ['\\', '\\']
  else if c = '\n' then ['\\', 'n']
  else if c = '\r' then ['\\', 'r']
  else if c = '\t' then ['\\', 't']
  else if c.toNat = 0x8 then ['\\', 'b']
  else if c.toNat = 0xc then ['\\', 'f']
  else if c.toNat < 0x20 then
    ['\\', 'u', '0', '0', hexDigit (c.toNat / 16), hexDigit c.toNat]
  else [c]

/-- A text between quotes. -/
def quote (s : String) : String := String.ofList ('"' :: s.toList.flatMap escape ++ ['"'])

/-- A new line with an indentation. -/
def newline (depth : Nat) : String := String.ofList ('\n' :: List.replicate (2 * depth) ' ')

mutual
/-- The printed form of a value at a depth of nesting. -/
def prettyAt (depth : Nat) : Json → String
  | null => "null"
  | bool true => "true"
  | bool false => "false"
  | number literal => literal
  | string s => quote s
  | array [] => "[]"
  | array items => "[" ++ prettyItems (depth + 1) items ++ newline depth ++ "]"
  | object [] => "\x7b\x7d"
  | object members => "\x7b" ++ prettyMembers (depth + 1) members ++ newline depth ++ "\x7d"

/-- The items of an array, each on its own line. -/
def prettyItems (depth : Nat) : List Json → String
  | [] => ""
  | [item] => newline depth ++ prettyAt depth item
  | item :: items => newline depth ++ prettyAt depth item ++ "," ++ prettyItems depth items

/-- The members of an object, each on its own line. -/
def prettyMembers (depth : Nat) : List (String × Json) → String
  | [] => ""
  | [(name, value)] => newline depth ++ quote name ++ ": " ++ prettyAt depth value
  | (name, value) :: members =>
    newline depth ++ quote name ++ ": " ++ prettyAt depth value ++ "," ++
      prettyMembers depth members
end

/-- The printed form of a value, with a new line at its end. -/
def pretty (j : Json) : String := prettyAt 0 j ++ "\n"

end Bindery.Json
