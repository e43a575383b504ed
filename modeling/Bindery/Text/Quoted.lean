import Bindery.Text.Unprintable

/-!
# Quoted text

A text or character is shown between quotes with escapes for the quote, the backslash and
everything that could not be seen.

## Main definitions

* `quoted`: a text between double quotes.
* `quotedChar`: a character between single quotes.
-/
namespace Bindery.Text

/-- The code point of a character as an escape. -/
def codeEscape (c : Char) : List Char :=
  ['\\', 'u', '\x7b'] ++ Nat.toDigits 16 c.toNat ++ ['\x7d']

/-- A character between quotes of a given kind. -/
def shown (quote : Char) (c : Char) : List Char :=
  if c = quote then ['\\', quote]
  else if c = '\\' then ['\\', '\\']
  else if c = '\n' then ['\\', 'n']
  else if c = '\r' then ['\\', 'r']
  else if c = '\t' then ['\\', 't']
  else if c.toNat = 0 then ['\\', '0']
  else if isUnprintable c then codeEscape c
  else [c]

/-- A text between double quotes. -/
def quoted (s : String) : String :=
  String.ofList ('"' :: s.toList.flatMap (shown '"') ++ ['"'])

/-- A character between single quotes. -/
def quotedChar (c : Char) : String := String.ofList ('\'' :: shown '\'' c ++ ['\''])

end Bindery.Text
