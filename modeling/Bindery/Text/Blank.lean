import Bindery.Text.CodeRanges

/-!
# Blank characters

Names and directive arguments are trimmed by the Unicode property `White_Space`, which
is wider than the blanks that separate tokens.

## Main definitions

* `isBlank`: the property, as a table.
* `trim`: a text without its blank ends.
-/
namespace Bindery.Text

/-- The characters with the property `White_Space`. -/
def blankRanges : CodeRanges :=
  [(0x9, 0xd), (0x20, 0x20), (0x85, 0x85), (0xa0, 0xa0), (0x1680, 0x1680), (0x2000, 0x200a),
   (0x2028, 0x2029), (0x202f, 0x202f), (0x205f, 0x205f), (0x3000, 0x3000)]

/-- The character is white space. -/
def isBlank (c : Char) : Bool := blankRanges.contains c

/-- The characters without the blanks in front. -/
def trimFront (cs : List Char) : List Char := cs.dropWhile isBlank

/-- The characters without the blanks behind. -/
def trimBack (cs : List Char) : List Char := (cs.reverse.dropWhile isBlank).reverse

/-- The characters without the blanks at either end. -/
def trimChars (cs : List Char) : List Char := trimBack (trimFront cs)

/-- The text without the blanks at either end. -/
def trim (s : String) : String := String.ofList (trimChars s.toList)

@[simp] theorem trimFront_nil : trimFront [] = [] := rfl

@[simp] theorem trimChars_nil : trimChars [] = [] := rfl

end Bindery.Text
