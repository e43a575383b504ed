import Bindery.Text.IdentChars

/-!
# Identifiers

A module name has to be an identifier both in the generated source and in the host
language, hence the Unicode rule. Generated helper names are narrower: any spelling is
reduced to ASCII letters, digits and single underscores.

## Main definitions

* `isIdentifier`: the Unicode rule, with `_` allowed in front.
* `mangle`: an identifier fragment for an arbitrary spelling.
-/
namespace Bindery.Text

/-- The text is an identifier: a starting character or `_`, then continuing ones. -/
def isIdentifier (s : String) : Bool :=
  match s.toList with
  | [] => false
  | c :: cs => (c == '_' || isIdentStart c) && cs.all isIdentContinue

/-- An ASCII letter or digit. -/
def isAsciiAlnum (c : Char) : Bool := c.isAlphanum

/-- Runs of characters that are kept, separated by runs of characters that are not. -/
def alnumRuns : List Char → List (List Char)
  | [] => [[]]
  | c :: cs =>
    match alnumRuns cs with
    | [] => []
    | run :: runs => if isAsciiAlnum c then (c :: run) :: runs else [] :: run :: runs

/-- An identifier fragment for a spelling: its runs of ASCII letters and digits, joined by
one underscore each, so `Sum<int, 3>` becomes `Sum_int_3`. -/
def mangle (s : String) : String :=
  "_".intercalate (((alnumRuns s.toList).filter (!·.isEmpty)).map String.ofList)

end Bindery.Text
