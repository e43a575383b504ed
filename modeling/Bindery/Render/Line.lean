/-!
# Lines of generated source

Generated source is a list of lines, each with its depth of nesting. Nesting is a matter of
the lines alone, so a block can be put together from lines that know nothing of it.

## Main definitions

* `SourceLine`: a line and its depth.
* `SourceLine.indent`, `SourceLine.block`: nesting.
* `SourceLine.source`: the text of lines.
* `textLines`: the lines of a text.
-/
namespace Bindery

/-- A line and its depth of nesting. -/
structure SourceLine where
  depth : Nat
  text : String
deriving DecidableEq, Inhabited

namespace SourceLine

/-- A line that is not nested. -/
def flat (text : String) : SourceLine := ⟨0, text⟩

/-- An empty line. -/
def blank : SourceLine := flat ""

/-- The line one level deeper. -/
def indent (l : SourceLine) : SourceLine := ⟨l.depth + 1, l.text⟩

/-- The line that opens a block. -/
def opening (header : String) : SourceLine :=
  flat (if header = "" then "\x7b" else header ++ " \x7b")

/-- The line that closes a block, with what follows on it. -/
def closing (rest : String) : SourceLine := flat ("\x7d" ++ rest)

/-- Lines inside a block. -/
def block (header : String) (body : List SourceLine) (rest : String) : List SourceLine :=
  opening header :: body.map indent ++ [closing rest]

/-- The text of a line; an empty one has no indentation. -/
def render (l : SourceLine) : String :=
  if l.text = "" then "\n" else "".pushn ' ' (4 * l.depth) ++ l.text ++ "\n"

/-- The text of lines. -/
def source (lines : List SourceLine) : String := String.join (lines.map render)

end SourceLine

/-- Cut a text at line feeds. A carriage return goes with the line feed behind it. Nothing
is left of an unfinished line that is empty. -/
def textLineChars : List Char → List (List Char)
  | [] => []
  | '\r' :: '\n' :: cs => [] :: textLineChars cs
  | '\n' :: cs => [] :: textLineChars cs
  | c :: cs =>
    match cs, textLineChars cs with
    | [], _ => [[c]]
    | _ :: _, [] => [[c]]
    | _ :: _, line :: lines => (c :: line) :: lines

/-- The lines of a text without their ends. -/
def textLines (text : String) : List String := (textLineChars text.toList).map String.ofList

end Bindery
