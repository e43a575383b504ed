import Bindery.OrderedMap
import Bindery.Token.Scan

/-!
# Macros

A macro stands for a list of tokens. Expanding a use replaces the name by the list and goes
on expanding inside it, except for the names that are being expanded already. Each step
into a macro takes that macro out of the table, so the nesting is never deeper than the
table is large.

## Main definitions

* `MacroTable`: replacement lists by name.
* `MacroTable.bodyOf`: the replacement list that a run of tokens defines.
* `MacroTable.expand`: the tokens that a use of a name stands for.
-/
namespace Bindery

/-- A token of a replacement list, which has no place of its own. -/
structure Piece where
  kind : TokenKind
  text : String
deriving DecidableEq, Inhabited

/-- Replacement lists by macro name. -/
abbrev MacroTable := OrderedMap String (List Piece)

namespace MacroTable

/-- A comment counts as a blank in a replacement list. -/
def isGap (kind : TokenKind) : Bool :=
  kind = .blank || kind = .lineComment || kind = .blockComment

/-- Pieces with every run of gaps behind a piece reduced to one blank. -/
def collapse : List Token → List Piece
  | [] => []
  | t :: ts =>
    if isGap t.kind then
      match collapse ts with
      | [] => []
      | p :: ps => if p.kind = .blank then p :: ps else ⟨.blank, " "⟩ :: p :: ps
    else ⟨t.kind, t.text⟩ :: collapse ts

/-- The replacement list that a run of tokens defines: gaps are reduced to one blank each,
and none is left at either end. -/
def bodyOf (tokens : List Token) : List Piece :=
  collapse (tokens.dropWhile fun t => isGap t.kind)

/-- The table that compiler flags define. -/
def ofDefines (defines : OrderedMap String String) : MacroTable :=
  ⟨defines.entries.map fun (name, text) => (name, bodyOf (Token.scan text))⟩

/-- The tokens that a use of `name` stands for. -/
def expand (table : MacroTable) (name : String) : List Piece :=
  match _h : table.find? name with
  | none => []
  | some body =>
    body.flatMap fun p =>
      if p.kind = .ident && OrderedMap.contains (OrderedMap.erase table name) p.text then
        expand (OrderedMap.erase table name) p.text
      else [p]
termination_by OrderedMap.size table
decreasing_by exact OrderedMap.size_erase_lt _h

end MacroTable
end Bindery
