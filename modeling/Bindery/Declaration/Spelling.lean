import Bindery.Tree.Basic

/-!
# Spelling tokens on one line

The text of a type, a name or an initialiser is spelled from its tokens with the blanks of
the source forgotten: two words are separated by one blank, a comma is followed by one, and
everything else is glued together.

## Main definitions

* `Spelling.ofPieces`: the spelling of a list of tokens.
* `Tree.spelling`: the spelling of the tokens below a node.
-/
namespace Bindery.Spelling

/-- A word, number or literal, which must not touch another one. -/
def isWordLike (kind : TokenKind) : Bool := kind.isWord || kind.isLiteral

/-- A blank is needed between two neighbours. -/
def needsBlank (before after : TokenKind) : Bool :=
  (isWordLike before && isWordLike after) || before = .comma

/-- The spelling of the tokens behind one of kind `before`. -/
def behind (before : TokenKind) : List Piece → List String
  | [] => []
  | p :: ps =>
    if needsBlank before p.kind then " " :: p.text :: behind p.kind ps
    else p.text :: behind p.kind ps

/-- The spelling of a list of tokens. -/
def ofPieces : List Piece → String
  | [] => ""
  | p :: ps => String.join (p.text :: behind p.kind ps)

/-- The spelling of a list of tokens of the stream. -/
def ofTokens (ts : List SourceToken) : String := ofPieces (ts.map fun t => ⟨t.kind, t.text⟩)

/-- A text cut after forty characters. -/
def short (s : String) : String :=
  let cs := s.toList
  if cs.length ≤ 40 then s else String.ofList (cs.take 40) ++ "..."

end Bindery.Spelling

namespace Bindery

/-- The spelling of the tokens below a node. -/
def Tree.spelling (t : Tree) : String := Spelling.ofTokens t.words

end Bindery
