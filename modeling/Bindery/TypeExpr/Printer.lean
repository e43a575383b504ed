import Bindery.Declaration.Spelling
import Bindery.TypeExpr.Basic

/-!
# Printing types

Types print canonically: qualifiers first, arguments separated by a comma and a blank,
declarators glued to the base.

## Main definitions

* `TypeExpr.text`, `TemplateArg.text`: the printed forms.
* `TemplateArg.spell`: the text of a value argument from its tokens.
-/
namespace Bindery

/-- The printed form of a declarator. -/
def Indirection.text : Indirection → String
  | pointer false => "*"
  | pointer true => "* const"
  | lvalueRef => "&"
  | rvalueRef => "&&"

mutual
/-- The printed form of a type. -/
def TypeExpr.text : TypeExpr → String
  | ⟨isConst, isVolatile, base, declarators⟩ =>
    (if isConst then "const " else "") ++ (if isVolatile then "volatile " else "") ++
      base.text ++ String.join (declarators.map Indirection.text)

/-- The printed form of a base. -/
def TypeBase.text : TypeBase → String
  | .fundamental name => name
  | .named isGlobal segments => (if isGlobal then "::" else "") ++ NameSegment.textAll segments

/-- The printed form of a segment. -/
def NameSegment.text : NameSegment → String
  | .plain name => name
  | .applied name args => name ++ "<" ++ TemplateArg.textAll args ++ ">"

/-- The printed form of an argument. -/
def TemplateArg.text : TemplateArg → String
  | .type t => t.text
  | .value text => text

/-- The printed form of a path. -/
def NameSegment.textAll : List NameSegment → String
  | [] => ""
  | [s] => s.text
  | s :: ss => s.text ++ "::" ++ NameSegment.textAll ss

/-- The printed form of a list of arguments. -/
def TemplateArg.textAll : List TemplateArg → String
  | [] => ""
  | [a] => a.text
  | a :: as => a.text ++ ", " ++ TemplateArg.textAll as
end

namespace TemplateArg

/-- An operator that is surrounded by blanks in a value. -/
def isOperator : TokenKind → Bool
  | .plus | .minus | .star | .slash | .percent | .pipe | .caret | .amp | .ampAmp => true
  | _ => false

/-- A blank is needed between two neighbours. A sign at the very front binds to its operand. -/
def needsBlank (isFirst : Bool) (before after : TokenKind) : Bool :=
  let leadingSign := isFirst && (before = .minus || before = .plus)
  before = .comma || (Spelling.isWordLike before && Spelling.isWordLike after) ||
    (isOperator after && before ≠ .lParen) || (isOperator before && !leadingSign)

/-- The spelling of the tokens behind one of kind `before`. -/
def spellBehind (isFirst : Bool) (before : TokenKind) : List Piece → List String
  | [] => []
  | p :: ps =>
    if needsBlank isFirst before p.kind then " " :: p.text :: spellBehind false p.kind ps
    else p.text :: spellBehind false p.kind ps

/-- The text of a value argument from its tokens: words are separated by a blank, a comma is
followed by one, and operators stand between blanks. -/
def spell : List Piece → String
  | [] => ""
  | p :: ps => String.join (p.text :: spellBehind true p.kind ps)

end TemplateArg
end Bindery
