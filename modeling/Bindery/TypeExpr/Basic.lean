import Bindery.Numeral
import Bindery.OrderedMap
import Bindery.Tree.Members

/-!
# Type expressions

The structured form of a type such as `const std::array<float, 3>&`: qualifiers of the base,
the base itself, and pointers and references from the inside out. A base is a fundamental
type in its canonical spelling or a path of segments, each of which may carry template
arguments. A template argument is a type or a value kept as text.

## Main definitions

* `TypeExpr`, `TypeBase`, `NameSegment`, `TemplateArg`: the four mutual parts.
* `TypeExpr.simple?`: the name of a type that is one unqualified name without arguments.
* `TypeExpr.denoted`, `TypeExpr.pointee?`, `TypeExpr.denotesConst`: views of the object a
  type denotes.
* `TemplateArg.integer`: the value of an integer argument, in checked arithmetic.
-/
namespace Bindery

/-- A pointer or reference. -/
inductive Indirection where
  | pointer (isConst : Bool)
  | lvalueRef
  | rvalueRef
deriving DecidableEq, Inhabited

/-- A reference of either sort. -/
def Indirection.isRef : Indirection → Bool
  | pointer _ => false
  | lvalueRef | rvalueRef => true

mutual
/-- A type. -/
structure TypeExpr where
  isConst : Bool
  isVolatile : Bool
  base : TypeBase
  /-- Pointers and references, innermost first. -/
  declarators : List Indirection

/-- What the qualifiers and declarators of a type apply to. -/
inductive TypeBase where
  | fundamental (name : String)
  | named (isGlobal : Bool) (segments : List NameSegment)

/-- A segment of a path, with or without template arguments. -/
inductive NameSegment where
  | plain (name : String)
  | applied (name : String) (args : List TemplateArg)

/-- A type, or a value as text. -/
inductive TemplateArg where
  | type (t : TypeExpr)
  | value (text : String)
end

/-! ## Equality -/

mutual
/-- Equality of types is decided part by part. -/
def TypeExpr.decEq : (a b : TypeExpr) → Decidable (a = b)
  | ⟨c, v, b, d⟩, ⟨c', v', b', d'⟩ =>
    match b.decEq b' with
    | .isTrue h =>
      if h' : c = c' ∧ v = v' ∧ d = d' then .isTrue (by simp [h, h'])
      else .isFalse (by intro e; cases e; simp at h')
    | .isFalse h => .isFalse (by intro e; cases e; exact h rfl)

/-- Equality of bases is decided part by part. -/
def TypeBase.decEq : (a b : TypeBase) → Decidable (a = b)
  | .fundamental n, .fundamental m =>
    if h : n = m then .isTrue (by simp [h]) else .isFalse (by simp [h])
  | .named g ss, .named g' ss' =>
    match NameSegment.decEqList ss ss' with
    | .isTrue h => if h' : g = g' then .isTrue (by simp [h, h']) else .isFalse (by simp [h'])
    | .isFalse h => .isFalse (by simp [h])
  | .fundamental _, .named .. => .isFalse (by simp)
  | .named .., .fundamental _ => .isFalse (by simp)

/-- Equality of segments is decided part by part. -/
def NameSegment.decEq : (a b : NameSegment) → Decidable (a = b)
  | .plain n, .plain m => if h : n = m then .isTrue (by simp [h]) else .isFalse (by simp [h])
  | .applied n as, .applied m bs =>
    match TemplateArg.decEqList as bs with
    | .isTrue h => if h' : n = m then .isTrue (by simp [h, h']) else .isFalse (by simp [h'])
    | .isFalse h => .isFalse (by simp [h])
  | .plain _, .applied .. => .isFalse (by simp)
  | .applied .., .plain _ => .isFalse (by simp)

/-- Equality of arguments is decided part by part. -/
def TemplateArg.decEq : (a b : TemplateArg) → Decidable (a = b)
  | .value n, .value m => if h : n = m then .isTrue (by simp [h]) else .isFalse (by simp [h])
  | .type s, .type t =>
    match s.decEq t with
    | .isTrue h => .isTrue (by simp [h])
    | .isFalse h => .isFalse (by simp [h])
  | .value _, .type _ => .isFalse (by simp)
  | .type _, .value _ => .isFalse (by simp)

/-- Equality of paths is decided segment by segment. -/
def NameSegment.decEqList : (as bs : List NameSegment) → Decidable (as = bs)
  | [], [] => .isTrue rfl
  | a :: as, b :: bs =>
    match a.decEq b with
    | .isFalse h => .isFalse (by simp [h])
    | .isTrue h =>
      match NameSegment.decEqList as bs with
      | .isTrue h' => .isTrue (by simp [h, h'])
      | .isFalse h' => .isFalse (by simp [h'])
  | [], _ :: _ => .isFalse (by simp)
  | _ :: _, [] => .isFalse (by simp)

/-- Equality of argument lists is decided argument by argument. -/
def TemplateArg.decEqList : (as bs : List TemplateArg) → Decidable (as = bs)
  | [], [] => .isTrue rfl
  | a :: as, b :: bs =>
    match a.decEq b with
    | .isFalse h => .isFalse (by simp [h])
    | .isTrue h =>
      match TemplateArg.decEqList as bs with
      | .isTrue h' => .isTrue (by simp [h, h'])
      | .isFalse h' => .isFalse (by simp [h'])
  | [], _ :: _ => .isFalse (by simp)
  | _ :: _, [] => .isFalse (by simp)
end

instance : DecidableEq TypeExpr := TypeExpr.decEq
instance : DecidableEq TypeBase := TypeBase.decEq
instance : DecidableEq NameSegment := NameSegment.decEq
instance : DecidableEq TemplateArg := TemplateArg.decEq

namespace NameSegment

/-- The name of a segment. -/
def name : NameSegment → String
  | plain n | applied n _ => n

/-- The template arguments of a segment, none when it has no list of them. -/
def args? : NameSegment → Option (List TemplateArg)
  | plain _ => none
  | applied _ as => some as

/-- The names of a path. -/
def names (segments : List NameSegment) : List String := segments.map name

/-- A path without its template arguments. -/
def path (segments : List NameSegment) : String := "::".intercalate (names segments)

end NameSegment

namespace TypeExpr

/-- A type without qualifiers and declarators. -/
def ofBase (base : TypeBase) : TypeExpr := ⟨false, false, base, []⟩

/-- A fundamental type. -/
def fundamental (name : String) : TypeExpr := ofBase (.fundamental name)

/-- A type that is one unqualified name. -/
def named (name : String) : TypeExpr := ofBase (.named false [.plain name])

instance : Inhabited TypeExpr := ⟨fundamental "void"⟩

/-- The type `void`, whatever its qualifiers. -/
def isVoid (t : TypeExpr) : Bool := t.declarators.isEmpty && t.base = .fundamental "void"

/-- The outermost declarator is a reference. -/
def isReference (t : TypeExpr) : Bool := t.declarators.getLast?.any Indirection.isRef

/-- The outermost declarator is a pointer. -/
def isPointer (t : TypeExpr) : Bool := t.declarators.getLast?.any (!·.isRef)

/-- The number of pointers. -/
def pointerDepth (t : TypeExpr) : Nat := (t.declarators.filter (!·.isRef)).length

/-- The declarators without the references on the outside. -/
def objectDeclarators (t : TypeExpr) : List Indirection :=
  (t.declarators.reverse.dropWhile Indirection.isRef).reverse

/-- The object that the type denotes or refers to is constant. -/
def denotesConst (t : TypeExpr) : Bool :=
  match t.objectDeclarators.getLast? with
  | some (.pointer isConst) => isConst
  | some _ => false
  | none => t.isConst

/-- The type without outer references and without the qualifiers of the object it denotes. -/
def denoted (t : TypeExpr) : TypeExpr :=
  let ds := t.objectDeclarators
  match ds.getLast? with
  | some _ => { t with declarators := ds.dropLast ++ [.pointer false] }
  | none => { t with isConst := false, isVolatile := false, declarators := [] }

/-- The type that a pointer points to. -/
def pointee? (t : TypeExpr) : Option TypeExpr :=
  let s := t.denoted
  if s.declarators = [] then none else some { s with declarators := s.declarators.dropLast }

/-- The path of a named type. -/
def segments? (t : TypeExpr) : Option (List NameSegment) :=
  match t.base with
  | .named _ segments => some segments
  | .fundamental _ => none

/-- The name of a base that is one unqualified name without arguments. -/
def simpleBase? : TypeBase → Option String
  | .named false [.plain name] => some name
  | _ => none

/-- The name of a type whose base is one unqualified name without arguments. -/
def simple? (t : TypeExpr) : Option String := simpleBase? t.base

/-- The spelling of a fundamental type without declarators. -/
def asFundamental? (t : TypeExpr) : Option String :=
  match t.base with
  | .fundamental name => if t.declarators = [] then some name else none
  | .named .. => none

/-- The template arguments of the last segment. -/
def lastArgs (segments : List NameSegment) : List TemplateArg :=
  (segments.getLast?.bind NameSegment.args?).getD []

end TypeExpr

/-! ## Names in a type -/

mutual
/-- A path in the type starts with the namespace. -/
def TypeExpr.mentions (ns : String) : TypeExpr → Bool
  | ⟨_, _, base, _⟩ => base.mentions ns

/-- A path in the base starts with the namespace. -/
def TypeBase.mentions (ns : String) : TypeBase → Bool
  | .fundamental _ => false
  | .named _ segments =>
    (match segments with
      | first :: _ :: _ => first.name = ns
      | _ => false) || NameSegment.anyMentions ns segments

/-- An argument of the segment mentions the namespace. -/
def NameSegment.mentions (ns : String) : NameSegment → Bool
  | .plain _ => false
  | .applied _ args => TemplateArg.anyMentions ns args

/-- The argument is a type that mentions the namespace. -/
def TemplateArg.mentions (ns : String) : TemplateArg → Bool
  | .type t => t.mentions ns
  | .value _ => false

/-- An argument of some segment mentions the namespace. -/
def NameSegment.anyMentions (ns : String) : List NameSegment → Bool
  | [] => false
  | s :: ss => s.mentions ns || NameSegment.anyMentions ns ss

/-- Some argument mentions the namespace. -/
def TemplateArg.anyMentions (ns : String) : List TemplateArg → Bool
  | [] => false
  | a :: as => a.mentions ns || TemplateArg.anyMentions ns as
end

mutual
/-- Every path in the type, outermost first. -/
def TypeExpr.paths : TypeExpr → List String
  | ⟨_, _, base, _⟩ => base.paths

/-- Every path in the base, outermost first. -/
def TypeBase.paths : TypeBase → List String
  | .fundamental _ => []
  | .named _ segments => NameSegment.path segments :: NameSegment.argPaths segments

/-- Every path in the arguments of a segment. -/
def NameSegment.paths : NameSegment → List String
  | .plain _ => []
  | .applied _ args => TemplateArg.argPaths args

/-- Every path in an argument that is a type. -/
def TemplateArg.paths : TemplateArg → List String
  | .type t => t.paths
  | .value _ => []

/-- Every path in the arguments of several segments. -/
def NameSegment.argPaths : List NameSegment → List String
  | [] => []
  | s :: ss => s.paths ++ NameSegment.argPaths ss

/-- Every path in several arguments. -/
def TemplateArg.argPaths : List TemplateArg → List String
  | [] => []
  | a :: as => a.paths ++ TemplateArg.argPaths as
end

namespace TemplateArg

instance : Inhabited TemplateArg := ⟨.value ""⟩

/-- The argument as a type. -/
def type? : TemplateArg → Option TypeExpr
  | type t => some t
  | value _ => none

/-- The value of an integer in text: an optional minus, digits and a suffix. -/
def readInteger (cs : List Char) : Numeral.Reading Int :=
  let isSuffix (c : Char) : Bool :=
    c = 'u' || c = 'U' || c = 'l' || c = 'L' || c = 'z' || c = 'Z'
  match cs with
  | '-' :: digits =>
    OptionT.mk ((Numeral.magnitude? (Numeral.dropSuffix isSuffix digits)).mapM fun n =>
      (Numeral.negate (Int64.ofInt n)).map Int64.toInt)
  | digits => .of (Numeral.magnitude? (Numeral.dropSuffix isSuffix digits))

/-- The value of an integer argument. -/
def integer : TemplateArg → Numeral.Reading Int
  | value text => readInteger text.toList
  | type _ => failure

/-- The value of an integer argument, if it is read without an overflow. -/
def integer? (a : TemplateArg) : Option Int := a.integer.value?

/-- The last name of a type, or the text of a value. -/
def lastWord? : TemplateArg → Option String
  | type t => (t.segments?.bind List.getLast?).map NameSegment.name
  | value text => some text

end TemplateArg

/-- Template arguments by parameter, in order of binding. -/
abbrev Bindings := OrderedMap String TemplateArg

end Bindery
