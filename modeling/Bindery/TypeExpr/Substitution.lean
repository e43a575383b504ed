import Bindery.TypeExpr.Reader

/-!
# Replacing names in types

A template parameter is replaced by its argument: the qualifiers and declarators written
around the parameter are put around the argument, and references to references collapse.
Aliases are expanded in the same way, to a bounded depth, and names are completed by the
namespaces they are found in.

## Main definitions

* `TypeExpr.around`: a type around another one that stands for its base.
* `TypeExpr.substitute`, `TemplateArg.substitute`: replacing parameters.
* `TypeExpr.unaliased`: expanding aliases.
* `TypeExpr.qualify`: completing names.
-/
namespace Bindery

/-- A reference to a reference is an lvalue reference, unless both are rvalue references. -/
def collapseRefs : List Indirection → List Indirection
  | [] => []
  | [d] => [d]
  | d :: e :: ds =>
    match d, e with
    | .rvalueRef, .rvalueRef => collapseRefs (.rvalueRef :: ds)
    | .lvalueRef, .lvalueRef | .lvalueRef, .rvalueRef | .rvalueRef, .lvalueRef =>
      collapseRefs (.lvalueRef :: ds)
    | d, e => d :: collapseRefs (e :: ds)
termination_by ds => ds.length

namespace TypeExpr

/-- The inner type with the qualifiers of an outer one: they go to the outermost pointer, or
to the base when there is no declarator; a reference takes none. -/
def addQualifiers (isConst isVolatile : Bool) (inner : TypeExpr) : TypeExpr :=
  match inner.declarators.getLast? with
  | some (.pointer c) =>
    { inner with declarators := inner.declarators.dropLast ++ [.pointer (c || isConst)] }
  | some _ => inner
  | none =>
    { inner with
      isConst := inner.isConst || isConst
      isVolatile := inner.isVolatile || isVolatile }

/-- The qualifiers and declarators of `outer` around `inner`, which stands for its base. -/
def around (outer inner : TypeExpr) : TypeExpr :=
  let qualified := inner.addQualifiers outer.isConst outer.isVolatile
  { qualified with declarators := collapseRefs (qualified.declarators ++ outer.declarators) }

/-- The type is its base alone. -/
def isBare (t : TypeExpr) : Bool := t.declarators.isEmpty && !t.isConst && !t.isVolatile

end TypeExpr

/-! ## Parameters -/

/-- The text of a value with its parameters replaced by their printed arguments. -/
def TemplateArg.substituteText (b : Bindings) (text : String) : String :=
  TemplateArg.spell ((piecesOf text).map fun p =>
    if p.kind = .ident then
      match b.find? p.text with
      | some bound => ⟨.ident, bound.text⟩
      | none => p
    else p)

mutual
/-- Replace parameters in a type. -/
def TypeExpr.substitute (b : Bindings) : TypeExpr → TypeExpr
  | ⟨isConst, isVolatile, base, declarators⟩ =>
    let self : TypeExpr := ⟨isConst, isVolatile, base, declarators⟩
    if b.isEmpty then self
    else match (TypeExpr.simpleBase? base).bind b.find? with
      | some (.type bound) => self.around bound
      | some (.value text) => { self with base := .named false [.plain text] }
      | none => { self with base := base.substitute b }

/-- Replace parameters in the arguments of a base. -/
def TypeBase.substitute (b : Bindings) : TypeBase → TypeBase
  | .fundamental name => .fundamental name
  | .named isGlobal segments => .named isGlobal (NameSegment.substituteAll b segments)

/-- Replace parameters in the arguments of a segment. -/
def NameSegment.substitute (b : Bindings) : NameSegment → NameSegment
  | .plain name => .plain name
  | .applied name args => .applied name (TemplateArg.substituteAll b args)

/-- Replace parameters in an argument. A bare parameter becomes its argument as it is. -/
def TemplateArg.substitute (b : Bindings) : TemplateArg → TemplateArg
  | .type t =>
    match t.simple?.bind b.find? with
    | some bound => if t.isBare then bound else .type (t.substitute b)
    | none => .type (t.substitute b)
  | .value text => .value (TemplateArg.substituteText b text)

/-- Replace parameters in the arguments of a path. -/
def NameSegment.substituteAll (b : Bindings) : List NameSegment → List NameSegment
  | [] => []
  | s :: ss => s.substitute b :: NameSegment.substituteAll b ss

/-- Replace parameters in a list of arguments. -/
def TemplateArg.substituteAll (b : Bindings) : List TemplateArg → List TemplateArg
  | [] => []
  | a :: as => a.substitute b :: TemplateArg.substituteAll b as
end

/-! ## Aliases -/

/-- Change the types among the arguments. -/
def TemplateArg.mapType (f : TypeExpr → TypeExpr) : TemplateArg → TemplateArg
  | .type t => .type (f t)
  | .value text => .value text

/-- Change the types among the arguments of a segment. -/
def NameSegment.mapTypes (f : TypeExpr → TypeExpr) : NameSegment → NameSegment
  | .plain name => .plain name
  | .applied name args => .applied name (args.map (TemplateArg.mapType f))

/-- Change the types among the arguments of a base. -/
def TypeBase.mapTypes (f : TypeExpr → TypeExpr) : TypeBase → TypeBase
  | .fundamental name => .fundamental name
  | .named isGlobal segments => .named isGlobal (segments.map (NameSegment.mapTypes f))

namespace TypeExpr

/-- How deep aliases are followed. -/
def maxAliasDepth : Nat := 16

/-- Expand the paths that `lookup` knows as aliases, to a given depth. -/
def expandAliases (lookup : List NameSegment → Option TypeExpr) : Nat → TypeExpr → TypeExpr
  | 0, t => t
  | depth + 1, t =>
    let inner := { t with base := t.base.mapTypes (expandAliases lookup depth) }
    match inner.base with
    | .fundamental _ => inner
    | .named _ segments =>
      match lookup segments with
      | some target => inner.around (expandAliases lookup depth target)
      | none => inner

/-- Expand the paths that `lookup` knows as aliases. -/
def unaliased (lookup : List NameSegment → Option TypeExpr) (t : TypeExpr) : TypeExpr :=
  expandAliases lookup maxAliasDepth t

end TypeExpr

/-! ## Namespaces -/

/-- Put the namespaces that are known for a path in front of it. -/
def TypeBase.qualifyPath (leadFor : List String → Option (List String)) (isGlobal : Bool)
    (segments : List NameSegment) : TypeBase :=
  if isGlobal then .named isGlobal segments
  else match leadFor (NameSegment.names segments) with
    | some lead => .named isGlobal (lead.map NameSegment.plain ++ segments)
    | none => .named isGlobal segments

mutual
/-- Complete the names in a type. -/
def TypeExpr.qualify (leadFor : List String → Option (List String)) : TypeExpr → TypeExpr
  | ⟨isConst, isVolatile, base, declarators⟩ =>
    ⟨isConst, isVolatile, base.qualify leadFor, declarators⟩

/-- Complete the names in a base. -/
def TypeBase.qualify (leadFor : List String → Option (List String)) : TypeBase → TypeBase
  | .fundamental name => .fundamental name
  | .named isGlobal segments =>
    TypeBase.qualifyPath leadFor isGlobal (NameSegment.qualifyAll leadFor segments)

/-- Complete the names in the arguments of a segment. -/
def NameSegment.qualify (leadFor : List String → Option (List String)) :
    NameSegment → NameSegment
  | .plain name => .plain name
  | .applied name args => .applied name (TemplateArg.qualifyAll leadFor args)

/-- Complete the names in an argument that is a type. -/
def TemplateArg.qualify (leadFor : List String → Option (List String)) :
    TemplateArg → TemplateArg
  | .type t => .type (t.qualify leadFor)
  | .value text => .value text

/-- Complete the names in the arguments of a path. -/
def NameSegment.qualifyAll (leadFor : List String → Option (List String)) :
    List NameSegment → List NameSegment
  | [] => []
  | s :: ss => s.qualify leadFor :: NameSegment.qualifyAll leadFor ss

/-- Complete the names in a list of arguments. -/
def TemplateArg.qualifyAll (leadFor : List String → Option (List String)) :
    List TemplateArg → List TemplateArg
  | [] => []
  | a :: as => a.qualify leadFor :: TemplateArg.qualifyAll leadFor as
end

end Bindery
