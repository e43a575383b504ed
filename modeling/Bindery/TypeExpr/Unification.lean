import Bindery.TypeExpr.Substitution

/-!
# Matching types against patterns

A pattern is a type in which some names are parameters. Matching it against a concrete type
finds the arguments under which the pattern becomes the type. A parameter takes what is left
of the concrete type without the qualifiers and declarators written around the parameter.
The bindings are threaded through the match from left to right; what was bound before a
mismatch stays bound.

## Main definitions

* `Bindings.bind`: bind a parameter, or compare with what it is bound to.
* `TypeExpr.unify`, `TemplateArg.unify`: match a pattern.
* `TemplateArg.denoteSame`: two argument lists denote the same arguments.
-/
namespace Bindery

/-- Whether a match succeeded, and the bindings it left behind. -/
abbrev Match := Bool × Bindings

/-- Bind a parameter. A bound parameter has to be bound to the same argument. -/
def Bindings.bind (b : Bindings) (param : String) (arg : TemplateArg) : Match :=
  match b.find? param with
  | some existing => (existing = arg, b)
  | none => (true, b.insert param arg)

namespace TypeExpr

/-- What is left of a concrete type when the qualifiers and declarators of a pattern are
taken off its outside, none when they are not there. -/
def residue? (pattern concrete : TypeExpr) : Option TypeExpr :=
  let n := pattern.declarators.length
  let m := concrete.declarators.length
  if m < n || concrete.declarators.drop (m - n) ≠ pattern.declarators then none
  else
    let inner := { concrete with declarators := concrete.declarators.take (m - n) }
    if pattern.isConst || pattern.isVolatile then
      if inner.declarators ≠ [] || (pattern.isConst && !concrete.isConst) ||
          (pattern.isVolatile && !concrete.isVolatile) then none
      else some { inner with
        isConst := inner.isConst && !pattern.isConst
        isVolatile := inner.isVolatile && !pattern.isVolatile }
    else some inner

/-- Match a pattern whose base is a parameter. -/
def matchParam (pattern : TypeExpr) (param : String) (concrete : TypeExpr) (b : Bindings) : Match :=
  match pattern.residue? concrete with
  | some deduced => b.bind param (.type deduced)
  | none => (false, b)

/-- The parameter that is the base of a type. -/
def param? (params : List String) (t : TypeExpr) : Option String :=
  t.simple?.filter (params.contains ·)

end TypeExpr

/-- Two values are the same text or the same integer. -/
def TemplateArg.sameValue (p c : String) : Bool :=
  p = c || ((TemplateArg.value p).integer?.isSome &&
    (TemplateArg.value p).integer? = (TemplateArg.value c).integer?)

mutual
/-- Match a pattern against a type. -/
def TypeExpr.unify (params : List String) : TypeExpr → TypeExpr → Bindings → Match
  | ⟨isConst, isVolatile, base, declarators⟩, concrete, b =>
    let self : TypeExpr := ⟨isConst, isVolatile, base, declarators⟩
    match self.param? params with
    | some param => self.matchParam param concrete b
    | none =>
      if isConst ≠ concrete.isConst || isVolatile ≠ concrete.isVolatile ||
          declarators ≠ concrete.declarators then (false, b)
      else base.unify params concrete.base b

/-- Match the base of a pattern, which is no parameter. A leading `::` makes no difference. -/
def TypeBase.unify (params : List String) : TypeBase → TypeBase → Bindings → Match
  | .fundamental n, .fundamental m, b => (n = m, b)
  | .named _ ps, .named _ cs, b =>
    if ps.length = cs.length then NameSegment.unifyAll params ps cs b else (false, b)
  | _, _, b => (false, b)

/-- Match a segment. -/
def NameSegment.unify (params : List String) : NameSegment → NameSegment → Bindings → Match
  | .plain n, .plain m, b => (n = m, b)
  | .applied n ps, .applied m cs, b =>
    if n = m && ps.length = cs.length then TemplateArg.unifyAll params ps cs b else (false, b)
  | _, _, b => (false, b)

/-- Match an argument. A bare parameter also takes a value. -/
def TemplateArg.unify (params : List String) : TemplateArg → TemplateArg → Bindings → Match
  | .type p, .type c, b => p.unify params c b
  | .type p, .value c, b =>
    match p.param? params with
    | some param => b.bind param (.value c)
    | none => (false, b)
  | .value p, .value c, b => (TemplateArg.sameValue p c, b)
  | .value _, .type _, b => (false, b)

/-- Match segments in order, up to the first mismatch. -/
def NameSegment.unifyAll (params : List String) :
    List NameSegment → List NameSegment → Bindings → Match
  | p :: ps, c :: cs, b =>
    match p.unify params c b with
    | (true, b) => NameSegment.unifyAll params ps cs b
    | (false, b) => (false, b)
  | _, _, b => (true, b)

/-- Match arguments in order, up to the first mismatch. -/
def TemplateArg.unifyAll (params : List String) :
    List TemplateArg → List TemplateArg → Bindings → Match
  | p :: ps, c :: cs, b =>
    match p.unify params c b with
    | (true, b) => TemplateArg.unifyAll params ps cs b
    | (false, b) => (false, b)
  | _, _, b => (true, b)
end

namespace TypeExpr

/-- Match a pattern; a mismatch leaves nothing bound. -/
def unify? (params : List String) (pattern concrete : TypeExpr) (b : Bindings) :
    Option Bindings :=
  match pattern.unify params concrete b with
  | (true, b) => some b
  | (false, _) => none

end TypeExpr

namespace TemplateArg

/-- Two lists of arguments denote the same arguments. -/
def denoteSame (as bs : List TemplateArg) : Bool :=
  as.length = bs.length && (as.zip bs).all fun (a, b) => (a.unify [] b {}).1

end TemplateArg
end Bindery
