import Bindery.Registry
import Bindery.Value.Host

/-!
# Matching calls against signatures

A call is described by a tag per argument, and a signature by a pattern per parameter. An
argument matches a pattern exactly, after a conversion, or because the pattern takes
anything; a signature matches as well as its worst argument does. Trailing parameters with a
default may be left out.

## Main definitions

* `ArgTag`: the sort of an argument.
* `ArgPattern`: what a parameter accepts.
* `MatchTier`: how good a match is.
* `SignaturePattern.tier?`: how well a call matches a signature.
-/
namespace Bindery

/-- The sort of an argument. -/
inductive ArgTag where
  | nothing
  | bool
  | int
  | float
  | str
  | object (className : String)
  | array (element : HostElement) (shape : List Nat)
deriving DecidableEq, Inhabited

namespace ArgTag

/-- The sort of a value. -/
def ofValue : HostValue → ArgTag
  | .nothing => nothing
  | .bool _ => bool
  | .int _ => int
  | .float _ => float
  | .str _ => str
  | .object h => object h.className
  | .array a => array a.element a.shape

/-- A sort as text. -/
def text : ArgTag → String
  | nothing => "None"
  | bool => "bool"
  | int => "int"
  | float => "float"
  | str => "str"
  | object className => className
  | array element shape => "array<" ++ element.text ++ ">" ++ shapeText shape

/-- The sorts of the arguments of a call on one line. -/
def callText (call : List ArgTag) : String := ", ".intercalate (call.map text)

end ArgTag

/-- How good a match is, the best first. -/
inductive MatchTier where
  | exact
  | compatible
  | generic
deriving DecidableEq, Inhabited

namespace MatchTier

/-- The place in the order of matches. -/
def rank : MatchTier → Nat
  | exact => 0
  | compatible => 1
  | generic => 2

/-- The worse of two matches. -/
def worse (a b : MatchTier) : MatchTier := if a.rank < b.rank then b else a

/-- The word for a match. -/
def text : MatchTier → String
  | exact => "exact"
  | compatible => "compatible"
  | generic => "generic"

end MatchTier

/-- What a parameter accepts. -/
inductive ArgPattern where
  | scalar (kind : ScalarKind)
  | str
  | object (className : String) (isNullable : Bool)
  | array (element : ScalarKind) (dims : Option (List Dim))
  | any
deriving DecidableEq, Inhabited

/-- How well an argument matches a scalar. A text may turn out to be too long for a
character. -/
def ScalarKind.tier? (k : ScalarKind) : ArgTag → Option MatchTier
  | .bool => if k = .bool then some .exact else none
  | .str => if k = .char then some .compatible else none
  | .int =>
    if k.isInteger then some .exact
    else if k.isFloat then some .compatible
    else none
  | .float => if k.isFloat then some .exact else none
  | _ => none

namespace ArgPattern

/-- The pattern of a type; `void` has none. -/
def ofNative? : NativeType → Option ArgPattern
  | .void => none
  | .scalar kind => some (scalar kind)
  | .text _ => some str
  | .array a => some (array a.element a.dims)
  | .object className ownership => some (object className (ownership = .borrowed))
  | .hostObject => some any

/-- How well an argument matches a pattern. -/
def tier? (isSubclass : String → String → Bool) (p : ArgPattern) (arg : ArgTag) :
    Option MatchTier :=
  match p, arg with
  | any, _ => some .generic
  | scalar kind, arg => kind.tier? arg
  | str, .str => some .exact
  | object className _, .object actual =>
    if actual = className then some .exact
    else if isSubclass actual className then some .compatible
    else none
  | object _ true, .nothing => some .compatible
  | array element dims, .array host shape =>
    if element.acceptsElement host then
      match dims with
      | none => some .generic
      | some dims => if Dim.acceptAll dims shape then some .compatible else none
    else none
  | _, _ => none

end ArgPattern

/-- The patterns of a signature. -/
structure SignaturePattern where
  params : List ArgPattern
  /-- How many arguments have to be given. -/
  required : Nat
deriving DecidableEq, Inhabited

namespace SignaturePattern

/-- The signature without parameters. -/
def empty : SignaturePattern := ⟨[], 0⟩

/-- The pattern of one parameter. -/
def ofParam (r : Registry) (p : Param) : Except MarshalFault ArgPattern := do
  let native ← r.valueType p.type
  match ArgPattern.ofNative? native with
  | some pattern => return pattern
  | none => throw (.unsupported p.type.text)

/-- How many parameters there are up to the last one without a default. -/
def requiredCount (params : List Param) : Nat :=
  (params.reverse.dropWhile (·.default.isSome)).length

/-- The patterns of parameters. -/
def ofParams (r : Registry) (params : List Param) : Except MarshalFault SignaturePattern := do
  return ⟨← params.mapM (ofParam r), requiredCount params⟩

/-- The pattern of a function whose result can cross the boundary. -/
def ofSignature (r : Registry) (s : Signature) : Except MarshalFault SignaturePattern := do
  let _ ← r.resultType s.result
  ofParams r s.params

/-- The worst match of arguments against patterns in order. -/
def worstTier? (isSubclass : String → String → Bool) :
    List ArgPattern → List ArgTag → Option MatchTier
  | p :: ps, a :: as => do
    let first ← p.tier? isSubclass a
    let rest ← worstTier? isSubclass ps as
    return first.worse rest
  | _, _ => some .exact

/-- How well a call matches a signature. -/
def tier? (isSubclass : String → String → Bool) (s : SignaturePattern) (call : List ArgTag) :
    Option MatchTier :=
  if call.length < s.required || s.params.length < call.length then none
  else worstTier? isSubclass s.params call

end SignaturePattern
end Bindery
