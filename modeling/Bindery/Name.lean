import Bindery.Text.Blank

/-!
# Qualified names

A declared entity is identified by a path of segments separated by `::`. An entity of the
global namespace has a single segment.

## Main definitions

* `QualifiedName.parse`: reads `a::b::C`, dropping empty segments and so a leading `::`.
* `QualifiedName.isNamedBy`: whether a query names the entity by a suffix of its path.
-/
namespace Bindery

/-- A path of segments, outermost first. -/
structure QualifiedName where
  segments : List String
deriving DecidableEq, Inhabited

namespace QualifiedName

/-- The pieces of a text between the separators `::`, taken from left to right. -/
def splitScope : List Char → List (List Char)
  | [] => [[]]
  | ':' :: ':' :: cs => [] :: splitScope cs
  | c :: cs =>
    match splitScope cs with
    | [] => [[c]]
    | piece :: pieces => (c :: piece) :: pieces

/-- Read a path. Pieces are trimmed, and the empty ones vanish. -/
def parse (text : String) : QualifiedName :=
  ⟨(((splitScope text.toList).map Text.trimChars).filter (!·.isEmpty)).map String.ofList⟩

/-- The entity `name` of the given enclosing path. -/
def within (scope : List String) (name : String) : QualifiedName := ⟨scope ++ [name]⟩

/-- The last segment, empty for the empty path. -/
def name (q : QualifiedName) : String := q.segments.getLastD ""

/-- All segments but the last. -/
def scope (q : QualifiedName) : List String := q.segments.dropLast

/-- The path has no segment. -/
def isEmpty (q : QualifiedName) : Bool := q.segments.isEmpty

/-- The path as it is written. -/
def text (q : QualifiedName) : String := "::".intercalate q.segments

/-- The entity is named by `query`: a non-empty path that ends the entity's own. -/
def matchesPath (q query : QualifiedName) : Bool :=
  !query.segments.isEmpty && query.segments.isSuffixOf q.segments

/-- The entity is named by the written path `query`. -/
def isNamedBy (q : QualifiedName) (query : String) : Bool := q.matchesPath (parse query)

@[simp] theorem segments_within (scope : List String) (name : String) :
    (within scope name).segments = scope ++ [name] := rfl

@[simp] theorem name_within (scope : List String) (name : String) :
    (within scope name).name = name := by simp [QualifiedName.name, List.getLastD_eq_getLast?]

@[simp] theorem scope_within (scope : List String) (name : String) :
    (within scope name).scope = scope := by simp [QualifiedName.scope]

/-- The empty query names nothing. -/
@[simp] theorem matchesPath_nil (q : QualifiedName) : q.matchesPath ⟨[]⟩ = false := rfl

end QualifiedName
end Bindery
