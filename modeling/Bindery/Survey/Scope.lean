import Bindery.Header
import Bindery.Instance.Evidence

/-!
# Names in scope

A type is written with the names that are visible where it stands. To store it, its names
are completed: a name that is known in an enclosing scope gets that scope in front, the
innermost scope first, and aliases are expanded. A template parameter shadows everything
outside, and inside a class template the bare name of the template stands for the template
with its own arguments.

## Main definitions

* `Scope`: where a declaration stands.
* `Survey`: what the walk over a header has found so far.
* `Survey.normalize`: complete the names of a type.
* `Walk`, `Attempt`: steps of the walk, and steps that may have to skip something.
-/
namespace Bindery

/-- Where a declaration stands. -/
structure Scope where
  /-- The enclosing namespaces and classes. -/
  path : List String := []
  /-- The mark of the enclosing declaration. -/
  mark : ExportMark := .unmarked
  /-- The template parameters that are visible. -/
  templateParams : List String := []
  /-- Inside a class template, its name and the type that the name stands for. -/
  injected : Option (String × TypeExpr) := none
deriving DecidableEq, Inhabited

/-- The scope of a namespace or class inside another scope. -/
def Scope.nested (s : Scope) (segments : List String) (mark : ExportMark) : Scope :=
  { s with path := s.path ++ segments, mark }

/-- The scopes that can complete a name, the innermost first. -/
def Scope.outward (s : Scope) : List (List String) :=
  (List.range s.path.length).reverse.map fun i => s.path.take (i + 1)

/-- What the walk over a header has found so far. -/
structure Survey where
  files : Array SourceFile
  entities : List Entity := []
  /-- The complete names of classes, templates and aliases. -/
  known : List String := []
  aliases : OrderedMap String TypeExpr := {}
  evidence : List Evidence := []
  diagnostics : List Diagnostic := []

namespace Survey

/-- What has to stand in front of a written name. -/
def leadFor (s : Survey) (scope : Scope) (written : List String) : Option (List String) :=
  let isParam := match written with
    | [name] => scope.templateParams.contains name
    | _ => false
  if isParam then none
  else scope.outward.find? fun outer => s.known.contains ("::".intercalate (outer ++ written))

/-- The type that a path without template arguments is an alias of. -/
def aliasOf (s : Survey) (segments : List NameSegment) : Option TypeExpr :=
  if segments.any fun seg => seg.args?.isSome then none
  else s.aliases.find? (NameSegment.path segments)

/-- The bindings of the name that a class template has inside itself. -/
def injectedBindings (scope : Scope) : Bindings :=
  match scope.injected with
  | some (name, type) => .ofList [(name, .type type)]
  | none => {}

/-- Complete the names of a type that is written in a scope. -/
def normalize (s : Survey) (scope : Scope) (t : TypeExpr) : TypeExpr :=
  ((t.substitute (injectedBindings scope)).qualify (s.leadFor scope)).unaliased s.aliasOf

/-- The type that a spelling denotes in a scope. -/
def resolveType? (s : Survey) (scope : Scope) (spelling : String) : Option TypeExpr :=
  (TypeExpr.parse spelling).toOption.map (s.normalize scope)

/-- The template arguments that spellings denote in a scope. -/
def resolveArgs? (s : Survey) (scope : Scope) (spellings : List String) :
    Option (List TemplateArg) :=
  spellings.mapM fun text =>
    (TemplateArg.parse text).toOption.map (TemplateArg.mapType (s.normalize scope))

end Survey

/-- A step of the walk. -/
abbrev Walk := StateM Survey

/-- A step of the walk that may skip what it was to build. -/
abbrev Attempt := OptionT Walk

namespace Walk

/-- The place of a declaration. -/
def place (info : DeclInfo) : Walk (Option Location) := do
  return info.origin.bind (locate? (← get).files)

/-- Report something. -/
def warn (code : DiagnosticCode) (message : String) (location : Option Location) : Walk Unit :=
  modify fun s => { s with diagnostics := s.diagnostics ++ [.warning code message location] }

/-- Report something and skip it. -/
def refuse {α : Type} (code : DiagnosticCode) (message : String) (location : Option Location) :
    Attempt α := do
  warn code message location
  failure

/-- Report something for which there is no support, and skip it. -/
def refuseUnsupported {α : Type} (what : String) (location : Option Location) : Attempt α :=
  refuse .unsupportedDeclaration (what ++ "; skipped") location

/-- The directives above a declaration, and above the one inside it if there is one. -/
def directivesAbove (info : DeclInfo) (inner : Option DeclInfo) : Walk Directives := do
  let (directives, complaints) :=
    Directives.ofComments (info.comments ++ (inner.map (·.comments)).getD [])
  let location ← place info
  complaints.forM fun complaint => warn .malformedDirective complaint location
  return directives

/-- Make the complete name of a type known. -/
def makeKnown (path : List String) : Walk Unit :=
  modify fun s =>
    let name := "::".intercalate path
    if s.known.contains name then s else { s with known := name :: s.known }

/-- Note an alias. A target that is no type is ignored. -/
def declareAlias (scope : Scope) (name : Option DeclName) (type : Option String)
    (isComplex : Bool) : Walk Unit := do
  match name, type, isComplex with
  | some name, some type, false =>
    match (← get).resolveType? scope type with
    | none => return
    | some target =>
      let path := scope.path ++ [name.simple]
      makeKnown path
      modify fun s => { s with aliases := s.aliases.insert ("::".intercalate path) target }
  | _, _, _ => return

/-- Add an entity behind the others. -/
def addEntity (e : Entity) : Walk Unit := modify fun s => { s with entities := s.entities ++ [e] }

/-- Add an entity at a place in the list. -/
def insertEntity (index : Nat) (e : Entity) : Walk Unit :=
  modify fun s => { s with entities := s.entities.take index ++ e :: s.entities.drop index }

/-- Note a hint at an instantiation. -/
def addEvidence (e : Evidence) : Walk Unit :=
  modify fun s => { s with evidence := s.evidence ++ [e] }

end Walk
end Bindery
