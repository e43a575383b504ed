import Bindery.Entity.Substitution

/-!
# Evidence of instantiations

While a header is walked, every hint at an instantiation is noted with the scope it was
written in: directives on a template, specialisations, and explicit instantiations. The
hints are matched to templates once all templates are known.

## Main definitions

* `Evidence`: a hint and where it was written.
* `PartialSpec`, `FullSpec`: specialisations of a template.
-/
namespace Bindery

/-- A partial specialisation. -/
structure PartialSpec where
  params : List TemplateParam
  /-- Arguments for the primary template, in terms of `params`. -/
  args : List TemplateArg
  pattern : Concrete
  requests : List InstanceRequest
  mark : Option ExportMark
deriving DecidableEq, Inhabited

/-- A full specialisation. -/
structure FullSpec where
  args : List TemplateArg
  entity : Concrete
  mark : Option ExportMark
deriving DecidableEq, Inhabited

/-- What a hint says. -/
inductive EvidenceKind where
  /-- Directives on the template at a place in the list of entities. -/
  | requests (template : Nat) (requests : List InstanceRequest)
  | partialSpec (spec : PartialSpec)
  /-- A full specialisation; the arguments of a function may be left to deduction. -/
  | fullSpec (args : Option (List TemplateArg)) (entity : Concrete) (mark : Option ExportMark)
  /-- An explicit instantiation of a class, or of a function with the given signature. -/
  | explicit (args : Option (List TemplateArg)) (signature : Option Signature)
deriving DecidableEq, Inhabited

/-- A hint at an instantiation. -/
structure Evidence where
  /-- The scope that the hint was written in. -/
  scope : List String
  /-- The name of the template as written; empty for directives. -/
  template : List String
  kind : EvidenceKind
  location : Option Location
deriving DecidableEq, Inhabited

end Bindery
