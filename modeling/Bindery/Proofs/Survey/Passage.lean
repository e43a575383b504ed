import Bindery.Proofs.Survey.Steps
import Bindery.Proofs.TypeExpr.Settled
import Bindery.Proofs.TypeExpr.Substitution

/-!
# What the walk leaves behind at a declaration

The walk comes to every declaration at namespace scope once, in the scope of the namespaces around
it and with what was found in front of it. Later steps add to what was collected and take nothing
away, so what a declaration leaves behind is there at the end. An explicit instantiation leaves its
arguments behind with their names completed by what is known at that point.

## Main definitions

* `Walk.Meets`: the walk comes to a declaration.
* `Header.Meets`: the walk over a header does.

## Main statements

* `Header.Meets.explicit_mem_survey`: the hint of an explicit instantiation.
* `Survey.normalize_settled`: names that need no completion are left as they are.
-/
namespace Bindery

/-! ## Arguments in a scope -/

namespace Survey

variable {s : Survey} {scope : Scope}

/-- At namespace scope a type whose names need no completion stays as it is. -/
theorem normalize_settled (hscope : scope.injected = none) {t : TypeExpr}
    (h : t.Settled (s.leadFor scope) s.aliasOf) : s.normalize scope t = t := by
  have hbindings : t.substitute (injectedBindings scope) = t := by
    rw [injectedBindings, hscope]
    exact TypeExpr.substitute_empty t
  rw [normalize, hbindings, TypeExpr.qualify_settled h, TypeExpr.unaliased_settled h]

/-- Arguments that can be read are those that are read, with their names completed. -/
theorem resolveArgs?_eq_some {r : InstanceRequest} {read : List TemplateArg}
    (h : r.readArgs = .ok read) :
    s.resolveArgs? scope r.args = some (read.map (TemplateArg.mapType (s.normalize scope))) := by
  obtain ⟨name, args⟩ := r
  rw [InstanceRequest.readArgs] at h
  rw [resolveArgs?]
  induction args generalizing read with
  | nil =>
    cases h
    rfl
  | cons text texts ih =>
    rw [List.mapM_cons] at h ⊢
    obtain ⟨a, ha, h⟩ := bind_eq_ok.1 h
    obtain ⟨as, has, hread⟩ := bind_eq_ok.1 h
    cases hread
    have hrest : texts.mapM (fun text => (TemplateArg.parse text).toOption.map
        (TemplateArg.mapType (s.normalize scope))) = some (as.map _) := ih has
    rw [toOption_eq_some.2 (mapError_eq_ok.1 ha), hrest]
    rfl

end Survey

namespace Walk

/-- The walk through declarations, from a scope and a survey, comes to a declaration in a scope
with a survey. -/
inductive Meets (inner : Scope) (d : Declaration) (found : Survey) :
    Scope → List Declaration → Survey → Prop where
  | here {behind : List Declaration} : Meets inner d found inner (d :: behind) found
  | later {scope : Scope} {c : Declaration} {behind : List Declaration} {s : Survey}
      (h : Meets inner d found scope behind ((declare scope c).run s).2) :
      Meets inner d found scope (c :: behind) s
  | inNamespace {scope : Scope} {info : DeclInfo} {name : Option DeclName} {isInline : Bool}
      {body behind : List Declaration} {s t : Survey} {own : Directives}
      (hown : (directivesAbove info none).run s = (own, t))
      (h : Meets inner d found (scope.nested
        ((name.map fun n => (QualifiedName.parse n.text).segments).getD [])
        (.inherit own.mark scope.mark)) body t) :
      Meets inner d found scope (.namespaceDef info name isInline body :: behind) s
  | inLinkage {scope : Scope} {info : DeclInfo} {body behind : List Declaration} {s : Survey}
      (h : Meets inner d found scope body s) :
      Meets inner d found scope (.linkage info body :: behind) s

variable {inner scope : Scope} {d : Declaration} {found s : Survey} {ds : List Declaration}

/-- Where the walk goes on from a declaration, it adds to what that declaration left behind. -/
theorem Meets.leads (h : Meets inner d found scope ds s) : Relation.ReflTransGen Step
    ((declare inner d).run found).2.collected ((declareAll scope ds).run s).2.collected := by
  induction h with
  | @here behind =>
    rw [declareAll]
    exact leads_declareAll inner behind ((declare inner d).run found).2
  | later _ ih =>
    rw [declareAll]
    exact ih
  | @inNamespace scope info name isInline body behind s t own hown _ ih =>
    have hrun : (declare scope (.namespaceDef info name isInline body)).run s =
        (declareAll (scope.nested
          ((name.map fun n => (QualifiedName.parse n.text).segments).getD [])
          (.inherit own.mark scope.mark)) body).run t := by
      rw [declare]
      simp only [StateT.run_bind, hown]
      rfl
    rw [declareAll]
    rw [← hrun] at ih
    exact ih.trans (leads_declareAll scope behind ((declare scope _).run s).2)
  | @inLinkage scope info body behind s _ ih =>
    have hrun : (declare scope (.linkage info body)).run s = (declareAll scope body).run s := by
      rw [declare]
    rw [declareAll]
    rw [← hrun] at ih
    exact ih.trans (leads_declareAll scope behind ((declare scope _).run s).2)

/-- Namespaces bring no template parameter and no name of a class template along. -/
theorem Meets.injected_eq (h : Meets inner d found scope ds s) :
    inner.injected = scope.injected := by
  induction h with
  | here => rfl
  | later _ ih => exact ih
  | inNamespace _ _ ih => exact ih
  | inLinkage _ ih => exact ih

/-- An addition keeps the hints that were there. -/
theorem Step.subset {before after : Collection} (h : Step before after) : before.2 ⊆ after.2 := by
  cases h with
  | classes h =>
    obtain ⟨classes, rfl⟩ := h
    exact List.Subset.refl _
  | function f => exact List.Subset.refl _
  | template t own => exact List.subset_append_left _ _
  | hint e => exact List.subset_append_left _ _

theorem subset_of_steps {before after : Collection}
    (h : Relation.ReflTransGen Step before after) : before.2 ⊆ after.2 := by
  induction h with
  | refl => exact List.Subset.refl _
  | tail _ hstep ih => exact List.Subset.trans ih hstep.subset

end Walk

/-! ## Explicit instantiations -/

namespace Header

/-- The walk over a header comes to a declaration in a scope with a survey. -/
def Meets (h : Header) (scope : Scope) (d : Declaration) (s : Survey) : Prop :=
  Walk.Meets scope d s {} h.declarations { files := h.files, diagnostics := h.diagnostics }

variable {h : Header} {scope : Scope} {s : Survey}

/-- What a declaration leaves behind is there when the walk is over. -/
theorem Meets.mem_survey {d : Declaration} (hmeets : h.Meets scope d s) {e : Evidence}
    (he : e ∈ ((Walk.declare scope d).run s).2.evidence) : e ∈ h.survey.evidence :=
  Walk.subset_of_steps (Walk.Meets.leads hmeets) he

/-- An explicit instantiation of a class leaves its arguments behind, with their names completed by
what is known in front of it. -/
theorem Meets.explicit_mem_survey {info inner : DeclInfo} {isExtern : Bool} {head : ClassHead}
    {members : List Declaration} {name : DeclName} {spellings : List String}
    {args : List TemplateArg}
    (hmeets : h.Meets scope (.instantiation info isExtern (some (.classDef inner head members))) s)
    (hname : head.name = some name) (hspelled : head.templateArgs = some spellings)
    (hargs : s.resolveArgs? scope spellings = some args) :
    ∃ e ∈ h.survey.evidence, e.scope = scope.path ∧
      e.template = (QualifiedName.parse name.text).segments ∧
      e.kind = .explicit (some args) none := by
  let e : Evidence := ⟨scope.path, (QualifiedName.parse name.text).segments,
    .explicit (some args) none, info.origin.bind (locate? s.files)⟩
  have hclass : (Walk.explicitClass scope e.location head).run s =
      ((), { s with evidence := s.evidence ++ [e] }) := by
    simp only [Walk.explicitClass, hname, hspelled, StateT.run_bind, StateT.run_get, pure_bind,
      hargs]
    rfl
  have hrun : (Walk.declare scope (.instantiation info isExtern
      (some (.classDef inner head members)))).run s =
        (Walk.explicitClass scope e.location head).run s := by
    rw [Walk.declare]
    rfl
  refine ⟨e, hmeets.mem_survey ?_, rfl, rfl, rfl⟩
  rw [hrun, hclass]
  exact List.mem_append_right _ List.mem_cons_self

end Header
end Bindery
