import Mathlib.Logic.Relation
import Bindery.Proofs.Instance.Resolution
import Bindery.Proofs.Survey.Quiet

/-!
# What a walk collects

A walk over declarations only ever adds to what it has collected. Behind the entities come
classes, a function, or a template, which has nothing in its catalogue and comes together with
the directives on it; or one more hint comes behind the others. Members of a class add nothing
but classes, so that the place in front of them, where the class itself is put, is behind
everything collected before.

## Main definitions

* `Walk.Step`: one addition to what was collected.
* `Walk.Plain`: one that is no class and no template.
* `Walk.Leads`: a step of the walk makes only additions of some sort.
-/
namespace Bindery

/-- Entities and hints. -/
abbrev Collection := List Entity × List Evidence

/-- The declaration is no block, no class and no template. -/
def Declaration.isPlain : Declaration → Bool
  | namespaceDef .. | linkage .. | classDef .. | template .. => false
  | function .. | field .. | typeAlias .. | usingDecl .. | instantiation .. | skipped .. |
    access .. => true

/-- The entities and the hints that the walk has collected. -/
def Survey.collected (s : Survey) : Collection := (s.entities, s.evidence)

namespace Walk

/-- More classes behind what was collected. -/
def AddsClasses (before after : Collection) : Prop :=
  ∃ classes : List ClassEntity, after = (before.1 ++ classes.map .ofClass, before.2)

/-- One addition to what was collected. -/
inductive Step : Collection → Collection → Prop where
  | classes {before after : Collection} (h : AddsClasses before after) : Step before after
  | function {entities : List Entity} {hints : List Evidence} (f : FunctionEntity) :
      Step (entities, hints) (entities ++ [.ofFunction f], hints)
  /-- A template comes with the directives on it, which name its place. -/
  | template {entities : List Entity} {hints : List Evidence} (t : TemplateEntity)
      (own : List Evidence) (hfresh : t.instantiations = [])
      (hown : ∀ e ∈ own, ∃ requests, e.kind = .requests entities.length requests) :
      Step (entities, hints) (entities ++ [.ofTemplate t], hints ++ own)
  /-- A hint that names no place. -/
  | hint {entities : List Entity} {hints : List Evidence} (e : Evidence)
      (hkind : ∀ index requests, e.kind ≠ .requests index requests) :
      Step (entities, hints) (entities, hints ++ [e])

/-- One addition of a function, or of a hint that names no place. -/
inductive Plain : Collection → Collection → Prop where
  | function {entities : List Entity} {hints : List Evidence} (f : FunctionEntity) :
      Plain (entities, hints) (entities ++ [.ofFunction f], hints)
  | hint {entities : List Entity} {hints : List Evidence} (e : Evidence)
      (hkind : ∀ index requests, e.kind ≠ .requests index requests) :
      Plain (entities, hints) (entities, hints ++ [e])

theorem Plain.step {before after : Collection} (h : Plain before after) : Step before after := by
  cases h with
  | function f => exact .function f
  | hint e hkind => exact .hint e hkind

/-- A step of the walk makes only additions of some sort. -/
def Leads (R : Collection → Collection → Prop) {α : Type} (w : Walk α) : Prop :=
  ∀ s, Relation.ReflTransGen R s.collected (w.run s).2.collected

/-! ## Composition -/

section Rules

variable {R Q : Collection → Collection → Prop}
variable {α β : Type}

theorem Leads.mono (hRQ : ∀ a b, R a b → Q a b) {w : Walk α} (hw : Leads R w) : Leads Q w :=
  fun s => Relation.ReflTransGen.mono hRQ _ _ (hw s)

/-- What every addition keeps, the step keeps. -/
theorem Leads.keeps {w : Walk α} (hw : Leads R w) {P : Collection → Prop}
    (hadd : ∀ a b, R a b → P a → P b) {s : Survey} (hs : P s.collected) :
    P (w.run s).2.collected := by
  have hsteps := hw s
  generalize (w.run s).2.collected = after at hsteps ⊢
  induction hsteps with
  | refl => exact hs
  | tail _ hstep ih => exact hadd _ _ hstep ih

/-- What collects nothing leads somewhere by additions of every sort. -/
theorem Leads.of_quiet {w : Walk α} {P : Array SourceFile → α → Prop}
    (h : ∀ files, Quiet files (P files) w) : Leads R w := by
  intro s
  obtain ⟨-, -, hentities, hevidence⟩ := h s.files s rfl
  have hrun : (w.run s).2.collected = s.collected := Prod.ext hentities hevidence
  rw [hrun]

theorem leads_pure (a : α) : Leads R (pure a) := fun _ => .refl

theorem leads_get : Leads R get := fun _ => .refl

theorem Leads.bind {w : Walk α} {f : α → Walk β} (hw : Leads R w) (hf : ∀ a, Leads R (f a)) :
    Leads R (w >>= f) :=
  fun s => (hw s).trans (hf (w.run s).1 (w.run s).2)

theorem Leads.attempt_bind {a : Attempt α} {f : α → Attempt β} (ha : Leads R a.run)
    (hf : ∀ x, Leads R (f x).run) : Leads R (a >>= f).run := by
  rw [OptionT.run_bind]
  refine ha.bind fun found => ?_
  cases found with
  | none => exact leads_pure none
  | some x => exact hf x

theorem Leads.attempt_ite {c : Prop} [Decidable c] {a b : Attempt α} (ha : Leads R a.run)
    (hb : Leads R b.run) : Leads R (if c then a else b).run := by
  split
  · exact ha
  · exact hb

theorem Leads.lift {w : Walk α} (hw : Leads R w) : Leads R (OptionT.lift w).run :=
  hw

theorem leads_attempt_pure (a : α) : Leads R (pure a : Attempt α).run := leads_pure _

theorem leads_failure : Leads R (failure : Attempt α).run := leads_pure _

end Rules

section Quiet

variable {R : Collection → Collection → Prop}

theorem leads_place (info : DeclInfo) : Leads R (place info) := .of_quiet fun _ => quiet_place info

theorem leads_warn (code : DiagnosticCode) (message : String) (location : Option Location) :
    Leads R (warn code message location) :=
  .of_quiet fun _ => quiet_warn code message location

theorem leads_refuse {α : Type} (code : DiagnosticCode) (message : String)
    (location : Option Location) : Leads R (refuse code message location : Attempt α).run :=
  (leads_warn code message location).lift.attempt_bind fun _ => leads_failure

theorem leads_makeKnown (path : List String) : Leads R (makeKnown path) :=
  .of_quiet fun _ => quiet_makeKnown path

theorem leads_directivesAbove (info : DeclInfo) (inner : Option DeclInfo) :
    Leads R (directivesAbove info inner) :=
  .of_quiet fun _ => quiet_directivesAbove info inner

theorem leads_declareAlias (scope : Scope) (name : Option DeclName) (type : Option String)
    (isComplex : Bool) : Leads R (declareAlias scope name type isComplex) :=
  .of_quiet fun _ => quiet_declareAlias scope name type isComplex

theorem leads_freeFunction (scope : Scope) (mark : Option ExportMark) (info : DeclInfo)
    (f : FunctionDecl) : Leads R (freeFunction scope mark info f).run :=
  .of_quiet fun _ => quietTry_freeFunction scope mark info f

theorem leads_functionArgs (scope : Scope) (f : FunctionDecl) :
    Leads R (functionArgs scope f).run :=
  .of_quiet fun _ => quietTry_functionArgs scope f

theorem leads_templateParams (scope : Scope) (location : Option Location)
    (ps : List TemplateParamDecl) : Leads R (templateParams scope location ps).run :=
  .of_quiet fun _ => quietTry_templateParams scope location ps

theorem leads_memberFunction (c : ClassContext) (access : Access) (mark : ExportMark)
    (info : DeclInfo) (f : FunctionDecl) :
    Leads R (memberFunction c access mark info f).run :=
  .of_quiet fun _ => quietTry_memberFunction c access mark info f

theorem leads_memberFields (scope : Scope) (access : Access) (mark : ExportMark)
    (info : DeclInfo) (f : FieldDecl) : Leads R (memberFields scope access mark info f) :=
  .of_quiet fun _ => quiet_memberFields access mark scope info f

end Quiet

/-! ## Classes -/

/-- Classes that come one after the other come together. -/
theorem addsClasses_of_reflTransGen {a b : Collection} (h : Relation.ReflTransGen AddsClasses a b) :
    AddsClasses a b := by
  induction h with
  | refl => exact ⟨[], by simp⟩
  | tail _ hstep ih =>
      obtain ⟨first, rfl⟩ := ih
      obtain ⟨rest, rfl⟩ := hstep
      exact ⟨first ++ rest, by simp⟩

/-- A class that is put in front of the added classes is one more of them. -/
theorem AddsClasses.insert {s after : Survey} (h : AddsClasses s.collected after.collected)
    (c : ClassEntity) : AddsClasses s.collected
      ((insertEntity s.entities.length (.ofClass c)).run after).2.collected := by
  obtain ⟨classes, hafter⟩ := h
  have hentities : after.entities = s.entities ++ classes.map .ofClass := congrArg Prod.fst hafter
  have hhints : after.evidence = s.evidence := congrArg Prod.snd hafter
  have hrun : ((insertEntity s.entities.length (.ofClass c)).run after).2.collected =
      (after.entities.take s.entities.length ++
        .ofClass c :: after.entities.drop s.entities.length, after.evidence) := rfl
  refine ⟨c :: classes, ?_⟩
  rw [hrun, hentities, hhints]
  simp [Survey.collected]

section Classes

variable {R : Collection → Collection → Prop}

/-- A class adds what its members do. -/
theorem leads_classEntity (scope : Scope) (mark : Option ExportMark) (info : DeclInfo)
    (head : ClassHead) {walkBody : MemberWalk} (hbody : ∀ c, Leads R (walkBody c)) :
    Leads R (classEntity scope mark info head walkBody).run := by
  unfold classEntity
  refine (leads_place info).lift.attempt_bind fun location => ?_
  split
  · exact leads_refuse _ _ _
  · refine (leads_makeKnown _).lift.attempt_bind fun _ => ?_
    dsimp only
    split
    · exact .attempt_ite (leads_refuse _ _ _) leads_failure
    · exact .attempt_ite (leads_refuse _ _ _) leads_failure
    · refine .attempt_ite leads_failure ?_
      refine leads_get.lift.attempt_bind fun survey => ?_
      exact (hbody _).lift.attempt_bind fun _ => leads_attempt_pure _

/-- The class is put in front of the classes among its members, and so behind all else. -/
theorem leads_declareClass (scope : Scope) (mark : Option ExportMark) (info : DeclInfo)
    (head : ClassHead) {walkBody : MemberWalk} (hbody : ∀ c, Leads AddsClasses (walkBody c)) :
    Leads AddsClasses (declareClass scope mark info head walkBody) := by
  unfold declareClass
  split
  · exact (leads_place info).bind fun _ => leads_warn _ _ _
  · intro s
    have hclass := addsClasses_of_reflTransGen (leads_classEntity scope mark info head hbody s)
    simp only [StateT.run_bind, StateT.run_get, pure_bind]
    generalize (classEntity scope mark info head walkBody).run.run s = result at hclass ⊢
    obtain ⟨found, after⟩ := result
    cases found with
    | none => exact .single hclass
    | some c => exact .single (hclass.insert c)

theorem leads_nestedClass (c : ClassContext) (access : Access) (info : DeclInfo)
    (head : ClassHead) {walkBody : MemberWalk} (hbody : ∀ c, Leads AddsClasses (walkBody c)) :
    Leads AddsClasses (nestedClass c access info head walkBody) := by
  unfold nestedClass
  refine (leads_directivesAbove info none).bind fun own => ?_
  split
  · exact (leads_place info).bind fun _ => leads_warn _ _ _
  · split
    · exact leads_declareClass _ _ info head hbody
    · split
      · exact leads_makeKnown _
      · exact leads_pure _

end Classes

/-! ## Templates -/

theorem leads_addEntity_function (f : FunctionEntity) : Leads Plain (addEntity (.ofFunction f)) :=
  fun _ => .single (.function f)

theorem leads_addEvidence {e : Evidence} (h : ∀ index requests, e.kind ≠ .requests index requests) :
    Leads Plain (addEvidence e) :=
  fun _ => .single (.hint e h)

/-- A template and the directives on it are one addition. -/
theorem leads_addTemplate (scope : Scope) (directives : Directives) (location : Option Location)
    (name : QualifiedName) (params : List TemplateParam) (pattern : Concrete) :
    Leads Step (addTemplate scope directives location name params pattern) := by
  unfold addTemplate
  refine (leads_makeKnown _).bind fun _ => ?_
  by_cases hrequests : directives.requests.isEmpty = true
  · simp only [hrequests, Bool.not_true, Bool.false_eq_true, if_false]
    intro s
    have hstep (t : TemplateEntity) (ht : t.instantiations = []) :
        Step (s.entities, s.evidence) (s.entities ++ [.ofTemplate t], s.evidence) := by
      simpa using Step.template t [] ht (by simp)
    exact .single (hstep _ rfl)
  · simp only [hrequests, Bool.not_false, if_true]
    intro s
    refine .single (.template _ [_] rfl ?_)
    simp

section Templates

variable (scope : Scope) (directives : Directives) (location : Option Location)
variable (params : List TemplateParam) (info : DeclInfo)

theorem leads_templateClass (head : ClassHead) {walkBody : MemberWalk}
    (hbody : ∀ c, Leads AddsClasses (walkBody c)) :
    Leads Step (templateClass scope directives location params info head walkBody).run := by
  have hclass (within : Scope) (mark : Option ExportMark) :
      Leads Step (classEntity within mark info head walkBody).run :=
    leads_classEntity within mark info head fun c => (hbody c).mono fun _ _ => .classes
  unfold templateClass
  split
  · exact leads_failure
  · dsimp only
    split
    · exact leads_refuse _ _ _
    · exact (hclass _ _).attempt_bind fun _ => (leads_addTemplate _ _ _ _ _ _).lift
    · refine leads_get.lift.attempt_bind fun survey => ?_
      split
      · exact leads_failure
      · refine (hclass _ _).attempt_bind fun _ => ?_
        exact ((leads_addEvidence (by simp)).mono fun _ _ => Plain.step).lift
    · refine leads_get.lift.attempt_bind fun survey => ?_
      split
      · exact leads_failure
      · refine (hclass _ _).attempt_bind fun _ => ?_
        exact ((leads_addEvidence (by simp)).mono fun _ _ => Plain.step).lift

theorem leads_templateFunction (f : FunctionDecl) :
    Leads Step (templateFunction scope directives location params info f).run := by
  unfold templateFunction
  split
  · exact leads_failure
  · refine .attempt_ite leads_failure ?_
    refine (leads_freeFunction _ _ _ _).attempt_bind fun entity => ?_
    split
    · refine (leads_functionArgs scope f).attempt_bind fun args => ?_
      exact ((leads_addEvidence (by simp)).mono fun _ _ => Plain.step).lift
    · exact (leads_addTemplate _ _ _ _ _ _).lift
    · exact leads_refuse _ _ _

theorem leads_explicitClass (head : ClassHead) :
    Leads Plain (explicitClass scope location head) := by
  unfold explicitClass
  split
  · refine leads_get.bind fun survey => ?_
    split
    · exact leads_pure _
    · exact leads_addEvidence (by simp)
  · exact leads_pure _

theorem leads_explicitFunction (f : FunctionDecl) :
    Leads Plain (explicitFunction scope location info f).run := by
  unfold explicitFunction
  split
  · exact leads_failure
  · refine (leads_functionArgs scope f).attempt_bind fun args => ?_
    refine (leads_freeFunction _ _ _ _).attempt_bind fun entity => ?_
    exact (leads_addEvidence (by simp)).lift

end Templates

/-! ## The walk -/

theorem leads_attempt {R : Collection → Collection → Prop} {step : Attempt Unit}
    (h : Leads R step.run) : Leads R (attempt step) :=
  h.bind fun _ => leads_pure _

mutual
/-- Members of a class add classes. -/
theorem leads_walkMember (c : ClassContext) (access : Access) :
    (d : Declaration) → Leads AddsClasses (walkMember c access d)
  | .function info f => by
      rw [walkMember]
      refine (leads_directivesAbove info none).bind fun own => ?_
      exact (leads_memberFunction _ _ _ _ _).bind fun _ => leads_pure _
  | .field info f => by
      rw [walkMember]
      exact (leads_directivesAbove info none).bind fun own => leads_memberFields _ _ _ _ _
  | .classDef info head members => by
      rw [walkMember]
      refine (leads_nestedClass c access info head fun n => ?_).bind fun _ => leads_pure _
      exact leads_walkMembers n n.kind.defaultAccess members
  | .template info _ _ => by
      rw [walkMember]
      refine (leads_place info).bind fun _ => ?_
      exact (leads_warn _ _ _).bind fun _ => leads_pure _
  | .typeAlias _ _ name type isComplex => by
      rw [walkMember]
      exact (leads_declareAlias _ _ _ _).bind fun _ => leads_pure _
  | .skipped info description => by
      rw [walkMember]
      refine (leads_place info).bind fun _ => ?_
      exact (leads_warn _ _ _).bind fun _ => leads_pure _
  | .usingDecl .. | .namespaceDef .. | .linkage .. | .instantiation .. | .access .. => by
      rw [walkMember]
      exact leads_pure _

theorem leads_walkMembers (c : ClassContext) (access : Access) :
    (ds : List Declaration) → Leads AddsClasses (walkMembers c access ds)
  | [] => by
      rw [walkMembers]
      exact leads_pure _
  | d :: ds => by
      have hrest (level : Access) := leads_walkMembers c level ds
      have hfirst := leads_walkMember c access d
      unfold walkMembers
      split
      · exact leads_pure _
      · next heq => cases heq; exact hrest _
      · next heq =>
          cases heq
          exact hfirst.bind fun _ => (hrest access).bind fun _ => leads_pure _
end

section Declarations

variable (scope : Scope)

/-- A class at namespace scope adds classes. -/
theorem leads_classDef (info : DeclInfo) (head : ClassHead) (members : List Declaration) :
    Leads AddsClasses (declare scope (.classDef info head members)) := by
  rw [declare]
  refine (leads_directivesAbove info none).bind fun own => ?_
  exact leads_declareClass _ _ _ _ fun c => leads_walkMembers c _ members

/-- What is no block, no class and no template adds neither classes nor templates. -/
theorem leads_plain (d : Declaration) (hd : d.isPlain) : Leads Plain (declare scope d) := by
  cases d with
  | function info f =>
    rw [declare]
    refine (leads_directivesAbove info none).bind fun own => ?_
    refine (leads_freeFunction _ _ _ _).bind fun found => ?_
    cases found with
    | none => exact leads_pure _
    | some entity => exact leads_addEntity_function entity
  | instantiation info isExtern inner =>
    rw [declare]
    refine (leads_place info).bind fun location => ?_
    split
    · exact leads_explicitClass scope location _
    · exact leads_attempt (leads_explicitFunction scope location _ _)
    · exact leads_pure _
  | typeAlias info isTypedef name type isComplex =>
    rw [declare]
    exact leads_declareAlias scope name type isComplex
  | skipped info description =>
    rw [declare]
    exact (leads_place info).bind fun _ => leads_warn _ _ _
  | field | usingDecl | access =>
    rw [declare]
    exact leads_pure _
  | namespaceDef | linkage | classDef | template => cases hd

end Declarations

mutual
/-- A declaration makes additions. -/
theorem leads_declare (scope : Scope) : (d : Declaration) → Leads Step (declare scope d)
  | .namespaceDef info name _ body => by
      rw [declare]
      refine (leads_directivesAbove info none).bind fun own => ?_
      exact leads_declareAll _ body
  | .linkage _ body => by
      rw [declare]
      exact leads_declareAll scope body
  | .classDef info head members =>
      (leads_classDef scope info head members).mono fun _ _ => Step.classes
  | .template info params inner => by
      rw [declare, declareTemplate]
      refine (leads_place info).bind fun location => ?_
      refine (leads_directivesAbove info _).bind fun own => ?_
      refine (leads_templateParams scope location params).bind fun found => ?_
      split
      · exact leads_pure _
      · split
        · exact leads_pure _
        · exact leads_pure _
        · refine leads_attempt (leads_templateClass _ _ _ _ _ _ fun c => ?_)
          exact leads_walkMembers c _ _
        · exact leads_attempt (leads_templateFunction _ _ _ _ _ _)
        · exact leads_warn _ _ _
  | .function .. | .instantiation .. | .typeAlias .. | .skipped .. | .field .. | .usingDecl .. |
    .access .. => (leads_plain scope _ rfl).mono fun _ _ => Plain.step

theorem leads_declareAll (scope : Scope) :
    (ds : List Declaration) → Leads Step (declareAll scope ds)
  | [] => by
      rw [declareAll]
      exact leads_pure _
  | d :: ds => by
      rw [declareAll]
      exact (leads_declare scope d).bind fun _ => leads_declareAll scope ds
end

/-! ## Catalogues of a header -/

theorem Step.uncatalogued {before after : Collection} (h : Step before after)
    (hbefore : Evidence.Uncatalogued before.1) : Evidence.Uncatalogued after.1 := by
  intro t ht
  cases h with
  | classes h =>
      obtain ⟨classes, rfl⟩ := h
      simp only [List.mem_append, List.mem_map, reduceCtorEq, and_false, exists_false,
        or_false] at ht
      exact hbefore t ht
  | function f =>
      simp only [List.mem_append, List.mem_singleton, reduceCtorEq, or_false] at ht
      exact hbefore t ht
  | template u own hfresh =>
      simp only [List.mem_append, List.mem_singleton, Entity.ofTemplate.injEq] at ht
      rcases ht with ht | rfl
      · exact hbefore t ht
      · exact hfresh
  | hint => exact hbefore t ht

/-- The walk over a header leaves all catalogues empty. -/
theorem uncatalogued_declareAll (scope : Scope) (ds : List Declaration) {s : Survey}
    (h : Evidence.Uncatalogued s.entities) :
    Evidence.Uncatalogued ((declareAll scope ds).run s).2.entities :=
  (leads_declareAll scope ds).keeps (fun _ _ => Step.uncatalogued) h

end Walk

/-- The templates of a header have the catalogues that its hints ask for. -/
theorem HeaderUnit.exists_catalogue_ofHeader (h : Header) {index : ℕ} {t : TemplateEntity}
    (ht : templateAt? h.survey.entities index = some t) : ∃ catalogue,
      templateAt? (ofHeader h).entities index = some { t with instantiations := catalogue } ∧
      Evidence.Catalogues h.survey.entities h.survey.evidence index t catalogue := by
  have hstart : Evidence.Uncatalogued [] := fun t ht => absurd ht List.not_mem_nil
  exact Evidence.exists_catalogue (Walk.uncatalogued_declareAll {} h.declarations hstart) ht

end Bindery
