import Bindery.Proofs.Survey.Quiet
import Bindery.Survey.Walk

/-!
# What all members have in common

Members are built by two steps of the walk, one for functions and one for fields. What these steps
make sure of holds of every member of every class of a header, and of every member behind a template
or a specialisation, since the walk only moves classes around after it has built them.

## Main definitions

* `Survey.AllMembers`: every member that was collected has a property.
* `Walk.Upholds`, `Walk.UpholdsTry`: a step keeps this up, and its result has a property too.
* `Walk.Ensures`: the steps that build members make sure of a property.

## Main statements

* `Header.allMembers_survey`: what is ensured holds of every member in a header.
-/
namespace Bindery

/-- Every member of a class has a property. -/
def ClassEntity.AllMembers (G : Member → Prop) (c : ClassEntity) : Prop := ∀ m ∈ c.members, G m

/-- Every member of a declaration has a property. -/
def Concrete.AllMembers (G : Member → Prop) : Concrete → Prop
  | ofClass c => c.AllMembers G
  | ofFunction _ => True

/-- Every member of an entity has a property; those of a template are the members of its primary
declaration. -/
def Entity.AllMembers (G : Member → Prop) : Entity → Prop
  | ofClass c => c.AllMembers G
  | ofFunction _ => True
  | ofTemplate t => t.pattern.AllMembers G

/-- Every member of a specialisation has a property. -/
def EvidenceKind.AllMembers (G : Member → Prop) : EvidenceKind → Prop
  | partialSpec spec => spec.pattern.AllMembers G
  | fullSpec _ entity _ => entity.AllMembers G
  | requests .. | explicit .. => True

/-- Every member that was collected has a property. -/
structure Survey.AllMembers (G : Member → Prop) (s : Survey) : Prop where
  entities : ∀ e ∈ s.entities, e.AllMembers G
  evidence : ∀ e ∈ s.evidence, e.kind.AllMembers G

namespace Walk

/-- A step keeps the property of all members, and its result has a property. -/
def Upholds (G : Member → Prop) {α : Type} (Q : α → Prop) (w : Walk α) : Prop :=
  ∀ s : Survey, s.AllMembers G → Q (w.run s).1 ∧ (w.run s).2.AllMembers G

/-- The same of a step that may have to skip something. -/
def UpholdsTry (G : Member → Prop) {α : Type} (Q : α → Prop) (t : Attempt α) : Prop :=
  Upholds G (fun found => ∀ x ∈ found, Q x) t.run

/-- The steps that build members make sure of a property. -/
structure Ensures (G : Member → Prop) : Prop where
  function : ∀ files c access mark info f, QuietTry files G (memberFunction c access mark info f)
  fields : ∀ files scope access mark info f,
    Quiet files (fun ms => ∀ m ∈ ms, G m) (memberFields scope access mark info f)

variable {G : Member → Prop}

/-! ## Composition -/

section Rules

variable {α β : Type} {P Q : α → Prop} {R : β → Prop}

theorem upholds_pure {x : α} (hx : Q x) : Upholds G Q (pure x) := fun _ hs => ⟨hx, hs⟩

theorem upholds_get : Upholds G (fun _ => True) get := fun _ hs => ⟨trivial, hs⟩

theorem Upholds.bind {w : Walk α} {f : α → Walk β} (hw : Upholds G P w)
    (hf : ∀ x, P x → Upholds G R (f x)) : Upholds G R (w >>= f) := by
  intro s hs
  obtain ⟨hx, hafter⟩ := hw s hs
  exact hf _ hx _ hafter

/-- A step that collects nothing. -/
theorem Upholds.of_quiet {w : Walk α} (h : ∀ files, Quiet files Q w) : Upholds G Q w := by
  intro s hs
  obtain ⟨hx, -, hentities, hevidence⟩ := h s.files s rfl
  exact ⟨hx, hentities ▸ hs.entities, hevidence ▸ hs.evidence⟩

/-- A step that collects nothing, whatever its result is. -/
theorem Upholds.of_quiet_files {w : Walk α} {S : Array SourceFile → α → Prop}
    (h : ∀ files, Quiet files (S files) w) : Upholds G (fun _ => True) w :=
  .of_quiet fun files s hs => ⟨trivial, (h files s hs).2⟩

theorem upholdsTry_pure {x : α} (hx : Q x) : UpholdsTry G Q (pure x) :=
  upholds_pure fun _ hy => Option.some_inj.1 hy ▸ hx

theorem upholdsTry_failure : UpholdsTry G Q (failure : Attempt α) := upholds_pure (by simp)

theorem Upholds.lift {w : Walk α} (hw : Upholds G Q w) : UpholdsTry G Q (OptionT.lift w) := by
  intro s hs
  obtain ⟨hx, hafter⟩ := hw s hs
  exact ⟨fun _ hy => Option.some_inj.1 hy ▸ hx, hafter⟩

theorem UpholdsTry.bind {t : Attempt α} {f : α → Attempt β} (ht : UpholdsTry G P t)
    (hf : ∀ x, P x → UpholdsTry G R (f x)) : UpholdsTry G R (t >>= f) := by
  rw [UpholdsTry, OptionT.run_bind]
  apply Upholds.bind ht
  intro found hfound
  cases found with
  | none => exact upholds_pure (by simp)
  | some x => exact hf x (hfound x rfl)

theorem UpholdsTry.ite {p : Prop} [Decidable p] {t u : Attempt α} (ht : UpholdsTry G Q t)
    (hu : UpholdsTry G Q u) : UpholdsTry G Q (if p then t else u) := by
  split
  · exact ht
  · exact hu

/-- A step that collects nothing and may skip something. -/
theorem UpholdsTry.of_quiet {t : Attempt α} {S : Array SourceFile → α → Prop}
    (h : ∀ files, QuietTry files (S files) t) : UpholdsTry G (fun _ => True) t :=
  Upholds.of_quiet fun files s hs => ⟨fun _ _ => trivial, (h files s hs).2⟩

theorem upholdsTry_refuse (code : DiagnosticCode) (message : String) (location : Option Location) :
    UpholdsTry G Q (refuse code message location : Attempt α) :=
  (Upholds.of_quiet_files fun _ => quiet_warn code message location).lift.bind
    fun _ _ => upholdsTry_failure

/-- Going on whether or not something was skipped. -/
theorem UpholdsTry.attempt {t : Attempt Unit} (ht : UpholdsTry G (fun _ => True) t) :
    Upholds G (fun _ => True) (attempt t) :=
  Upholds.bind ht fun _ _ => upholds_pure trivial

end Rules

/-! ## Additions -/

theorem upholds_addEntity {e : Entity} (he : e.AllMembers G) :
    Upholds G (fun _ => True) (addEntity e) := by
  intro s hs
  refine ⟨trivial, fun x hx => ?_, hs.evidence⟩
  rcases List.mem_append.1 hx with hx | hx
  · exact hs.entities x hx
  · exact List.mem_singleton.1 hx ▸ he

theorem upholds_insertEntity {index : Nat} {e : Entity} (he : e.AllMembers G) :
    Upholds G (fun _ => True) (insertEntity index e) := by
  intro s hs
  refine ⟨trivial, fun x hx => ?_, hs.evidence⟩
  rcases List.mem_append.1 hx with hx | hx
  · exact hs.entities x (List.mem_of_mem_take hx)
  · rcases List.mem_cons.1 hx with rfl | hx
    · exact he
    · exact hs.entities x (List.mem_of_mem_drop hx)

theorem upholds_addEvidence {e : Evidence} (he : e.kind.AllMembers G) :
    Upholds G (fun _ => True) (addEvidence e) := by
  intro s hs
  refine ⟨trivial, hs.entities, fun x hx => ?_⟩
  rcases List.mem_append.1 hx with hx | hx
  · exact hs.evidence x hx
  · exact List.mem_singleton.1 hx ▸ he

/-! ## Classes and templates -/

section Classes

variable {walkBody : MemberWalk}
variable (hbody : ∀ c, Upholds G (fun ms => ∀ m ∈ ms, G m) (walkBody c))

include hbody

/-- A class has the members that its walk finds. -/
theorem upholdsTry_classEntity (scope : Scope) (mark : Option ExportMark) (info : DeclInfo)
    (head : ClassHead) :
    UpholdsTry G (ClassEntity.AllMembers G) (classEntity scope mark info head walkBody) := by
  unfold classEntity
  refine (Upholds.of_quiet_files fun _ => quiet_place info).lift.bind fun location _ => ?_
  split
  · exact upholdsTry_refuse _ _ _
  · refine (Upholds.of_quiet_files fun _ => quiet_makeKnown _).lift.bind fun _ _ => ?_
    dsimp only
    split
    · exact .ite (upholdsTry_refuse _ _ _) upholdsTry_failure
    · exact .ite (upholdsTry_refuse _ _ _) upholdsTry_failure
    · refine .ite upholdsTry_failure (upholds_get.lift.bind fun survey _ => ?_)
      exact (hbody _).lift.bind fun members hmembers => upholdsTry_pure hmembers

theorem upholds_declareClass (scope : Scope) (mark : Option ExportMark) (info : DeclInfo)
    (head : ClassHead) :
    Upholds G (fun _ => True) (declareClass scope mark info head walkBody) := by
  unfold declareClass
  split
  · refine (Upholds.of_quiet_files fun _ => quiet_place info).bind fun _ _ => ?_
    exact .of_quiet_files fun _ => quiet_warn _ _ _
  · refine upholds_get.bind fun survey _ => ?_
    refine Upholds.bind (upholdsTry_classEntity hbody scope mark info head) fun found hfound => ?_
    split
    · next c => exact upholds_insertEntity (hfound c rfl)
    · exact upholds_pure trivial

theorem upholds_nestedClass (c : ClassContext) (access : Access) (info : DeclInfo)
    (head : ClassHead) : Upholds G (fun _ => True) (nestedClass c access info head walkBody) := by
  unfold nestedClass
  refine (Upholds.of_quiet_files fun _ => quiet_directivesAbove info none).bind fun own _ => ?_
  split
  · refine (Upholds.of_quiet_files fun _ => quiet_place info).bind fun _ _ => ?_
    exact .of_quiet_files fun _ => quiet_warn _ _ _
  · split
    · exact upholds_declareClass hbody _ _ info head
    · split
      · exact .of_quiet_files fun _ => quiet_makeKnown _
      · exact upholds_pure trivial

omit hbody in
theorem upholds_addTemplate (scope : Scope) (directives : Directives) (location : Option Location)
    (name : QualifiedName) (params : List TemplateParam) {pattern : Concrete}
    (hpattern : pattern.AllMembers G) :
    Upholds G (fun _ => True) (addTemplate scope directives location name params pattern) := by
  unfold addTemplate
  refine (Upholds.of_quiet_files fun _ => quiet_makeKnown _).bind fun _ _ => ?_
  refine upholds_get.bind fun survey _ => Upholds.bind (upholds_addEntity ?_) fun _ _ => ?_
  · exact hpattern
  split
  · exact upholds_addEvidence trivial
  · exact upholds_pure trivial

theorem upholdsTry_templateClass (scope : Scope) (directives : Directives)
    (location : Option Location) (params : List TemplateParam) (info : DeclInfo)
    (head : ClassHead) : UpholdsTry G (fun _ => True)
      (templateClass scope directives location params info head walkBody) := by
  have hclass := upholdsTry_classEntity hbody
  unfold templateClass
  split
  · exact upholdsTry_failure
  · dsimp only
    split
    · exact upholdsTry_refuse _ _ _
    · exact (hclass _ _ _ _).bind fun c hc => Upholds.lift (upholds_addTemplate _ _ _ _ _ hc)
    · refine upholds_get.lift.bind fun survey _ => ?_
      split
      · exact upholdsTry_failure
      · exact (hclass _ _ _ _).bind fun c hc => Upholds.lift (upholds_addEvidence hc)
    · refine upholds_get.lift.bind fun survey _ => ?_
      split
      · exact upholdsTry_failure
      · exact (hclass _ _ _ _).bind fun c hc => Upholds.lift (upholds_addEvidence hc)

end Classes

theorem upholdsTry_templateFunction (scope : Scope) (directives : Directives)
    (location : Option Location) (params : List TemplateParam) (info : DeclInfo)
    (f : FunctionDecl) : UpholdsTry G (fun _ => True)
      (templateFunction scope directives location params info f) := by
  unfold templateFunction
  split
  · exact upholdsTry_failure
  · refine .ite upholdsTry_failure ?_
    refine (UpholdsTry.of_quiet fun _ => quietTry_freeFunction _ _ _ _).bind fun entity _ => ?_
    split
    · refine (UpholdsTry.of_quiet fun _ => quietTry_functionArgs scope f).bind fun args _ => ?_
      exact Upholds.lift (upholds_addEvidence trivial)
    · exact Upholds.lift (upholds_addTemplate _ _ _ _ _ trivial)
    · exact upholdsTry_refuse _ _ _

theorem upholds_explicitClass (scope : Scope) (location : Option Location) (head : ClassHead) :
    Upholds G (fun _ => True) (explicitClass scope location head) := by
  unfold explicitClass
  split
  · refine upholds_get.bind fun survey _ => ?_
    split
    · exact upholds_pure trivial
    · exact upholds_addEvidence trivial
  · exact upholds_pure trivial

theorem upholdsTry_explicitFunction (scope : Scope) (location : Option Location) (info : DeclInfo)
    (f : FunctionDecl) :
    UpholdsTry G (fun _ => True) (explicitFunction scope location info f) := by
  unfold explicitFunction
  split
  · exact upholdsTry_failure
  · refine (UpholdsTry.of_quiet fun _ => quietTry_functionArgs scope f).bind fun args _ => ?_
    refine (UpholdsTry.of_quiet fun _ => quietTry_freeFunction _ _ _ _).bind fun entity _ => ?_
    exact Upholds.lift (upholds_addEvidence trivial)

/-! ## The walk -/

mutual
/-- The members that a declaration introduces are built by one of the two steps. -/
theorem upholds_walkMember (hG : Ensures G) (c : ClassContext) (access : Access) :
    (d : Declaration) → Upholds G (fun ms => ∀ m ∈ ms, G m) (walkMember c access d)
  | .function info f => by
    rw [walkMember]
    refine (Upholds.of_quiet_files fun _ => quiet_directivesAbove info none).bind fun own _ => ?_
    refine (Upholds.of_quiet fun files => hG.function files c access _ info f).bind ?_
    exact fun found hfound => upholds_pure fun m hm => hfound m (Option.mem_toList.1 hm)
  | .field info f => by
    rw [walkMember]
    refine (Upholds.of_quiet_files fun _ => quiet_directivesAbove info none).bind fun own _ => ?_
    exact .of_quiet fun files => hG.fields files _ _ _ _ _
  | .classDef info head members => by
    rw [walkMember]
    refine (upholds_nestedClass (fun n => ?_) c access info head).bind
      fun _ _ => upholds_pure (by simp)
    exact upholds_walkMembers hG n n.kind.defaultAccess members
  | .template info _ _ => by
    rw [walkMember]
    refine (Upholds.of_quiet_files fun _ => quiet_place info).bind fun _ _ => ?_
    exact (Upholds.of_quiet_files fun _ => quiet_warn _ _ _).bind fun _ _ => upholds_pure (by simp)
  | .typeAlias _ _ name type isComplex => by
    rw [walkMember]
    exact (Upholds.of_quiet_files fun _ => quiet_declareAlias _ _ _ _).bind
      fun _ _ => upholds_pure (by simp)
  | .skipped info description => by
    rw [walkMember]
    refine (Upholds.of_quiet_files fun _ => quiet_place info).bind fun _ _ => ?_
    exact (Upholds.of_quiet_files fun _ => quiet_warn _ _ _).bind fun _ _ => upholds_pure (by simp)
  | .usingDecl .. | .namespaceDef .. | .linkage .. | .instantiation .. | .access .. => by
    rw [walkMember]
    exact upholds_pure (by simp)

theorem upholds_walkMembers (hG : Ensures G) (c : ClassContext) (access : Access) :
    (ds : List Declaration) → Upholds G (fun ms => ∀ m ∈ ms, G m) (walkMembers c access ds)
  | [] => by
    rw [walkMembers]
    exact upholds_pure (by simp)
  | d :: ds => by
    have hrest (level : Access) := upholds_walkMembers hG c level ds
    have hfirst := upholds_walkMember hG c access d
    unfold walkMembers
    split
    · next heq => cases heq
    · next heq =>
      cases heq
      exact hrest _
    · next heq =>
      cases heq
      refine hfirst.bind fun found hfound => (hrest access).bind fun rest hrest => ?_
      refine upholds_pure fun m hm => ?_
      rcases List.mem_append.1 hm with hm | hm
      · exact hfound m hm
      · exact hrest m hm
end

mutual
/-- The walk through a declaration keeps the property of all members. -/
theorem upholds_declare (hG : Ensures G) (scope : Scope) : (d : Declaration) →
    Upholds G (fun _ => True) (declare scope d)
  | .namespaceDef info name _ body => by
    rw [declare]
    refine (Upholds.of_quiet_files fun _ => quiet_directivesAbove info none).bind fun own _ => ?_
    exact upholds_declareAll hG _ body
  | .linkage _ body => by
    rw [declare]
    exact upholds_declareAll hG scope body
  | .classDef info head members => by
    rw [declare]
    refine (Upholds.of_quiet_files fun _ => quiet_directivesAbove info none).bind fun own _ => ?_
    exact upholds_declareClass (fun c => upholds_walkMembers hG c _ members) _ _ _ _
  | .function info f => by
    rw [declare]
    refine (Upholds.of_quiet_files fun _ => quiet_directivesAbove info none).bind fun own _ => ?_
    refine (Upholds.of_quiet_files fun _ => quietTry_freeFunction _ _ _ _).bind ?_
    intro found _
    cases found with
    | none => exact upholds_pure trivial
    | some entity => exact upholds_addEntity trivial
  | .template info params inner => by
    rw [declare, declareTemplate]
    refine (Upholds.of_quiet_files fun _ => quiet_place info).bind fun location _ => ?_
    refine (Upholds.of_quiet_files fun _ => quiet_directivesAbove info _).bind fun own _ => ?_
    refine (Upholds.of_quiet_files fun _ => quietTry_templateParams scope location params).bind ?_
    intro found _
    split
    · exact upholds_pure trivial
    · split
      · exact upholds_pure trivial
      · exact upholds_pure trivial
      · refine UpholdsTry.attempt (upholdsTry_templateClass (fun c => ?_) _ _ _ _ _ _)
        exact upholds_walkMembers hG c _ _
      · exact (upholdsTry_templateFunction _ _ _ _ _ _).attempt
      · exact .of_quiet_files fun _ => quiet_warn _ _ _
  | .instantiation info _ inner => by
    rw [declare]
    refine (Upholds.of_quiet_files fun _ => quiet_place info).bind fun location _ => ?_
    split
    · exact upholds_explicitClass _ _ _
    · exact (upholdsTry_explicitFunction _ _ _ _).attempt
    · exact upholds_pure trivial
  | .typeAlias _ _ name type isComplex => by
    rw [declare]
    exact .of_quiet_files fun _ => quiet_declareAlias _ _ _ _
  | .skipped info description => by
    rw [declare]
    exact .of_quiet_files fun _ => quiet_reportSkipped _ _
  | .field .. | .usingDecl .. | .access .. => by
    rw [declare]
    exact upholds_pure trivial

theorem upholds_declareAll (hG : Ensures G) (scope : Scope) : (ds : List Declaration) →
    Upholds G (fun _ => True) (declareAll scope ds)
  | [] => by
    rw [declareAll]
    exact upholds_pure trivial
  | d :: ds => by
    rw [declareAll]
    exact (upholds_declare hG scope d).bind fun _ _ => upholds_declareAll hG scope ds
end

end Walk

/-- What the steps that build members make sure of holds of every member in a header. -/
theorem Header.allMembers_survey {G : Member → Prop} (hG : Walk.Ensures G) (h : Header) :
    h.survey.AllMembers G :=
  (Walk.upholds_declareAll hG {} h.declarations _ ⟨by simp, by simp⟩).2

end Bindery
