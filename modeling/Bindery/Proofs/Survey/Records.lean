import Bindery.Proofs.Survey.Passage

/-!
# Records of directives

The directives on a template are recorded with the place of the template in the list of entities.
The template and its record are noted in one go, at a template header at namespace scope, where no
class is open. So nothing is put in front of the template later, and the place in the record stays
that of the template.

## Main definitions

* `Walk.Still`: a step collects nothing.
* `Walk.Opens`, `Walk.OpensSpecialization`: the walk goes through the members of a class.
* `Walk.AddsTemplate`: a template is collected, with the record of the directives on it.
* `Header.Records`: the walk over a header notes a template and a record in one go.

## Main statements

* `Walk.exists_meets_of_declareAll`: whatever is new when the walk is over is new behind one
  declaration.
* `Walk.declare_cases`, `Walk.specialization_cases`: what one declaration leaves behind.
* `Header.exists_records`: every record is noted together with the template at its place.
-/
namespace Bindery

/-- The declaration is a namespace or a linkage block. -/
def Declaration.isBlock : Declaration → Bool
  | namespaceDef .. | linkage .. => true
  | classDef .. | function .. | field .. | template .. | typeAlias .. | usingDecl .. |
    instantiation .. | skipped .. | access .. => false

theorem Survey.entities_eq {s t : Survey} (h : t.collected = s.collected) :
    t.entities = s.entities :=
  congrArg Prod.fst h

namespace Walk

variable {α β : Type}

/-! ## Runs -/

section Runs

variable {s t : Survey}

theorem run_bind_eq {w : Walk α} {a : α} (h : w.run s = (a, t)) (f : α → Walk β) :
    (w >>= f).run s = (f a).run t := by
  rw [StateT.run_bind, h]
  rfl

theorem run_attempt_bind_some {step : Attempt α} {a : α} (h : step.run.run s = (some a, t))
    (f : α → Attempt β) : (step >>= f).run.run s = (f a).run.run t := by
  rw [OptionT.run_bind]
  exact run_bind_eq h _

theorem run_attempt_bind_none {step : Attempt α} (h : step.run.run s = (none, t))
    (f : α → Attempt β) : (step >>= f).run.run s = (none, t) := by
  rw [OptionT.run_bind]
  exact run_bind_eq h _

end Runs

/-! ## Steps that collect nothing -/

/-- A step collects nothing. -/
def Still (w : Walk α) : Prop := Leads (fun _ _ => False) w

theorem still_iff {w : Walk α} : Still w ↔ ∀ s, (w.run s).2.collected = s.collected := by
  constructor
  · intro h s
    have hkeeps := h.keeps (P := (· = s.collected)) (fun _ _ hstep => hstep.elim) (s := s) rfl
    exact hkeeps
  · intro h s
    rw [h s]

/-- Reading the directives above a declaration collects nothing. -/
theorem collected_directivesAbove {info : DeclInfo} {inner : Option DeclInfo} {s t : Survey}
    {own : Directives} (h : (directivesAbove info inner).run s = (own, t)) :
    t.collected = s.collected := by
  have hstill := still_iff.1 (leads_directivesAbove info inner) s
  rwa [h] at hstill

/-! ## Classes -/

/-- From a survey, the walk goes through the members of a class, whatever it does there: it does so
in a context and with what was found in front of them, and makes the class of what it finds. -/
def Opens (scope : Scope) (mark : Option ExportMark) (info : DeclInfo) (head : ClassHead)
    (s : Survey) (c : ClassContext) (close : List Member → ClassEntity) (opened : Survey) : Prop :=
  ∀ walkBody : MemberWalk, (classEntity scope mark info head walkBody).run.run s =
    (some (close ((walkBody c).run opened).1), ((walkBody c).run opened).2)

/-- Nothing is collected before the walk comes to the members. -/
theorem Opens.collected_eq {scope : Scope} {mark : Option ExportMark} {info : DeclInfo}
    {head : ClassHead} {s opened : Survey} {c : ClassContext} {close : List Member → ClassEntity}
    (h : Opens scope mark info head s c close opened) : opened.collected = s.collected := by
  have hbody (c : ClassContext) : Still ((fun _ => pure [] : MemberWalk) c) := leads_pure []
  have hrun := still_iff.1 (leads_classEntity scope mark info head hbody) s
  rw [h] at hrun
  exact hrun

theorem collected_makeKnown (path : List String) (s : Survey) :
    ((makeKnown path).run s).2.collected = s.collected :=
  still_iff.1 (leads_makeKnown path) s

theorem collected_warn (code : DiagnosticCode) (message : String) (location : Option Location)
    (s : Survey) : ((warn code message location).run s).2.collected = s.collected :=
  still_iff.1 (leads_warn code message location) s

/-- From a survey, the walk makes no class and collects nothing. -/
def Refuses (scope : Scope) (mark : Option ExportMark) (info : DeclInfo) (head : ClassHead)
    (s : Survey) : Prop :=
  ∃ t : Survey, t.collected = s.collected ∧
    ∀ walkBody : MemberWalk, (classEntity scope mark info head walkBody).run.run s = (none, t)

section Classes

variable (scope : Scope) (mark : Option ExportMark) (info : DeclInfo) (head : ClassHead)
variable (s : Survey)

theorem refuses_of_name (hname : head.name = none) : Refuses scope mark info head s := by
  refine ⟨((warn .unsupportedDeclaration ("anonymous class is not supported" ++ "; skipped")
    (info.origin.bind (locate? s.files))).run s).2, collected_warn _ _ _ s, ?_⟩
  intro walkBody
  unfold classEntity
  simp only [hname]
  rfl

variable {head} {name : DeclName}

theorem refuses_of_declaration (hname : head.name = some name)
    (hdefinition : head.isDefinition = false) : Refuses scope mark info head s := by
  refine ⟨((makeKnown (scope.path ++ (QualifiedName.parse name.text).segments)).run s).2,
    collected_makeKnown _ s, ?_⟩
  intro walkBody
  unfold classEntity
  rcases head.key with _ | (_ | _ | _) <;> simp only [hname, hdefinition] <;> rfl

theorem refuses_of_union (hname : head.name = some name) (hdefinition : head.isDefinition = true)
    (hkey : head.key = none ∨ head.key = some .unionKey) : Refuses scope mark info head s := by
  let known := ((makeKnown (scope.path ++ (QualifiedName.parse name.text).segments)).run s).2
  refine ⟨((warn .unsupportedDeclaration
    (("union `" ++ name.text ++ "` is not supported") ++ "; skipped")
    (info.origin.bind (locate? s.files))).run known).2,
    (collected_warn _ _ _ known).trans (collected_makeKnown _ s), ?_⟩
  intro walkBody
  unfold classEntity
  rcases hkey with hkey | hkey <;> simp only [hname, hdefinition, hkey] <;> rfl

theorem exists_opens (hname : head.name = some name) (hdefinition : head.isDefinition = true)
    {key : ClassKey} (hkey : head.key = some key) (hne : key ≠ .unionKey) :
    ∃ c close opened, Opens scope mark info head s c close opened ∧
      c.inner.templateParams = scope.templateParams := by
  let segments := (QualifiedName.parse name.text).segments
  let known := ((makeKnown (scope.path ++ segments)).run s).2
  let kind : ClassKind := if key = .structKey then .structKind else .classKind
  let inner := scope.nested segments (.inherit mark scope.mark)
  let qualified := QualifiedName.parse ("::".intercalate inner.path)
  let bases := baseRefs known scope kind head.bases
  refine ⟨⟨qualified, name.simple, kind, inner⟩, fun members => ⟨qualified, kind, bases, members,
    .inherit mark scope.mark, info.origin.bind (locate? s.files)⟩, known, ?_, rfl⟩
  intro walkBody
  unfold classEntity
  cases key with
  | unionKey => exact absurd rfl hne
  | classKey => simp only [hname, hdefinition, hkey]; rfl
  | structKey => simp only [hname, hdefinition, hkey]; rfl

variable (head)

/-- The walk opens a class, with the template parameters of the scope, or makes no class and
collects nothing. -/
theorem opens_or_refuses :
    (∃ c close opened, Opens scope mark info head s c close opened ∧
      c.inner.templateParams = scope.templateParams) ∨
    Refuses scope mark info head s := by
  cases hname : head.name with
  | none => exact .inr (refuses_of_name scope mark info head s hname)
  | some name =>
    cases hdefinition : head.isDefinition with
    | false => exact .inr (refuses_of_declaration scope mark info s hname hdefinition)
    | true =>
      cases hkey : head.key with
      | none => exact .inr (refuses_of_union scope mark info s hname hdefinition (.inl hkey))
      | some key =>
        by_cases hne : key = .unionKey
        · subst hne
          exact .inr (refuses_of_union scope mark info s hname hdefinition (.inr hkey))
        · exact .inl (exists_opens scope mark info s hname hdefinition hkey hne)

end Classes

/-! ## Templates -/

section Templates

/-- No member adds anything but a public class, and that only where the class around it has no
template parameters. -/
theorem still_walkMember {c : ClassContext} {access : Access} {d : Declaration}
    (hclass : ∀ info head members, d = .classDef info head members →
      c.inner.templateParams ≠ [] ∨ access ≠ .isPublic) : Still (walkMember c access d) := by
  cases d with
  | function info f =>
    rw [walkMember]
    refine (leads_directivesAbove info none).bind fun own => ?_
    exact (leads_memberFunction _ _ _ _ _).bind fun _ => leads_pure _
  | field info f =>
    rw [walkMember]
    exact (leads_directivesAbove info none).bind fun own => leads_memberFields _ _ _ _ _
  | classDef info head members =>
    rw [walkMember, nestedClass]
    refine ((leads_directivesAbove info none).bind fun own => ?_).bind fun _ => leads_pure _
    split
    · exact (leads_place info).bind fun _ => leads_warn _ _ _
    · next hempty =>
      have hparams : c.inner.templateParams = [] := by simpa using hempty
      rw [if_neg ((hclass info head members rfl).resolve_left (not_not_intro hparams))]
      split
      · exact leads_makeKnown _
      · exact leads_pure _
  | template info params inner =>
    rw [walkMember]
    refine (leads_place info).bind fun _ => ?_
    exact (leads_warn _ _ _).bind fun _ => leads_pure _
  | typeAlias info isTypedef name type isComplex =>
    rw [walkMember]
    exact (leads_declareAlias _ _ _ _).bind fun _ => leads_pure _
  | skipped info description =>
    rw [walkMember]
    refine (leads_place info).bind fun _ => ?_
    exact (leads_warn _ _ _).bind fun _ => leads_pure _
  | usingDecl | namespaceDef | linkage | instantiation | access =>
    rw [walkMember]
    exact leads_pure _

/-- The members of a class with template parameters add nothing. -/
theorem still_walkMembers {c : ClassContext} (hparams : c.inner.templateParams ≠ [])
    (access : Access) (ds : List Declaration) : Still (walkMembers c access ds) := by
  induction ds generalizing access with
  | nil =>
    rw [walkMembers]
    exact leads_pure _
  | cons d ds ih =>
    unfold walkMembers
    split
    · exact leads_pure _
    · next heq =>
      cases heq
      exact ih _
    · next heq =>
      cases heq
      refine (still_walkMember fun _ _ _ _ => .inl hparams).bind fun _ => ?_
      exact (ih access).bind fun _ => leads_pure _

/-- A class with template parameters adds nothing. -/
theorem still_classEntity {scope : Scope} (hparams : scope.templateParams ≠ [])
    (mark : Option ExportMark) (info : DeclInfo) (head : ClassHead) (members : List Declaration) :
    Still (classEntity scope mark info head fun c =>
      walkMembers c c.kind.defaultAccess members).run := by
  refine still_iff.2 fun s => ?_
  rcases opens_or_refuses scope mark info head s with
    ⟨c, close, opened, hopens, hinner⟩ | ⟨t, ht, hrun⟩
  · rw [hopens]
    have hc : c.inner.templateParams ≠ [] := hinner ▸ hparams
    have hmembers := still_iff.1 (still_walkMembers hc c.kind.defaultAccess members) opened
    exact hmembers.trans hopens.collected_eq
  · rw [hrun]
    exact ht

/-- A template is collected, with the record of the directives on it if there is one. -/
def AddsTemplate (before after : Collection) : Prop :=
  ∃ (t : TemplateEntity) (own : Option Evidence),
    after = (before.1 ++ [.ofTemplate t], before.2 ++ own.toList) ∧
      ∀ e ∈ own, ∃ requests, e.kind = .requests before.1.length requests

/-- A step collects one template, or nothing but functions and hints that name no place. -/
def Notes (w : Walk α) : Prop := ∀ s,
  Relation.ReflTransGen Plain s.collected (w.run s).2.collected ∨
    AddsTemplate s.collected (w.run s).2.collected

theorem Leads.notes {w : Walk α} (h : Leads Plain w) : Notes w := fun s => .inl (h s)

/-- A step that collects nothing, and another one. -/
theorem Still.bind_notes {w : Walk α} {f : α → Walk β} (hw : Still w)
    (hf : ∀ s, Notes (f (w.run s).1)) : Notes (w >>= f) := by
  intro s
  have hrest := hf s (w.run s).2
  rwa [still_iff.1 hw s] at hrest

theorem Still.attempt_notes {a : Attempt α} {f : α → Attempt β} (ha : Still a.run)
    (hf : ∀ x, Notes (f x).run) : Notes (a >>= f).run := by
  rw [OptionT.run_bind]
  refine ha.bind_notes fun s => ?_
  cases (a.run.run s).1 with
  | none => exact (leads_pure none).notes
  | some x => exact hf x

theorem notes_addTemplate (scope : Scope) (directives : Directives) (location : Option Location)
    (name : QualifiedName) (params : List TemplateParam) (pattern : Concrete) :
    Notes (addTemplate scope directives location name params pattern) := by
  unfold addTemplate
  refine Still.bind_notes (leads_makeKnown _) fun _ => ?_
  let t : TemplateEntity := { name, params, pattern, instantiations := []
                              mark := .inherit directives.mark scope.mark, location }
  intro s
  by_cases hrequests : directives.requests.isEmpty = true
  · simp only [hrequests, Bool.not_true, Bool.false_eq_true, if_false]
    exact .inr ⟨t, none, congrArg (Prod.mk _) (List.append_nil s.evidence).symm, by simp⟩
  · simp only [hrequests, Bool.not_false, if_true]
    let e : Evidence := ⟨scope.path, [], .requests s.entities.length directives.requests, location⟩
    exact .inr ⟨t, some e, rfl, fun x hx => ⟨directives.requests, Option.mem_some.1 hx ▸ rfl⟩⟩

theorem Notes.attempt {step : Attempt Unit} (h : Notes step.run) : Notes (attempt step) := h

variable (scope : Scope) (directives : Directives) (location : Option Location)
variable (info : DeclInfo)

/-- A primary template or a partial specialisation of a class. -/
theorem notes_templateClass {params : List TemplateParam} (hparams : params ≠ [])
    (head : ClassHead) (members : List Declaration) :
    Notes (templateClass scope directives location params info head fun c =>
      walkMembers c c.kind.defaultAccess members).run := by
  have hclass (within : Scope) (hwithin : within.templateParams =
      scope.templateParams ++ params.map TemplateParam.name) := by
    have hnonempty : within.templateParams ≠ [] := by simp [hwithin, hparams]
    exact still_classEntity hnonempty directives.mark info head members
  unfold templateClass
  split
  · exact leads_failure.notes
  · dsimp only
    split
    · exact absurd rfl hparams
    · exact Still.attempt_notes (hclass _ rfl) fun pattern => notes_addTemplate _ _ _ _ _ _
    · exact absurd rfl hparams
    · refine Still.attempt_notes leads_get.lift fun survey => ?_
      split
      · exact leads_failure.notes
      · exact Still.attempt_notes (hclass _ rfl) fun pattern => (leads_addEvidence (by simp)).notes

theorem notes_templateFunction (params : List TemplateParam) (f : FunctionDecl) :
    Notes (templateFunction scope directives location params info f).run := by
  unfold templateFunction
  split
  · exact leads_failure.notes
  · split
    · exact leads_failure.notes
    · refine Still.attempt_notes (leads_freeFunction _ _ _ _) fun entity => ?_
      split
      · refine Still.attempt_notes (leads_functionArgs scope f) fun args => ?_
        exact (leads_addEvidence (by simp)).notes
      · exact notes_addTemplate _ _ _ _ _ _
      · exact (leads_refuse _ _ _).notes

theorem length_templateParams {scope : Scope} {location : Option Location}
    {ps : List TemplateParamDecl} {s : Survey} {params : List TemplateParam}
    (h : ((templateParams scope location ps).run.run s).1 = some params) :
    params.length = ps.length := by
  unfold templateParams at h
  split at h
  · cases h
  · cases h
    simp

/-- A template header that is no full specialisation of a class notes one template, or nothing but
hints that name no place. -/
theorem notes_template (ps : List TemplateParamDecl) (inner : Option Declaration)
    (hinner : ∀ info head members, inner = some (.classDef info head members) → ps ≠ []) :
    Notes (declare scope (.template info ps inner)) := by
  rw [declare, declareTemplate]
  refine Still.bind_notes (leads_place info) fun s => ?_
  refine Still.bind_notes (leads_directivesAbove info _) fun s => ?_
  refine Still.bind_notes (leads_templateParams scope _ ps) fun s => ?_
  split
  · exact (leads_pure _).notes
  · next params hparams =>
    split
    · exact (leads_pure _).notes
    · exact (leads_pure _).notes
    · next innerInfo head members =>
      have hps := hinner innerInfo head members rfl
      rw [← List.length_pos_iff, ← length_templateParams hparams, List.length_pos_iff] at hps
      exact (notes_templateClass scope _ _ innerInfo hps head members).attempt
    · next innerInfo f => exact (notes_templateFunction scope _ _ innerInfo params f).attempt
    · exact (leads_warn _ _ _).notes

end Templates

/-! ## Full specialisations -/

section Specializations

variable {scope : Scope} {info inner : DeclInfo} {head : ClassHead} {s opened : Survey}
variable {c : ClassContext}

/-- At a full specialisation of a class, the walk goes through the members of that class. -/
def OpensSpecialization (scope : Scope) (info inner : DeclInfo) (head : ClassHead) (s : Survey)
    (c : ClassContext) (opened : Survey) : Prop :=
  ∃ own t name spellings args close, (directivesAbove info (some inner)).run s = (own, t) ∧
    head.name = some name ∧ head.templateArgs = some spellings ∧
      t.resolveArgs? scope spellings = some args ∧
        Opens { scope with injected := some (name.simple, applied name.simple args) } own.mark inner
          head t c close opened

theorem OpensSpecialization.collected_eq
    (h : OpensSpecialization scope info inner head s c opened) :
    opened.collected = s.collected := by
  obtain ⟨own, t, name, spellings, args, close, hown, -, -, -, hopens⟩ := h
  exact hopens.collected_eq.trans (collected_directivesAbove hown)

/-- At a full specialisation of a class, what is collected is what the class makes. -/
theorem collected_specialization {own : Directives} {t : Survey}
    (hown : (directivesAbove info (some inner)).run s = (own, t)) (members : List Declaration) :
    ((declare scope (.template info [] (some (.classDef inner head members)))).run s).2.collected =
      ((templateClass scope own (info.origin.bind (locate? s.files)) [] inner head fun c =>
        walkMembers c c.kind.defaultAccess members).run.run t).2.collected := by
  have hplace : (place info).run s = (info.origin.bind (locate? s.files), s) := rfl
  have hparams : (templateParams scope (info.origin.bind (locate? s.files)) []).run.run t =
      (some [], t) := rfl
  rw [declare, declareTemplate, run_bind_eq hplace, Option.map_some, Declaration.info,
    run_bind_eq hown, run_bind_eq hparams]
  rfl

/-- The members of a full specialisation add what they do anywhere, and one hint comes behind. -/
theorem OpensSpecialization.exists_hint (h : OpensSpecialization scope info inner head s c opened)
    (members : List Declaration) :
    ∃ e : Evidence, (∀ index requests, e.kind ≠ .requests index requests) ∧
      let after := ((walkMembers c c.kind.defaultAccess members).run opened).2
      ((declare scope (.template info [] (some (.classDef inner head members)))).run s).2.collected
        = (after.entities, after.evidence ++ [e]) := by
  obtain ⟨own, t, name, spellings, args, close, hown, hname, hspelled, hargs, hopens⟩ := h
  refine ⟨⟨scope.path, (QualifiedName.parse name.text).segments, .fullSpec (some args)
    (.ofClass (close ((walkMembers c c.kind.defaultAccess members).run opened).1)) own.mark,
    info.origin.bind (locate? s.files)⟩, by simp, ?_⟩
  have hget : (get : Attempt Survey).run.run t = (some t, t) := rfl
  rw [collected_specialization hown]
  simp only [templateClass, hname, hspelled]
  rw [run_attempt_bind_some hget]
  simp only [hargs]
  rw [run_attempt_bind_some (hopens _)]
  rfl

variable (scope info inner head s) in
/-- At a full specialisation the walk goes through the members of a class, or collects nothing. -/
theorem specialization_cases (members : List Declaration) :
    (∃ c opened, OpensSpecialization scope info inner head s c opened) ∨
    ((declare scope (.template info [] (some (.classDef inner head members)))).run s).2.collected
      = s.collected := by
  obtain ⟨own, t, hown⟩ : ∃ own t, (directivesAbove info (some inner)).run s = (own, t) :=
    ⟨_, _, rfl⟩
  have ht := collected_directivesAbove hown
  have hget : (get : Attempt Survey).run.run t = (some t, t) := rfl
  rw [collected_specialization hown]
  cases hname : head.name with
  | none =>
    right
    simp only [templateClass, hname]
    exact ht
  | some name =>
    cases hspelled : head.templateArgs with
    | none =>
      right
      simp only [templateClass, hname, hspelled]
      exact (still_iff.1 (leads_refuse _ _ _) t).trans ht
    | some spellings =>
      cases hargs : t.resolveArgs? scope spellings with
      | none =>
        right
        simp only [templateClass, hname, hspelled]
        rw [run_attempt_bind_some hget]
        simp only [hargs]
        exact ht
      | some args =>
        let within := { scope with injected := some (name.simple, applied name.simple args) }
        rcases opens_or_refuses within own.mark inner head t with
          ⟨c, close, opened, hopens, -⟩ | ⟨u, hu, hrefuses⟩
        · exact .inl ⟨c, opened, own, t, name, spellings, args, close, hown, hname, hspelled,
            hargs, hopens⟩
        · right
          simp only [templateClass, hname, hspelled]
          rw [run_attempt_bind_some hget]
          simp only [hargs]
          rw [run_attempt_bind_none (hrefuses _)]
          exact hu.trans ht

end Specializations

/-- A class and a full specialisation of one go through members. Anything else that is no block
adds functions and hints, or is a template. -/
theorem declare_cases (scope : Scope) {d : Declaration} (hd : d.isBlock = false) (s : Survey) :
    (∃ info head members, d = .classDef info head members) ∨
    (∃ info inner head members, d = .template info [] (some (.classDef inner head members))) ∨
    Relation.ReflTransGen Plain s.collected ((declare scope d).run s).2.collected ∨
    (∃ info params inner, d = .template info params inner) ∧
      AddsTemplate s.collected ((declare scope d).run s).2.collected := by
  cases d with
  | namespaceDef | linkage => cases hd
  | classDef info head members => exact .inl ⟨info, head, members, rfl⟩
  | template info params inner =>
    by_cases hspecial : ∃ info head members,
        inner = some (.classDef info head members) ∧ params = []
    · obtain ⟨innerInfo, head, members, rfl, rfl⟩ := hspecial
      exact .inr (.inl ⟨info, innerInfo, head, members, rfl⟩)
    · have hinner (innerInfo head members) (heq : inner = some (.classDef innerInfo head members)) :
          params ≠ [] := fun hparams => hspecial ⟨innerInfo, head, members, heq, hparams⟩
      rcases notes_template scope info params inner hinner s with hadds | hadds
      · exact .inr (.inr (.inl hadds))
      · exact .inr (.inr (.inr ⟨⟨info, params, inner, rfl⟩, hadds⟩))
  | function | instantiation | typeAlias | skipped | field | usingDecl | access =>
    exact .inr (.inr (.inl (leads_plain scope _ rfl s)))

/-! ## Where something new comes from -/

section Origins

variable {P : Collection → Prop}

mutual
/-- What is new behind a declaration is new behind one that is no block, at which the walk comes
on its way. -/
theorem exists_meets_of_declare (scope : Scope) : (d : Declaration) → (behind : List Declaration) →
    (s : Survey) → ¬ P s.collected → P ((declare scope d).run s).2.collected →
    ∃ inner e found, Meets inner e found scope (d :: behind) s ∧ e.isBlock = false ∧
      ¬ P found.collected ∧ P ((declare inner e).run found).2.collected
  | .namespaceDef info name isInline body, behind, s, hbefore, hafter => by
    obtain ⟨own, t, hown⟩ : ∃ own t, (directivesAbove info none).run s = (own, t) := ⟨_, _, rfl⟩
    have ht := collected_directivesAbove hown
    rw [declare, run_bind_eq hown] at hafter
    obtain ⟨inner, e, found, hmeets, hnew⟩ :=
      exists_meets_of_declareAll _ body t (ht ▸ hbefore) hafter
    exact ⟨inner, e, found, .inNamespace hown hmeets, hnew⟩
  | .linkage info body, behind, s, hbefore, hafter => by
    rw [declare] at hafter
    obtain ⟨inner, e, found, hmeets, hnew⟩ :=
      exists_meets_of_declareAll scope body s hbefore hafter
    exact ⟨inner, e, found, .inLinkage hmeets, hnew⟩
  | .classDef .., behind, s, hbefore, hafter | .function .., behind, s, hbefore, hafter
  | .template .., behind, s, hbefore, hafter | .instantiation .., behind, s, hbefore, hafter
  | .typeAlias .., behind, s, hbefore, hafter | .skipped .., behind, s, hbefore, hafter
  | .field .., behind, s, hbefore, hafter | .usingDecl .., behind, s, hbefore, hafter
  | .access .., behind, s, hbefore, hafter => ⟨scope, _, s, .here, rfl, hbefore, hafter⟩

/-- What is new behind declarations is new behind one that is no block. -/
theorem exists_meets_of_declareAll (scope : Scope) : (ds : List Declaration) → (s : Survey) →
    ¬ P s.collected → P ((declareAll scope ds).run s).2.collected →
    ∃ inner e found, Meets inner e found scope ds s ∧ e.isBlock = false ∧
      ¬ P found.collected ∧ P ((declare inner e).run found).2.collected
  | [], s, hbefore, hafter => by
    rw [declareAll] at hafter
    exact absurd hafter hbefore
  | d :: ds, s, hbefore, hafter => by
    rw [declareAll, StateT.run_bind] at hafter
    by_cases hfirst : P ((declare scope d).run s).2.collected
    · exact exists_meets_of_declare scope d ds s hbefore hfirst
    · obtain ⟨inner, e, found, hmeets, hnew⟩ := exists_meets_of_declareAll scope ds _ hfirst hafter
      exact ⟨inner, e, found, .later hmeets, hnew⟩
end

end Origins

/-! ## Places that stay -/

/-- An addition leaves what was collected in front. -/
theorem Step.isPrefix {before after : Collection} (h : Step before after) :
    before.1 <+: after.1 ∧ before.2 <+: after.2 := by
  cases h with
  | classes h =>
    obtain ⟨classes, rfl⟩ := h
    exact ⟨List.prefix_append _ _, List.prefix_rfl⟩
  | function f => exact ⟨List.prefix_append _ _, List.prefix_rfl⟩
  | template t own => exact ⟨List.prefix_append _ _, List.prefix_append _ _⟩
  | hint e => exact ⟨List.prefix_rfl, List.prefix_append _ _⟩

theorem isPrefix_of_steps {before after : Collection}
    (h : Relation.ReflTransGen Step before after) :
    before.1 <+: after.1 ∧ before.2 <+: after.2 := by
  induction h with
  | refl => exact ⟨List.prefix_rfl, List.prefix_rfl⟩
  | tail _ hstep ih =>
    exact ⟨ih.1.trans hstep.isPrefix.1, ih.2.trans hstep.isPrefix.2⟩

theorem getElem?_of_isPrefix {l m : List α} (h : l <+: m) {i : ℕ} {x : α} (hx : l[i]? = some x) :
    m[i]? = some x := by
  obtain ⟨rest, rfl⟩ := h
  rw [List.getElem?_append_left (List.getElem?_eq_some_iff.1 hx).1, hx]

section Records

variable {place : ℕ} {e : Evidence} {index : ℕ} {requests : List InstanceRequest}

/-- Functions and hints that name no place bring no record. -/
theorem Plain.record (hkind : e.kind = .requests index requests) {before after : Collection}
    (h : Plain before after) (hbefore : before.2[place]? ≠ some e) : after.2[place]? ≠ some e := by
  cases h with
  | function f => exact hbefore
  | hint x hx =>
    intro hafter
    rw [List.getElem?_append] at hafter
    split at hafter
    · exact hbefore hafter
    · have hxe : x = e := List.mem_singleton.1 (List.mem_of_getElem? hafter) ▸ rfl
      exact hx index requests (hxe ▸ hkind)

theorem record_of_plain (hkind : e.kind = .requests index requests) {before after : Collection}
    (h : Relation.ReflTransGen Plain before after) (hbefore : before.2[place]? ≠ some e) :
    after.2[place]? ≠ some e := by
  induction h with
  | refl => exact hbefore
  | tail _ hstep ih => exact hstep.record hkind ih

theorem AddsTemplate.record (hkind : e.kind = .requests index requests)
    {before after : Collection} (h : AddsTemplate before after)
    (hbefore : before.2[place]? ≠ some e) (hafter : after.2[place]? = some e) :
    ∃ t, after = (before.1 ++ [.ofTemplate t], before.2 ++ [e]) ∧ before.2.length = place ∧
      before.1.length = index := by
  obtain ⟨t, own, rfl, hown⟩ := h
  rw [List.getElem?_append] at hafter
  split at hafter
  · exact absurd hafter hbefore
  · next hlt =>
    cases own with
    | none => simp at hafter
    | some x =>
      have hzero : place - before.2.length = 0 := by
        simpa using (List.getElem?_eq_some_iff.1 hafter).1
      rw [hzero] at hafter
      cases hafter
      obtain ⟨_, hrequests⟩ := hown e rfl
      rw [hkind] at hrequests
      cases hrequests
      exact ⟨t, rfl, by omega, rfl⟩

/-- A full specialisation brings no record. -/
theorem record_of_specialization (hkind : e.kind = .requests index requests) {scope : Scope}
    {info inner : DeclInfo} {head : ClassHead} {members : List Declaration} {s : Survey}
    (hbefore : s.collected.2[place]? ≠ some e) :
    ((declare scope (.template info [] (some (.classDef inner head members)))).run s).2.collected.2[
      place]? ≠ some e := by
  rcases specialization_cases scope info inner head s members with ⟨c, opened, hopens⟩ | hsame
  · obtain ⟨x, hx, hcollected⟩ := hopens.exists_hint members
    obtain ⟨classes, hclasses⟩ :=
      addsClasses_of_reflTransGen (leads_walkMembers c c.kind.defaultAccess members opened)
    rw [hopens.collected_eq] at hclasses
    rw [hcollected]
    refine Plain.record hkind (.hint x hx) ?_
    have hevidence : ((walkMembers c c.kind.defaultAccess members).run opened).2.evidence =
        s.evidence := congrArg Prod.snd hclasses
    rw [hevidence]
    exact hbefore
  · rw [hsame]
    exact hbefore

/-- A record that is new behind a declaration came together with a template. -/
theorem collected_of_record (hkind : e.kind = .requests index requests) {scope : Scope}
    {d : Declaration} (hd : d.isBlock = false) {s : Survey}
    (hbefore : s.collected.2[place]? ≠ some e)
    (hafter : ((declare scope d).run s).2.collected.2[place]? = some e) :
    ∃ info params inner t, d = .template info params inner ∧
      ((declare scope d).run s).2.collected = (s.entities ++ [.ofTemplate t], s.evidence ++ [e]) ∧
        s.evidence.length = place ∧ s.entities.length = index := by
  rcases declare_cases scope hd s with ⟨info, head, members, rfl⟩ |
    ⟨info, inner, head, members, rfl⟩ | hadds | ⟨⟨info, params, inner, rfl⟩, hadds⟩
  · obtain ⟨classes, hclasses⟩ :=
      addsClasses_of_reflTransGen (leads_classDef scope info head members s)
    rw [hclasses] at hafter
    exact absurd hafter hbefore
  · exact absurd hafter (record_of_specialization hkind hbefore)
  · exact absurd hafter (record_of_plain hkind hadds hbefore)
  · obtain ⟨t, ht⟩ := hadds.record hkind hbefore hafter
    exact ⟨info, params, inner, t, rfl, ht⟩

end Records

end Walk

namespace Header

variable {h : Header}

/-- At a template header that the walk over a header comes to with a survey, it notes a template
and a record in one go. -/
def Records (h : Header) (t : TemplateEntity) (e : Evidence) (s : Survey) : Prop :=
  ∃ scope info params inner, h.Meets scope (.template info params inner) s ∧
    ((Walk.declare scope (.template info params inner)).run s).2.collected =
      (s.entities ++ [.ofTemplate t], s.evidence ++ [e])

/-- The template stays where it was noted. -/
theorem Records.getElem?_survey {t : TemplateEntity} {e : Evidence} {s : Survey}
    (hrecords : h.Records t e s) :
    h.survey.entities[s.entities.length]? = some (.ofTemplate t) := by
  obtain ⟨scope, info, params, inner, hmeets, hafter⟩ := hrecords
  have hfront := (Walk.isPrefix_of_steps (Walk.Meets.leads hmeets)).1
  rw [hafter] at hfront
  exact Walk.getElem?_of_isPrefix hfront (by simp)

/-- Every record was noted together with the template at its place. -/
theorem exists_records {place index : ℕ} {e : Evidence} {requests : List InstanceRequest}
    (he : h.survey.evidence[place]? = some e) (hkind : e.kind = .requests index requests) :
    ∃ t s, h.Records t e s ∧ s.evidence.length = place ∧ s.entities.length = index := by
  have hbefore : ¬ (([], []) : Collection).2[place]? = some e := by simp
  obtain ⟨scope, d, s, hmeets, hd, hbefore, hafter⟩ := Walk.exists_meets_of_declareAll
    (P := fun c => c.2[place]? = some e) {} h.declarations
      { files := h.files, diagnostics := h.diagnostics } hbefore he
  obtain ⟨info, params, inner, t, rfl, hcollected, hplace, hindex⟩ :=
    Walk.collected_of_record hkind hd hbefore hafter
  exact ⟨t, s, ⟨scope, info, params, inner, hmeets, hcollected⟩, hplace, hindex⟩

end Header
end Bindery
