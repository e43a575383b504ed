import Bindery.Proofs.Survey.Sites

/-!
# Steps that collect nothing

The parts of a function, a class or a template are read off its declaration without touching what
was collected before. Such a step looks at the survey, and notes names and warnings there, nothing
else. What it gives is said here along with that: the functions and the members that it reads
stand at the place of their declaration and have the mark that they are given.

## Main definitions

* `Walk.Quiet`, `Walk.QuietTry`: a step leaves what was collected, and its result has a property.
-/
namespace Bindery
namespace Walk

/-- From a survey of the files, a step leaves these and what was collected, and its result has a
property. -/
def Quiet (files : Array SourceFile) {α : Type} (Q : α → Prop) (w : Walk α) : Prop :=
  ∀ s : Survey, s.files = files → Q (w.run s).1 ∧ (w.run s).2.files = files ∧
    (w.run s).2.entities = s.entities ∧ (w.run s).2.evidence = s.evidence

/-- The same of a step that may have to skip something. -/
def QuietTry (files : Array SourceFile) {α : Type} (Q : α → Prop) (t : Attempt α) : Prop :=
  Quiet files (fun found => ∀ x ∈ found, Q x) t.run

/-! ## Composition -/

section Rules

variable {files : Array SourceFile} {α β : Type} {P Q : α → Prop} {R : β → Prop}

theorem quiet_pure {x : α} (hx : Q x) : Quiet files Q (pure x) := fun _ hs => ⟨hx, hs, rfl, rfl⟩

theorem quiet_get : Quiet files (fun s => s.files = files) get := fun _ hs => ⟨hs, hs, rfl, rfl⟩

/-- A note beside the files and what was collected. -/
theorem quiet_modify {f : Survey → Survey}
    (h : ∀ s, (f s).files = s.files ∧ (f s).entities = s.entities ∧ (f s).evidence = s.evidence) :
    Quiet files (fun _ => True) (modify f) :=
  fun s hs => ⟨trivial, (h s).1.trans hs, (h s).2⟩

theorem Quiet.bind {w : Walk α} {f : α → Walk β} (hw : Quiet files P w)
    (hf : ∀ x, P x → Quiet files R (f x)) : Quiet files R (w >>= f) := by
  intro s hs
  obtain ⟨hx, hfiles, hentities, hevidence⟩ := hw s hs
  obtain ⟨hy, hfiles', hentities', hevidence'⟩ := hf _ hx _ hfiles
  exact ⟨hy, hfiles', hentities'.trans hentities, hevidence'.trans hevidence⟩

theorem quietTry_pure {x : α} (hx : Q x) : QuietTry files Q (pure x) :=
  quiet_pure fun _ hy => Option.some_inj.1 hy ▸ hx

theorem quietTry_failure : QuietTry files Q (failure : Attempt α) := quiet_pure (by simp)

theorem Quiet.lift {w : Walk α} (hw : Quiet files Q w) : QuietTry files Q (OptionT.lift w) := by
  intro s hs
  obtain ⟨hx, hrest⟩ := hw s hs
  exact ⟨fun _ hy => Option.some_inj.1 hy ▸ hx, hrest⟩

theorem QuietTry.bind {t : Attempt α} {f : α → Attempt β} (ht : QuietTry files P t)
    (hf : ∀ x, P x → QuietTry files R (f x)) : QuietTry files R (t >>= f) := by
  rw [QuietTry, OptionT.run_bind]
  refine Quiet.bind ht fun found hfound => ?_
  cases found with
  | none => exact quiet_pure (by simp)
  | some x => exact hf x (hfound x rfl)

theorem QuietTry.ite {p : Prop} [Decidable p] {t u : Attempt α} (ht : QuietTry files Q t)
    (hu : QuietTry files Q u) : QuietTry files Q (if p then t else u) := by
  split
  · exact ht
  · exact hu

end Rules

variable {files : Array SourceFile}

/-! ## Notes -/

theorem quiet_place (info : DeclInfo) : Quiet files (· = info.location files) (place info) :=
  quiet_get.bind fun _ hs => quiet_pure (by rw [hs]; rfl)

theorem quiet_warn (code : DiagnosticCode) (message : String) (location : Option Location) :
    Quiet files (fun _ => True) (warn code message location) :=
  quiet_modify fun _ => ⟨rfl, rfl, rfl⟩

theorem quietTry_refuse {α : Type} {Q : α → Prop} (code : DiagnosticCode) (message : String)
    (location : Option Location) : QuietTry files Q (refuse code message location : Attempt α) :=
  (quiet_warn code message location).lift.bind fun _ _ => quietTry_failure

theorem quiet_reportSkipped (info : DeclInfo) (description : String) :
    Quiet files (fun _ => True) (reportSkipped info description) :=
  (quiet_place info).bind fun _ _ => quiet_warn _ _ _

theorem quiet_makeKnown (path : List String) : Quiet files (fun _ => True) (makeKnown path) := by
  refine quiet_modify fun s => ?_
  dsimp only
  split <;> exact ⟨rfl, rfl, rfl⟩

/-- The directives above a declaration, and what they say about its mark. -/
theorem quiet_directivesAbove (info : DeclInfo) (inner : Option DeclInfo) :
    Quiet files (fun own => own.mark =
        Directives.lastMark (info.comments ++ (inner.map (·.comments)).getD []))
      (directivesAbove info inner) := by
  have hwarn (complaints : List String) (location : Option Location) : Quiet files (fun _ => True)
      (complaints.forM fun complaint => warn .malformedDirective complaint location) := by
    induction complaints with
    | nil => exact quiet_pure trivial
    | cons complaint rest ih => exact (quiet_warn _ _ _).bind fun _ _ => ih
  refine (quiet_place info).bind fun location _ => (hwarn _ location).bind fun _ _ => ?_
  exact quiet_pure (Directives.mark_ofComments _)

theorem quiet_directivesAbove_none (info : DeclInfo) :
    Quiet files (fun own => own.mark = Directives.lastMark info.comments)
      (directivesAbove info none) := by
  have h : Quiet files _ (directivesAbove info none) := quiet_directivesAbove info none
  rwa [Option.map_none, Option.getD_none, List.append_nil] at h

theorem quiet_declareAlias (scope : Scope) (name : Option DeclName) (type : Option String)
    (isComplex : Bool) : Quiet files (fun _ => True) (declareAlias scope name type isComplex) := by
  unfold declareAlias
  split
  · refine quiet_get.bind fun s _ => ?_
    split
    · exact quiet_pure trivial
    · exact (quiet_makeKnown _).bind fun _ _ => quiet_modify fun _ => ⟨rfl, rfl, rfl⟩
  · exact quiet_pure trivial

/-! ## Functions -/

theorem quietTry_paramList (scope : Scope) (owner : String) (location : Option Location)
    (ps : List ParamDecl) :
    QuietTry files (fun _ => True) (paramList scope owner location ps) := by
  induction ps with
  | nil => exact quietTry_pure trivial
  | cons p ps ih =>
    unfold paramList
    refine .ite ih (.ite (quietTry_refuse _ _ _) ?_)
    refine quiet_get.lift.bind fun survey _ => ?_
    split
    · exact quietTry_refuse _ _ _
    · exact ih.bind fun _ _ => quietTry_pure trivial

theorem quietTry_params (scope : Scope) (owner : String) (location : Option Location)
    (f : FunctionDecl) : QuietTry files (fun _ => True) (params scope owner location f) :=
  .ite (quietTry_refuse _ _ _) (quietTry_paramList scope owner location f.params)

theorem quietTry_signature (scope : Scope) (owner : String) (location : Option Location)
    (f : FunctionDecl) : QuietTry files (fun _ => True) (signature scope owner location f) := by
  refine (quietTry_params scope owner location f).bind fun params _ => ?_
  refine QuietTry.bind (P := fun _ => True) ?_ fun _ _ => quietTry_pure trivial
  refine quiet_get.lift.bind fun survey _ => ?_
  split
  · exact quietTry_pure trivial
  · exact quietTry_refuse _ _ _

/-- A function stands at its place and has the mark above it or that of its scope. -/
theorem quietTry_freeFunction (scope : Scope) (mark : Option ExportMark) (info : DeclInfo)
    (f : FunctionDecl) :
    QuietTry files (fun e => e.location = info.location files ∧ e.mark = mark.getD scope.mark)
      (freeFunction scope mark info f) := by
  unfold freeFunction
  refine (quiet_place info).lift.bind fun location hlocation => ?_
  split
  · exact quietTry_refuse _ _ _
  · refine .ite (quietTry_refuse _ _ _) (.ite quietTry_failure ?_)
    exact (quietTry_signature _ _ _ _).bind fun _ _ => quietTry_pure ⟨hlocation, rfl⟩

theorem quietTry_functionArgs (scope : Scope) (f : FunctionDecl) :
    QuietTry files (fun _ => True) (functionArgs scope f) := by
  unfold functionArgs
  split
  · exact quietTry_pure trivial
  · refine quiet_get.lift.bind fun survey _ => ?_
    split
    · exact quietTry_failure
    · exact quietTry_pure trivial

theorem quietTry_templateParams (scope : Scope) (location : Option Location)
    (ps : List TemplateParamDecl) :
    QuietTry files (fun _ => True) (templateParams scope location ps) := by
  unfold templateParams
  refine .ite (quietTry_refuse _ _ _) ?_
  exact quiet_get.lift.bind fun _ _ => quietTry_pure trivial

/-! ## Members -/

section Members

variable (c : ClassContext) (access : Access) (mark : ExportMark)

theorem quietTry_constructorMember (location : Option Location) (f : FunctionDecl) :
    QuietTry files (fun m => m.location = location ∧ m.mark = mark)
      (constructorMember c access mark location f) := by
  unfold constructorMember
  refine .ite (quietTry_refuse _ _ _) ?_
  exact (quietTry_params _ _ _ _).bind fun _ _ => quietTry_pure ⟨rfl, rfl⟩

theorem quietTry_memberFunction (info : DeclInfo) (f : FunctionDecl) :
    QuietTry files (fun m => m.location = info.location files ∧ m.mark = mark)
      (memberFunction c access mark info f) := by
  unfold memberFunction
  refine (quiet_place info).lift.bind fun location hlocation => ?_
  rw [← hlocation]
  refine .ite quietTry_failure (.ite (.ite (quietTry_refuse _ _ _) quietTry_failure) (.ite ?_ ?_))
  · exact quietTry_constructorMember c access mark location f
  · split
    · exact quietTry_failure
    · refine .ite quietTry_failure ?_
      exact (quietTry_signature _ _ _ _).bind fun _ _ => quietTry_pure ⟨rfl, rfl⟩

theorem quietTry_memberField (scope : Scope) (location : Option Location) (f : FieldDecl)
    (type name : String) (d : DeclaratorDecl) :
    QuietTry files (fun m => m.location = location ∧ m.mark = mark)
      (memberField scope access mark location f type name d) := by
  unfold memberField
  refine .ite (quietTry_refuse _ _ _) ?_
  refine quiet_get.lift.bind fun survey _ => ?_
  split
  · exact quietTry_refuse _ _ _
  · exact quietTry_pure ⟨rfl, rfl⟩

theorem quiet_collectMembers {Q : Member → Prop} {attempts : List (Attempt Member)}
    (h : ∀ a ∈ attempts, QuietTry files Q a) :
    Quiet files (fun ms => ∀ m ∈ ms, Q m) (collectMembers attempts) := by
  induction attempts with
  | nil => exact quiet_pure (by simp)
  | cons a rest ih =>
    refine Quiet.bind (h a (.head _)) fun first hfirst => ?_
    refine (ih fun b hb => h b (.tail _ hb)).bind fun more hmore => quiet_pure fun m hm => ?_
    rcases List.mem_append.1 hm with hm | hm
    · exact hfirst m (Option.mem_toList.1 hm)
    · exact hmore m hm

theorem quiet_memberFields (scope : Scope) (info : DeclInfo) (f : FieldDecl) :
    Quiet files (fun ms => ∀ m ∈ ms, m.location = info.location files ∧ m.mark = mark)
      (memberFields scope access mark info f) := by
  unfold memberFields
  refine (quiet_place info).bind fun location hlocation => ?_
  rw [← hlocation]
  split
  · exact quiet_pure (by simp)
  · split
    · exact (quiet_warn _ _ _).bind fun _ _ => quiet_pure (by simp)
    · refine quiet_collectMembers fun a ha => ?_
      obtain ⟨⟨name, d⟩, -, rfl⟩ := List.mem_map.1 ha
      exact quietTry_memberField _ _ _ _ _ _ _ _

end Members

end Walk
end Bindery
