import Bindery.Proofs.Survey.Quiet

/-!
# Marks carried by the walk

The walk carries the mark of the nearest declaration around it that has one. Linkage blocks do not
count: the walk passes through them with the mark from outside.

## Main definitions

* `Walk.Adds`: what a step adds to the survey stands for declarations.
* `Walk.Collects`, `Walk.Tries`: a step adds such things, and its result has a property.

## Main statements

* `Walk.collects_declareAll`: the walk through declarations adds entities for declarations among
  them, in order, each with its mark.
-/
namespace Bindery
namespace Walk

section Rules

variable {files : Array SourceFile} {xs ys : List Site} {α β : Type} {P Q : α → Prop}
variable {R : β → Prop} {a b c : Survey}

/-- The hint holds a specialisation. -/
def IsSpecialization (e : Evidence) : Prop :=
  match e.kind with
  | .fullSpec .. | .partialSpec _ => True
  | .requests .. | .explicit .. => False

/-- Behind what was collected come entities of some sites, in the order of these, and hints; the
specialisations among them are those of sites. -/
structure Adds (files : Array SourceFile) (xs : List Site) (before after : Survey) : Prop where
  files_eq : after.files = files
  entities : ∃ new, after.entities = before.entities ++ new ∧
    List.SublistForall₂ (Entity.StandsFor files) new xs
  evidence : ∃ new, after.evidence = before.evidence ++ new ∧
    ∀ e ∈ new, IsSpecialization e → ∃ s ∈ xs, e.StandsFor files s

theorem Adds.trans (hab : Adds files xs a b) (hbc : Adds files ys b c) :
    Adds files (xs ++ ys) a c := by
  obtain ⟨-, ⟨new, hb, hnew⟩, hints, hbhints, hhints⟩ := hab
  obtain ⟨hfiles, ⟨more, hc, hmore⟩, rest, hchints, hrest⟩ := hbc
  refine ⟨hfiles, ⟨new ++ more, by rw [hc, hb, List.append_assoc], ?_⟩,
    hints ++ rest, by rw [hchints, hbhints, List.append_assoc], fun e he hspec => ?_⟩
  · rw [List.sublistForall₂_iff] at hnew hmore ⊢
    obtain ⟨l, hl, hxs⟩ := hnew
    obtain ⟨k, hk, hys⟩ := hmore
    exact ⟨l ++ k, List.rel_append hl hk, hxs.append hys⟩
  · rcases List.mem_append.1 he with he | he
    · obtain ⟨s, hs, hstands⟩ := hhints e he hspec
      exact ⟨s, List.mem_append_left _ hs, hstands⟩
    · obtain ⟨s, hs, hstands⟩ := hrest e he hspec
      exact ⟨s, List.mem_append_right _ hs, hstands⟩

theorem Adds.mono (h : Adds files xs a b) (hxs : xs.Sublist ys) : Adds files ys a b := by
  obtain ⟨hfiles, ⟨new, hb, hnew⟩, hints, hbhints, hhints⟩ := h
  refine ⟨hfiles, ⟨new, hb, ?_⟩, hints, hbhints, fun e he hspec => ?_⟩
  · rw [List.sublistForall₂_iff] at hnew ⊢
    obtain ⟨l, hl, hsub⟩ := hnew
    exact ⟨l, hl, hsub.trans hxs⟩
  · obtain ⟨s, hs, hstands⟩ := hhints e he hspec
    exact ⟨s, hxs.subset hs, hstands⟩

/-- From a survey of the files, a step adds what stands for sites, and its result has a
property. -/
def Collects (files : Array SourceFile) (xs : List Site) (Q : α → Prop) (w : Walk α) : Prop :=
  ∀ s : Survey, s.files = files → Q (w.run s).1 ∧ Adds files xs s (w.run s).2

/-- The same of a step that may have to skip something. -/
def Tries (files : Array SourceFile) (xs : List Site) (Q : α → Prop) (t : Attempt α) : Prop :=
  Collects files xs (fun found => ∀ x ∈ found, Q x) t.run

/-! ## Composition -/

/-- Nothing is added, and so what stands for any sites. -/
theorem Quiet.collects {w : Walk α} (hw : Quiet files Q w) : Collects files xs Q w := by
  intro s hs
  obtain ⟨hx, hfiles, hentities, hevidence⟩ := hw s hs
  exact ⟨hx, hfiles, ⟨[], by simp [hentities], .nil⟩, [], by simp [hevidence], by simp⟩

theorem QuietTry.tries {t : Attempt α} (ht : QuietTry files Q t) : Tries files xs Q t :=
  Quiet.collects ht

theorem collects_pure {x : α} (hx : Q x) : Collects files xs Q (pure x) := (quiet_pure hx).collects

theorem collects_modify {f : Survey → Survey}
    (h : ∀ s, s.files = files → Adds files xs s (f s)) :
    Collects files xs (fun _ => True) (modify f) :=
  fun s hs => ⟨trivial, h s hs⟩

theorem Collects.mono {w : Walk α} (hw : Collects files xs P w) (hxs : xs.Sublist ys)
    (hPQ : ∀ x, P x → Q x) : Collects files ys Q w :=
  fun s hs => ⟨hPQ _ (hw s hs).1, (hw s hs).2.mono hxs⟩

theorem Collects.append {w : Walk α} {f : α → Walk β} (hw : Collects files xs P w)
    (hf : ∀ x, P x → Collects files ys R (f x)) : Collects files (xs ++ ys) R (w >>= f) := by
  intro s hs
  obtain ⟨hx, hadds⟩ := hw s hs
  obtain ⟨hy, hmore⟩ := hf _ hx _ hadds.files_eq
  exact ⟨hy, hadds.trans hmore⟩

/-- A step that adds nothing, and another one. -/
theorem Collects.bind {w : Walk α} {f : α → Walk β} (hw : Collects files [] P w)
    (hf : ∀ x, P x → Collects files ys R (f x)) : Collects files ys R (w >>= f) :=
  hw.append hf

/-- A step, and another one that adds nothing. -/
theorem Collects.finish {w : Walk α} {f : α → Walk β} (hw : Collects files xs P w)
    (hf : ∀ x, P x → Collects files [] R (f x)) : Collects files xs R (w >>= f) :=
  List.append_nil xs ▸ hw.append hf

theorem Tries.mono {t : Attempt α} (ht : Tries files xs P t) (hxs : xs.Sublist ys)
    (hPQ : ∀ x, P x → Q x) : Tries files ys Q t :=
  Collects.mono ht hxs fun _ hfound x hx => hPQ x (hfound x hx)

theorem tries_pure {x : α} (hx : Q x) : Tries files xs Q (pure x) := (quietTry_pure hx).tries

theorem tries_failure : Tries files xs Q (failure : Attempt α) := quietTry_failure.tries

theorem tries_refuse (code : DiagnosticCode) (message : String) (location : Option Location) :
    Tries files xs Q (refuse code message location : Attempt α) :=
  (quietTry_refuse code message location).tries

theorem Collects.lift {w : Walk α} (hw : Collects files xs Q w) :
    Tries files xs Q (OptionT.lift w) := by
  intro s hs
  obtain ⟨hx, hadds⟩ := hw s hs
  exact ⟨fun _ hy => Option.some_inj.1 hy ▸ hx, hadds⟩

theorem Tries.append {t : Attempt α} {f : α → Attempt β} (ht : Tries files xs P t)
    (hf : ∀ x, P x → Tries files ys R (f x)) : Tries files (xs ++ ys) R (t >>= f) := by
  rw [Tries, OptionT.run_bind]
  refine Collects.append ht fun found hfound => ?_
  cases found with
  | none => exact collects_pure (by simp)
  | some x => exact hf x (hfound x rfl)

/-- A step that adds nothing, and another one. -/
theorem Tries.bind {t : Attempt α} {f : α → Attempt β} (ht : Tries files [] P t)
    (hf : ∀ x, P x → Tries files ys R (f x)) : Tries files ys R (t >>= f) :=
  ht.append hf

/-- A step, and another one that adds nothing. -/
theorem Tries.finish {t : Attempt α} {f : α → Attempt β} (ht : Tries files xs P t)
    (hf : ∀ x, P x → Tries files [] R (f x)) : Tries files xs R (t >>= f) :=
  List.append_nil xs ▸ ht.append hf

theorem Tries.ite {p : Prop} [Decidable p] {t u : Attempt α} (ht : Tries files xs Q t)
    (hu : Tries files xs Q u) : Tries files xs Q (if p then t else u) := by
  split
  · exact ht
  · exact hu

end Rules

/-! ## Classes -/

section Classes

variable {files : Array SourceFile}

/-- A class in front of what was added is one more addition. -/
theorem Adds.insert {xs : List Site} {site : Site} {s after : Survey} {c : ClassEntity}
    (h : Adds files xs s after) (hc : (Entity.ofClass c).StandsFor files site) :
    Adds files (site :: xs) s ((insertEntity s.entities.length (.ofClass c)).run after).2 := by
  obtain ⟨hfiles, ⟨new, hafter, hnew⟩, hints, hhints, hspecs⟩ := h
  refine ⟨hfiles, ⟨.ofClass c :: new, ?_, .cons hc hnew⟩, hints, hhints, fun e he hspec => ?_⟩
  · have hrun : ((insertEntity s.entities.length (.ofClass c)).run after).2.entities =
        after.entities.take s.entities.length ++
          .ofClass c :: after.entities.drop s.entities.length := rfl
    rw [hrun, hafter]
    simp
  · obtain ⟨x, hx, hstands⟩ := hspecs e he hspec
    exact ⟨x, .tail _ hx, hstands⟩

variable (scope : Scope) (mark : Option ExportMark) (info : DeclInfo) (head : ClassHead)
variable {members : List Declaration} {xs : List Site} {walkBody : MemberWalk}

/-- A class is that of its declaration when its members are. -/
theorem tries_classEntity {m : ExportMark} (hmark : mark.getD scope.mark = m)
    (hbody : ∀ c : ClassContext, c.inner.mark = m → c.inner.templateParams = scope.templateParams →
      Collects files xs (ComeFrom files c.inner.mark · members) (walkBody c)) :
    Tries files xs
      (fun c => Concrete.StandsFor files m (.ofClass c) (.classDef info head members))
      (classEntity scope mark info head walkBody) := by
  unfold classEntity
  refine (quiet_place info).collects.lift.bind fun location hlocation => ?_
  split
  · exact tries_refuse _ _ _
  · refine (quiet_makeKnown _).collects.lift.bind fun _ _ => ?_
    dsimp only
    split
    · exact .ite (tries_refuse _ _ _) tries_failure
    · exact .ite (tries_refuse _ _ _) tries_failure
    · refine .ite tries_failure ?_
      refine quiet_get.collects.lift.bind fun survey _ => ?_
      refine (hbody _ hmark rfl).lift.finish fun ms hms => ?_
      exact tries_pure ⟨hlocation, hmark, hmark ▸ hms⟩

variable {around : List Declaration}

/-- A class is listed in front of the classes inside it. -/
theorem collects_declareClass
    (hscope : scope.mark = Declaration.nearestPastLinkage around)
    (hmark : mark = (Declaration.classDef info head members).ownMark)
    (hbody : ∀ c : ClassContext, c.inner.mark = mark.getD scope.mark →
      c.inner.templateParams = scope.templateParams →
      Collects files xs (ComeFrom files c.inner.mark · members) (walkBody c)) :
    Collects files (⟨.classDef info head members, around⟩ :: xs) (fun _ => True)
      (declareClass scope mark info head walkBody) := by
  unfold declareClass
  split
  · refine (quiet_place info).collects.bind fun _ _ => ?_
    exact (quiet_warn _ _ _).collects
  · intro s hs
    obtain ⟨hfound, hadds⟩ := tries_classEntity scope mark info head rfl hbody s hs
    simp only [StateT.run_bind, StateT.run_get, pure_bind]
    generalize (classEntity scope mark info head walkBody).run.run s = result at hfound hadds ⊢
    obtain ⟨found, after⟩ := result
    refine ⟨trivial, ?_⟩
    cases found with
    | none => exact hadds.mono (List.sublist_cons_self _ _)
    | some c =>
      refine hadds.insert ?_
      have hsite : Site.markPastLinkage ⟨.classDef info head members, around⟩ =
          mark.getD scope.mark := by
        rw [Site.markPastLinkage, Declaration.nearestPastLinkage_cons rfl, hscope, hmark]
      rw [Entity.StandsFor, hsite]
      exact hfound c rfl

/-! ### Nested classes -/

/-- Sites inside a class, none of them in a class that is itself a template. -/
def listed (c : ClassContext) (xs : List Site) : List Site :=
  if c.inner.templateParams.isEmpty then xs else []

@[simp] theorem listed_nil (c : ClassContext) : listed c [] = [] := ite_self []

theorem listed_append (c : ClassContext) (xs ys : List Site) :
    listed c (xs ++ ys) = listed c xs ++ listed c ys := by
  unfold listed
  split <;> rfl

theorem listed_sublist (c : ClassContext) (xs : List Site) : (listed c xs).Sublist xs := by
  unfold listed
  split
  · exact .refl _
  · exact List.nil_sublist _

theorem collects_nestedClass {c : ClassContext} {around : List Declaration} (access : Access)
    (info : DeclInfo) (head : ClassHead) {members : List Declaration} {walkBody : MemberWalk}
    (hscope : c.inner.mark = Declaration.nearestPastLinkage around)
    (hbody : ∀ n : ClassContext,
      n.inner.mark = (Declaration.classDef info head members).ownMark.getD c.inner.mark →
      Collects files
        (listed n (Declaration.memberSitesOf (.classDef info head members :: around) members))
        (ComeFrom files n.inner.mark · members) (walkBody n)) :
    Collects files (listed c (Declaration.memberSites around (.classDef info head members)))
      (fun _ => True) (nestedClass c access info head walkBody) := by
  unfold nestedClass
  refine (quiet_directivesAbove_none info).collects.bind fun own hown => ?_
  cases hparams : c.inner.templateParams.isEmpty with
  | false =>
    refine (quiet_place info).collects.bind fun _ _ => ?_
    exact (quiet_warn _ _ _).collects
  | true =>
    rw [if_neg (by simp), listed, if_pos hparams, Declaration.memberSites]
    split
    · refine collects_declareClass _ _ _ _ hscope hown fun n hmark htemplate => ?_
      have hn := hbody n (by rw [hmark, hown]; rfl)
      rwa [listed, htemplate, if_pos hparams] at hn
    · split
      · exact (quiet_makeKnown _).collects
      · exact collects_pure trivial

end Classes

section Members

variable {files : Array SourceFile}

mutual
/-- A member stands at the place of its declaration, and has the mark above that or the mark of
the class. -/
theorem collects_walkMember {c : ClassContext} {around : List Declaration} (access : Access)
    (hscope : c.inner.mark = Declaration.nearestPastLinkage around) : (d : Declaration) →
    Collects files (listed c (Declaration.memberSites around d))
      (fun ms => ∀ m ∈ ms, m.location = d.info.location files ∧
        m.mark = d.ownMark.getD c.inner.mark) (walkMember c access d)
  | .function info f => by
    rw [walkMember, Declaration.memberSites, listed_nil]
    refine (quiet_directivesAbove_none info).collects.bind fun own hown => ?_
    refine Collects.bind (quietTry_memberFunction c access _ info f).tries fun found hfound => ?_
    refine collects_pure fun m hm => ?_
    obtain ⟨hlocation, hmark⟩ := hfound m (Option.mem_toList.1 hm)
    exact ⟨hlocation, by rw [hmark, hown]; rfl⟩
  | .field info f => by
    rw [walkMember, Declaration.memberSites, listed_nil]
    refine (quiet_directivesAbove_none info).collects.bind fun own hown => ?_
    refine Collects.mono (quiet_memberFields access _ c.inner info f).collects (.refl _)
      fun ms hms m hm => ?_
    obtain ⟨hlocation, hmark⟩ := hms m hm
    exact ⟨hlocation, by rw [hmark, hown]; rfl⟩
  | .classDef info head members => by
    rw [walkMember]
    refine (collects_nestedClass access info head hscope fun n hmark => ?_).finish
      fun _ _ => collects_pure (by simp)
    refine collects_walkMembers _ ?_ members
    rw [hmark, hscope, Declaration.nearestPastLinkage_cons rfl]
  | .template info _ _ => by
    rw [walkMember, Declaration.memberSites, listed_nil]
    refine (quiet_place info).collects.bind fun _ _ => ?_
    exact (quiet_warn _ _ _).collects.bind fun _ _ => collects_pure (by simp)
  | .typeAlias _ _ name type isComplex => by
    rw [walkMember, Declaration.memberSites, listed_nil]
    exact (quiet_declareAlias _ _ _ _).collects.bind fun _ _ => collects_pure (by simp)
  | .skipped info description => by
    rw [walkMember, Declaration.memberSites, listed_nil]
    refine (quiet_place info).collects.bind fun _ _ => ?_
    exact (quiet_warn _ _ _).collects.bind fun _ _ => collects_pure (by simp)
  | .usingDecl .. | .namespaceDef .. | .linkage .. | .instantiation .. | .access .. => by
    rw [walkMember]
    exact collects_pure (by simp)

/-- The members of a class come from its declarations. -/
theorem collects_walkMembers {c : ClassContext} {around : List Declaration} (access : Access)
    (hscope : c.inner.mark = Declaration.nearestPastLinkage around) : (ds : List Declaration) →
    Collects files (listed c (Declaration.memberSitesOf around ds))
      (ComeFrom files c.inner.mark · ds) (walkMembers c access ds)
  | [] => by
    rw [walkMembers]
    exact collects_pure (.nil _)
  | d :: ds => by
    have hrest (level : Access) := collects_walkMembers level hscope ds
    have hfirst := collects_walkMember access hscope d
    rw [Declaration.memberSitesOf, listed_append]
    unfold walkMembers
    split
    · next heq => cases heq
    · next info level _ heq =>
      cases heq
      refine (hrest (level.getD access)).mono (List.sublist_append_right _ _) fun ms hms => ?_
      exact hms.skip _
    · next heq =>
      cases heq
      refine hfirst.append fun found hfound => ?_
      exact (hrest access).finish fun rest hms => collects_pure (hms.cons hfound)
end

end Members

/-! ## Templates -/

section Templates

variable {files : Array SourceFile} {α : Type} {P : α → Prop}

/-- A hint behind what was added. -/
theorem Adds.hint {xs : List Site} {site : Site} {s after : Survey} (h : Adds files xs s after)
    {e : Evidence} (he : IsSpecialization e → e.StandsFor files site) :
    Adds files (site :: xs) s ((addEvidence e).run after).2 := by
  obtain ⟨hfiles, ⟨new, hafter, hnew⟩, hints, hhints, hspecs⟩ := h
  refine ⟨hfiles, ⟨new, hafter, .cons_right hnew⟩, hints ++ [e], ?_, fun a ha hspec => ?_⟩
  · have hrun : ((addEvidence e).run after).2.evidence = after.evidence ++ [e] := rfl
    rw [hrun, hhints, List.append_assoc]
  · rcases List.mem_append.1 ha with ha | ha
    · obtain ⟨x, hx, hstands⟩ := hspecs a ha hspec
      exact ⟨x, .tail _ hx, hstands⟩
    · obtain rfl := List.mem_singleton.1 ha
      exact ⟨site, .head _, he hspec⟩

/-- A step, and a hint that what it found gives for one more site. -/
theorem Tries.hint {xs : List Site} {site : Site} {t : Attempt α} {hint : α → Evidence}
    (ht : Tries files xs P t)
    (hhint : ∀ x, P x → IsSpecialization (hint x) → (hint x).StandsFor files site) :
    Tries files (site :: xs) (fun _ => True)
      (t >>= fun x => OptionT.lift (addEvidence (hint x))) := by
  intro s hs
  obtain ⟨hfound, hadds⟩ := ht s hs
  rw [OptionT.run_bind, Option.elimM, StateT.run_bind]
  generalize t.run.run s = result at hfound hadds ⊢
  obtain ⟨found, after⟩ := result
  refine ⟨fun _ _ => trivial, ?_⟩
  cases found with
  | none => exact hadds.mono (List.sublist_cons_self _ _)
  | some x => exact hadds.hint (hhint x (hfound x rfl))

theorem collects_addEvidence {xs : List Site} {e : Evidence}
    (he : IsSpecialization e → ∃ s ∈ xs, e.StandsFor files s) :
    Collects files xs (fun _ => True) (addEvidence e) := by
  refine collects_modify fun s hs => ⟨hs, ⟨[], by simp, .nil⟩, [e], rfl, fun a ha => ?_⟩
  obtain rfl := List.mem_singleton.1 ha
  exact he

variable {scope : Scope} {directives : Directives} {location : Option Location}
variable {around : List Declaration} {info innerInfo : DeclInfo}
variable {ps : List TemplateParamDecl} {inner : Declaration}

/-- A template is that of its declaration. -/
theorem collects_addTemplate (name : QualifiedName) (params : List TemplateParam)
    {pattern : Concrete} (hlocation : location = info.location files)
    (hmark : directives.mark.getD scope.mark =
      Site.markPastLinkage ⟨.template info ps (some inner), around⟩)
    (hpattern : pattern.StandsFor files (directives.mark.getD scope.mark) inner) :
    Collects files [⟨.template info ps (some inner), around⟩] (fun _ => True)
      (addTemplate scope directives location name params pattern) := by
  unfold addTemplate
  refine (quiet_makeKnown _).collects.bind fun _ _ => quiet_get.collects.bind fun survey _ => ?_
  refine Collects.finish (P := fun _ => True) ?_ fun _ _ => ?_
  · refine collects_modify fun s hs => ⟨hs, ⟨_, rfl, .cons ?_ .nil⟩, [], by simp, by simp⟩
    rw [hmark] at hpattern
    exact ⟨hlocation, hmark, hpattern⟩
  · split
    · exact collects_addEvidence nofun
    · exact collects_pure trivial

/-- A class behind a template header. -/
theorem tries_templateClass (params : List TemplateParam) (head : ClassHead)
    {members : List Declaration} {walkBody : MemberWalk} {m : ExportMark}
    (hlocation : location = info.location files)
    (hsite : Site.markPastLinkage
      ⟨.template info ps (some (.classDef innerInfo head members)), around⟩ = m)
    (hmark : directives.mark.getD scope.mark = m)
    {xs : List Site} (hbody : ∀ c : ClassContext, c.inner.mark = m →
      Collects files (listed c xs) (ComeFrom files c.inner.mark · members) (walkBody c)) :
    Tries files (⟨.template info ps (some (.classDef innerInfo head members)), around⟩ :: xs)
      (fun _ => True)
      (templateClass scope directives location params innerInfo head walkBody) := by
  have hall (c : ClassContext) (hc : c.inner.mark = m) :
      Collects files xs (ComeFrom files c.inner.mark · members) (walkBody c) :=
    (hbody c hc).mono (listed_sublist c xs) fun _ h => h
  unfold templateClass
  split
  · exact tries_failure
  · dsimp only
    split
    · exact tries_refuse _ _ _
    · -- The class has template parameters, so it lists none of the classes inside it.
      refine Tries.mono ?_ (List.cons_sublist_cons.2 (List.nil_sublist _)) fun _ h => h
      have hnone (ps : List String) (hps : ps ≠ []) (c : ClassContext) (hc : c.inner.mark = m)
          (hparams : c.inner.templateParams = ps) :
          Collects files [] (ComeFrom files c.inner.mark · members) (walkBody c) := by
        have hlisted := hbody c hc
        rwa [listed, hparams, if_neg (by simp [hps])] at hlisted
      refine Tries.bind (tries_classEntity _ _ _ _ (m := m) hmark (hnone _ (by simp))) ?_
      exact fun pattern hpattern => (collects_addTemplate _ _ hlocation (hmark.trans hsite.symm)
        (hmark ▸ hpattern)).lift
    · refine quiet_get.collects.lift.bind fun survey _ => ?_
      split
      · exact tries_failure
      · refine Tries.hint (tries_classEntity _ _ _ _ (m := m) hmark fun c hc _ => hall c hc) ?_
        exact fun entity hentity _ => ⟨hlocation, hsite ▸ hentity⟩
    · refine quiet_get.collects.lift.bind fun survey _ => ?_
      split
      · exact tries_failure
      · refine Tries.hint (tries_classEntity _ _ _ _ (m := m) hmark fun c hc _ => hall c hc) ?_
        exact fun entity hentity _ => ⟨hlocation, hsite ▸ hentity⟩

/-- A function behind a template header. -/
theorem tries_templateFunction (params : List TemplateParam) (f : FunctionDecl) {m : ExportMark}
    (hlocation : location = info.location files)
    (hsite : Site.markPastLinkage ⟨.template info ps (some (.function innerInfo f)), around⟩ = m)
    (hmark : directives.mark.getD scope.mark = m) :
    Tries files [⟨.template info ps (some (.function innerInfo f)), around⟩] (fun _ => True)
      (templateFunction scope directives location params innerInfo f) := by
  unfold templateFunction
  split
  · exact tries_failure
  · refine .ite tries_failure ((quietTry_freeFunction _ _ _ _).tries.bind fun entity hentity => ?_)
    have hstands : Concrete.StandsFor files m (.ofFunction entity) (.function innerInfo f) :=
      ⟨hentity.1, hentity.2.trans hmark⟩
    split
    · refine Tries.bind (quietTry_functionArgs scope f).tries fun args _ => ?_
      refine Collects.lift (collects_addEvidence fun _ => ⟨_, .head _, ?_⟩)
      exact ⟨hlocation, hsite ▸ hstands⟩
    · exact (collects_addTemplate _ _ hlocation (hmark.trans hsite.symm) (hmark ▸ hstands)).lift
    · exact tries_refuse _ _ _

theorem collects_explicitClass (scope : Scope) (location : Option Location) (head : ClassHead) :
    Collects files [] (fun _ => True) (explicitClass scope location head) := by
  unfold explicitClass
  split
  · refine quiet_get.collects.bind fun survey _ => ?_
    split
    · exact collects_pure trivial
    · exact collects_addEvidence nofun
  · exact collects_pure trivial

theorem tries_explicitFunction (scope : Scope) (location : Option Location) (info : DeclInfo)
    (f : FunctionDecl) :
    Tries files [] (fun _ => True) (explicitFunction scope location info f) := by
  unfold explicitFunction
  split
  · exact tries_failure
  · refine (quietTry_functionArgs scope f).tries.bind fun args _ => ?_
    refine (quietTry_freeFunction _ _ _ _).tries.bind fun entity _ => ?_
    exact Collects.lift (collects_addEvidence nofun)

theorem Tries.attempt {xs : List Site} {t : Attempt Unit} (ht : Tries files xs (fun _ => True) t) :
    Collects files xs (fun _ => True) (Walk.attempt t) :=
  Collects.finish ht fun _ _ => collects_pure trivial

end Templates

/-! ## The walk -/

section Declarations

variable {files : Array SourceFile} {scope : Scope} {around : List Declaration}

/-- The members of a class come from its declarations, whatever the class is inside of. -/
theorem collects_classBody {self : Declaration} {members : List Declaration} {c : ClassContext}
    {m : ExportMark} (hself : Declaration.nearestPastLinkage (self :: around) = m)
    (hc : c.inner.mark = m) :
    Collects files (listed c (Declaration.memberSitesOf (self :: around) members))
      (ComeFrom files c.inner.mark · members) (walkMembers c c.kind.defaultAccess members) :=
  collects_walkMembers _ (hc.trans hself.symm) members

theorem collects_declareTemplate (hscope : scope.mark = Declaration.nearestPastLinkage around)
    (info : DeclInfo) (ps : List TemplateParamDecl) (inner : Option Declaration) :
    Collects files (Declaration.sites around (.template info ps inner)) (fun _ => True)
      (declareTemplate scope info ps inner) := by
  have hsite {m : Option ExportMark} (hm : m = (Declaration.template info ps inner).ownMark) :
      Site.markPastLinkage ⟨.template info ps inner, around⟩ = m.getD scope.mark := by
    rw [Site.markPastLinkage, Declaration.nearestPastLinkage_cons rfl, hscope, hm]
  rw [declareTemplate, Declaration.sites]
  refine (quiet_place info).collects.bind fun location hlocation => ?_
  refine (quiet_directivesAbove info _).collects.bind fun own hown => ?_
  replace hown : own.mark = (Declaration.template info ps inner).ownMark := by
    rw [hown, Option.map_map]; rfl
  refine Collects.bind (quietTry_templateParams scope location ps).tries fun params _ => ?_
  split
  · exact collects_pure trivial
  · split
    · exact collects_pure trivial
    · exact collects_pure trivial
    · refine Tries.attempt (tries_templateClass _ _ hlocation (hsite hown) rfl fun c hc => ?_)
      exact collects_classBody (hsite hown) hc
    · exact Tries.attempt (tries_templateFunction _ _ hlocation (hsite hown) rfl)
    · exact (quiet_warn _ _ _).collects

mutual
/-- The walk through a declaration adds what stands for the sites in it. -/
theorem collects_declare {scope : Scope} {around : List Declaration}
    (hscope : scope.mark = Declaration.nearestPastLinkage around) : (d : Declaration) →
    Collects files (Declaration.sites around d) (fun _ => True) (declare scope d)
  | .namespaceDef info name isInline body => by
    rw [declare, Declaration.sites]
    refine (quiet_directivesAbove_none info).collects.bind fun own hown => ?_
    refine collects_declareAll ?_ body
    replace hown : own.mark = (Declaration.namespaceDef info name isInline body).ownMark := hown
    rw [Declaration.nearestPastLinkage_cons rfl, ← hscope, ← hown]
    rfl
  | .linkage info body => by
    -- The scope of a linkage block is the one around it.
    rw [declare, Declaration.sites]
    refine collects_declareAll ?_ body
    rw [hscope, Declaration.nearestPastLinkage_cons_linkage]
  | .classDef info head members => by
    rw [declare, Declaration.sites, Declaration.memberSites]
    refine (quiet_directivesAbove_none info).collects.bind fun own hown => ?_
    refine collects_declareClass _ _ _ _ hscope hown fun c hc _ => ?_
    refine (collects_classBody ?_ hc).mono (listed_sublist c _) fun _ h => h
    rw [Declaration.nearestPastLinkage_cons rfl, hscope, hown]
    rfl
  | .function info f => by
    rw [declare, Declaration.sites]
    refine (quiet_directivesAbove_none info).collects.bind fun own hown => ?_
    refine Collects.bind (quietTry_freeFunction _ _ _ _).tries fun found hfound => ?_
    split
    · next entity =>
      obtain ⟨hlocation, hmark⟩ := hfound entity rfl
      refine collects_modify fun s hs =>
        ⟨hs, ⟨_, rfl, .cons ⟨hlocation, ?_⟩ .nil⟩, [], by simp, by simp⟩
      rw [hmark, Site.markPastLinkage, Declaration.nearestPastLinkage_cons rfl, hscope, hown]
      rfl
    · exact collects_pure trivial
  | .template info ps inner => by
    rw [declare]
    exact collects_declareTemplate hscope info ps inner
  | .instantiation info _ inner => by
    rw [declare, Declaration.sites]
    refine (quiet_place info).collects.bind fun location _ => ?_
    split
    · exact collects_explicitClass _ _ _
    · exact (tries_explicitFunction _ _ _ _).attempt
    · exact collects_pure trivial
  | .typeAlias .. => by
    rw [declare]
    exact (quiet_declareAlias _ _ _ _).collects
  | .skipped .. => by
    rw [declare]
    exact (quiet_reportSkipped _ _).collects
  | .field .. | .usingDecl .. | .access .. => by
    rw [declare]
    exact collects_pure trivial

/-- The walk through declarations adds what stands for the sites in them. -/
theorem collects_declareAll {scope : Scope} {around : List Declaration}
    (hscope : scope.mark = Declaration.nearestPastLinkage around) : (ds : List Declaration) →
    Collects files (Declaration.sitesOf around ds) (fun _ => True) (declareAll scope ds)
  | [] => by
    rw [declareAll]
    exact collects_pure trivial
  | d :: ds => by
    rw [declareAll, Declaration.sitesOf]
    exact (collects_declare hscope d).append fun _ _ => collects_declareAll hscope ds
end

end Declarations

end Walk
end Bindery
