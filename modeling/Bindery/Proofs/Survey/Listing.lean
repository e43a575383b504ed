import Bindery.Proofs.Survey.Records

/-!
# Where classes are listed

The walk puts a class in front of the classes among its members when it is done with these. So a
class moves back by one place for every class around it that is listed, and nothing else moves it:
where the walk comes to a class, its place in the finished list can be reckoned from what has been
found and from how many classes are around. A class inside another one is behind that one.

## Main definitions

* `ClassVisit`: a class that the walk comes to.
* `ClassVisit.place`: its place in the finished list.
* `ClassVisit.Holds`: a class is a member of another one.
* `Header.Visits`: the walk over a header comes to a class.

## Main statements

* `Header.Visits.getElem?_survey`: a class is at its place.
* `Header.exists_visit`: every class that is listed is one that the walk came to.
* `Header.survey_in_place`: the finished list, with the records of directives.
-/
namespace Bindery

/-- A class that the walk comes to. -/
structure ClassVisit where
  scope : Scope
  mark : Option ExportMark
  info : DeclInfo
  head : ClassHead
  members : List Declaration
  /-- What was found in front of the class. -/
  found : Survey
  /-- The number of classes around it that are put in front of it later. -/
  around : ℕ

namespace ClassVisit

/-- How the walk goes through the members of the class. -/
def walkBody (v : ClassVisit) : Walk.MemberWalk := fun c =>
  Walk.walkMembers c c.kind.defaultAccess v.members

/-- What the walk makes of the class. A class with template arguments but without a template header
is skipped. -/
def entity? (v : ClassVisit) : Option ClassEntity :=
  if v.head.templateArgs.isSome then none
  else ((Walk.classEntity v.scope v.mark v.info v.head v.walkBody).run.run v.found).1

/-- What has been found when the walk is done with the class. -/
def after (v : ClassVisit) : Survey :=
  ((Walk.declareClass v.scope v.mark v.info v.head v.walkBody).run v.found).2

/-- The place of the class in the finished list. -/
def place (v : ClassVisit) : ℕ := v.found.entities.length + v.around

end ClassVisit

namespace Walk

/-- Going through the members of a class, the walk comes to a class that it takes over: a public
one, where there are no template parameters. -/
inductive MeetsClass (c : ClassContext) (v : ClassVisit) :
    Access → List Declaration → Survey → Prop where
  | here {own : Directives} {behind : List Declaration} {s : Survey}
      (hparams : c.inner.templateParams = []) (hscope : v.scope = c.inner)
      (hmark : v.mark = own.mark)
      (hown : (directivesAbove v.info none).run s = (own, v.found)) :
      MeetsClass c v .isPublic (.classDef v.info v.head v.members :: behind) s
  | specifier {access : Access} {level : Option Access} {info : DeclInfo}
      {behind : List Declaration} {s : Survey}
      (h : MeetsClass c v (level.getD access) behind s) :
      MeetsClass c v access (.access info level :: behind) s
  | later {access : Access} {d : Declaration} {behind : List Declaration} {s : Survey}
      (hd : ∀ info level, d ≠ .access info level)
      (h : MeetsClass c v access behind ((walkMember c access d).run s).2) :
      MeetsClass c v access (d :: behind) s

end Walk

/-- A class is a member of another one. -/
def ClassVisit.Holds (v w : ClassVisit) : Prop :=
  v.head.templateArgs = none ∧ w.around = v.around + 1 ∧ ∃ c close opened,
    Walk.Opens v.scope v.mark v.info v.head v.found c close opened ∧
      Walk.MeetsClass c w c.kind.defaultAccess v.members opened

/-- The walk over a header comes to a class: at namespace scope, among the members of a full
specialisation, or among those of another class. -/
inductive Header.Visits (h : Header) : ClassVisit → Prop where
  | outer {scope : Scope} {info : DeclInfo} {head : ClassHead} {members : List Declaration}
      {s found : Survey} {own : Directives}
      (hmeets : h.Meets scope (.classDef info head members) s)
      (hown : (Walk.directivesAbove info none).run s = (own, found)) :
      h.Visits ⟨scope, own.mark, info, head, members, found, 0⟩
  | inSpecialization {scope : Scope} {info inner : DeclInfo} {head : ClassHead}
      {members : List Declaration} {s opened : Survey} {c : Walk.ClassContext} {v : ClassVisit}
      (hmeets : h.Meets scope (.template info [] (some (.classDef inner head members))) s)
      (hopens : Walk.OpensSpecialization scope info inner head s c opened)
      (hv : Walk.MeetsClass c v c.kind.defaultAccess members opened) (haround : v.around = 0) :
      h.Visits v
  | nested {v w : ClassVisit} (hv : h.Visits v) (hw : v.Holds w) : h.Visits w

/-! ## One class -/

namespace ClassVisit

variable {v : ClassVisit} {c : Walk.ClassContext} {close : List Member → ClassEntity}
variable {opened : Survey}

theorem entity?_of_opens (hargs : v.head.templateArgs = none)
    (hopens : Walk.Opens v.scope v.mark v.info v.head v.found c close opened) :
    v.entity? = some (close ((v.walkBody c).run opened).1) := by
  rw [entity?, hargs, hopens]
  rfl

/-- The class is put in front of what its members add. -/
theorem after_of_opens (hargs : v.head.templateArgs = none)
    (hopens : Walk.Opens v.scope v.mark v.info v.head v.found c close opened) :
    ∃ nested, ((v.walkBody c).run opened).2.entities = v.found.entities ++ nested ∧
      v.after.entities =
        v.found.entities ++ .ofClass (close ((v.walkBody c).run opened).1) :: nested := by
  obtain ⟨classes, hclasses⟩ := Walk.addsClasses_of_reflTransGen
    (Walk.leads_walkMembers c c.kind.defaultAccess v.members opened)
  rw [hopens.collected_eq] at hclasses
  have hbody : ((v.walkBody c).run opened).2.entities =
      v.found.entities ++ classes.map .ofClass := congrArg Prod.fst hclasses
  have hafter : v.after.entities =
      ((v.walkBody c).run opened).2.entities.take v.found.entities.length ++
        .ofClass (close ((v.walkBody c).run opened).1) ::
          ((v.walkBody c).run opened).2.entities.drop v.found.entities.length := by
    have hget : (get : Walk Survey).run v.found = (v.found, v.found) := rfl
    rw [after, Walk.declareClass, if_neg (by simp [hargs]), Walk.run_bind_eq hget,
      Walk.run_bind_eq (hopens _)]
    rfl
  refine ⟨classes.map .ofClass, hbody, ?_⟩
  rw [hafter, hbody]
  simp

/-- What the members add moves back by one place. -/
theorem getElem?_after_succ (hargs : v.head.templateArgs = none)
    (hopens : Walk.Opens v.scope v.mark v.info v.head v.found c close opened) {j : ℕ}
    (hj : v.found.entities.length ≤ j) :
    v.after.entities[j + 1]? = ((v.walkBody c).run opened).2.entities[j]? := by
  obtain ⟨nested, hbody, hafter⟩ := after_of_opens hargs hopens
  rw [hbody, hafter, List.getElem?_append_right hj, List.getElem?_append_right (by omega),
    Nat.sub_add_comm hj, List.getElem?_cons_succ]

theorem exists_opens_of_entity? {a : ClassEntity} (h : v.entity? = some a) :
    v.head.templateArgs = none ∧ ∃ c close opened,
      Walk.Opens v.scope v.mark v.info v.head v.found c close opened := by
  rw [entity?] at h
  split at h
  · cases h
  · next hargs =>
    refine ⟨by simpa using hargs, ?_⟩
    rcases Walk.opens_or_refuses v.scope v.mark v.info v.head v.found with
      ⟨c, close, opened, hopens, -⟩ | ⟨t, -, hrun⟩
    · exact ⟨c, close, opened, hopens⟩
    · rw [hrun] at h
      cases h

/-- A class that is not made adds nothing. -/
theorem after_of_entity?_none (h : v.entity? = none) : v.after.entities = v.found.entities := by
  cases hargs : v.head.templateArgs with
  | some args =>
    rw [after, Walk.declareClass, if_pos (by simp [hargs])]
    have hwarn := Walk.still_iff.1 ((Walk.leads_place v.info).bind fun location =>
      Walk.leads_warn .unknownTemplate
        ("specialization `" ++ v.info.head ++ "` without template header; skipped") location)
      v.found
    exact Survey.entities_eq hwarn
  | none =>
    rcases Walk.opens_or_refuses v.scope v.mark v.info v.head v.found with
      ⟨c, close, opened, hopens, -⟩ | ⟨t, ht, hrefuses⟩
    · rw [entity?_of_opens hargs hopens] at h
      cases h
    · have hget : (get : Walk Survey).run v.found = (v.found, v.found) := rfl
      rw [after, Walk.declareClass, if_neg (by simp [hargs]), Walk.run_bind_eq hget,
        Walk.run_bind_eq (hrefuses _)]
      exact Survey.entities_eq ht

/-- Where the class is made, it is behind what was found in front of it. -/
theorem getElem?_after {a : ClassEntity} (h : v.entity? = some a) :
    v.after.entities[v.found.entities.length]? = some (.ofClass a) := by
  obtain ⟨hargs, c, close, opened, hopens⟩ := exists_opens_of_entity? h
  obtain ⟨nested, -, hafter⟩ := after_of_opens hargs hopens
  rw [entity?_of_opens hargs hopens] at h
  rw [hafter, List.getElem?_append_right (le_refl _), Nat.sub_self, ← Option.some_inj.1 h]
  rfl

end ClassVisit

/-! ## Members -/

namespace Walk

variable {c : ClassContext} {v : ClassVisit} {access : Access} {d : Declaration}
variable {ds : List Declaration} {s : Survey}

theorem isPrefix_of_classes {α : Type} {step : Walk α} (h : Leads AddsClasses step) (s : Survey) :
    s.entities <+: (step.run s).2.entities :=
  (isPrefix_of_steps (h.mono (fun _ _ => Step.classes) s)).1

theorem run_walkMembers_cons (hd : ∀ info level, d ≠ .access info level) :
    ((walkMembers c access (d :: ds)).run s).2 =
      ((walkMembers c access ds).run ((walkMember c access d).run s).2).2 := by
  rw [walkMembers]
  · rfl
  · exact hd

/-- The walk goes through a class that it takes over. -/
theorem run_walkMember_class {own : Directives} (hparams : c.inner.templateParams = [])
    (hscope : v.scope = c.inner) (hmark : v.mark = own.mark)
    (hown : (directivesAbove v.info none).run s = (own, v.found)) :
    ((walkMember c .isPublic (.classDef v.info v.head v.members)).run s).2 = v.after := by
  have hnested : ((nestedClass c .isPublic v.info v.head v.walkBody).run s).2 = v.after := by
    rw [nestedClass, run_bind_eq hown, if_neg (by simp [hparams]), if_pos rfl, ClassVisit.after,
      hscope, hmark]
  rw [walkMember, ← hnested]
  rfl

/-- In front of a class there is what was in front of the class around it. -/
theorem MeetsClass.isPrefix_found (h : MeetsClass c v access ds s) :
    s.entities <+: v.found.entities := by
  induction h with
  | @here own behind s hparams hscope hmark hown =>
    rw [Survey.entities_eq (collected_directivesAbove hown)]
  | specifier _ ih => exact ih
  | @later access d behind s _ _ ih =>
    exact (isPrefix_of_classes (leads_walkMember c access d) s).trans ih

/-- What comes behind a class that is a member comes behind all that the class adds. -/
theorem MeetsClass.isPrefix_walkMembers (h : MeetsClass c v access ds s) :
    v.after.entities <+: ((walkMembers c access ds).run s).2.entities := by
  induction h with
  | @here own behind s hparams hscope hmark hown =>
    rw [run_walkMembers_cons (by simp), run_walkMember_class hparams hscope hmark hown]
    exact isPrefix_of_classes (leads_walkMembers c _ behind) v.after
  | specifier _ ih =>
    rw [walkMembers]
    exact ih
  | later hd _ ih =>
    rw [run_walkMembers_cons hd]
    exact ih

end Walk

namespace ClassVisit

variable {v w : ClassVisit}

/-- What was found in front of a class around was found in front of what is inside. -/
theorem Holds.isPrefix_found (hw : v.Holds w) : v.found.entities <+: w.found.entities := by
  obtain ⟨-, -, c, close, opened, hopens, hmeets⟩ := hw
  exact Survey.entities_eq hopens.collected_eq ▸ hmeets.isPrefix_found

/-- A class inside another one is behind it. -/
theorem Holds.place_lt (hw : v.Holds w) : v.place < w.place := by
  have hlength := hw.isPrefix_found.length_le
  have haround : w.around = v.around + 1 := hw.2.1
  rw [place, place]
  omega

/-- A class with a class inside is made. -/
theorem Holds.exists_entity (hw : v.Holds w) : ∃ a, v.entity? = some a := by
  obtain ⟨hargs, -, c, close, opened, hopens, -⟩ := hw
  exact ⟨_, entity?_of_opens hargs hopens⟩

/-- What a class inside adds moves back by one place. -/
theorem Holds.getElem?_after (hw : v.Holds w) {j : ℕ} (hj : w.found.entities.length ≤ j)
    {x : Entity} (hx : w.after.entities[j]? = some x) : v.after.entities[j + 1]? = some x := by
  have hlength := hw.isPrefix_found.length_le
  obtain ⟨hargs, -, c, close, opened, hopens, hmeets⟩ := hw
  rw [getElem?_after_succ hargs hopens (hlength.trans hj)]
  exact Walk.getElem?_of_isPrefix hmeets.isPrefix_walkMembers hx

end ClassVisit

/-! ## The finished list -/

namespace Header

variable {h : Header} {scope : Scope} {s found : Survey} {v : ClassVisit}

theorem Meets.isPrefix_survey {d : Declaration} (hmeets : h.Meets scope d s) :
    ((Walk.declare scope d).run s).2.entities <+: h.survey.entities :=
  (Walk.isPrefix_of_steps (Walk.Meets.leads hmeets)).1

theorem run_declare_class {info : DeclInfo} {head : ClassHead} {members : List Declaration}
    {own : Directives} (hown : (Walk.directivesAbove info none).run s = (own, found)) :
    ((Walk.declare scope (.classDef info head members)).run s).2 =
      (ClassVisit.mk scope own.mark info head members found 0).after := by
  rw [Walk.declare, Walk.run_bind_eq hown]
  rfl

/-- A full specialisation adds what its members do. -/
theorem run_declare_specialization {info inner : DeclInfo} {head : ClassHead} {opened : Survey}
    {c : Walk.ClassContext} (hopens : Walk.OpensSpecialization scope info inner head s c opened)
    (members : List Declaration) :
    ((Walk.declare scope
        (.template info [] (some (.classDef inner head members)))).run s).2.entities =
      ((Walk.walkMembers c c.kind.defaultAccess members).run opened).2.entities := by
  obtain ⟨e, -, hcollected⟩ := hopens.exists_hint members
  exact congrArg Prod.fst hcollected

/-- What a class adds moves back by as many places as there are classes around it. -/
theorem Visits.getElem?_of_after (hv : h.Visits v) {j : ℕ} (hj : v.found.entities.length ≤ j)
    {x : Entity} (hx : v.after.entities[j]? = some x) :
    h.survey.entities[j + v.around]? = some x := by
  induction hv generalizing j with
  | outer hmeets hown =>
    rw [← run_declare_class hown] at hx
    exact Walk.getElem?_of_isPrefix hmeets.isPrefix_survey hx
  | inSpecialization hmeets hopens hmember haround =>
    rw [haround]
    refine Walk.getElem?_of_isPrefix hmeets.isPrefix_survey ?_
    rw [run_declare_specialization hopens]
    exact Walk.getElem?_of_isPrefix hmember.isPrefix_walkMembers hx
  | nested _ hw ih =>
    have hlength := hw.isPrefix_found.length_le
    have hplace := ih (by omega) (hw.getElem?_after hj hx)
    rw [hw.2.1]
    rwa [Nat.add_right_comm] at hplace

/-- A class is at its place. -/
theorem Visits.getElem?_survey (hv : h.Visits v) {a : ClassEntity} (ha : v.entity? = some a) :
    h.survey.entities[v.place]? = some (.ofClass a) :=
  hv.getElem?_of_after (le_refl _) (ClassVisit.getElem?_after ha)

end Header

/-! ## Every listed class -/

namespace Walk

variable {P : ClassVisit → Prop} {around : ℕ} {before middle after : List Entity}

/-- The classes that are new were visited, and will be at their places when as many classes as are
around have been put in front of them. -/
def FromVisits (P : ClassVisit → Prop) (around : ℕ) (before after : List Entity) : Prop :=
  ∀ i a, before.length ≤ i → after[i]? = some (.ofClass a) →
    ∃ v, P v ∧ v.entity? = some a ∧ v.place = i + around

theorem fromVisits_refl (entities : List Entity) : FromVisits P around entities entities := by
  intro i a hi ha
  rw [List.getElem?_eq_none hi] at ha
  cases ha

theorem Still.fromVisits {α : Type} {step : Walk α} (h : Still step) (s : Survey) :
    FromVisits P around s.entities (step.run s).2.entities := by
  rw [Survey.entities_eq (still_iff.1 h s)]
  exact fromVisits_refl _

theorem FromVisits.trans (hfirst : FromVisits P around before middle)
    (hrest : FromVisits P around middle after) (hfront : middle <+: after) :
    FromVisits P around before after := by
  intro i a hi ha
  rcases Nat.lt_or_ge i middle.length with hlt | hge
  · obtain ⟨rest, rfl⟩ := hfront
    rw [List.getElem?_append_left hlt] at ha
    exact hfirst i a hi ha
  · exact hrest i a hge ha

/-- A class that is new when the walk is done with a class is that class, or is new when the walk is
done with its members. -/
theorem fromVisits_after {v : ClassVisit} (hv : P v)
    (hbody : ∀ c close opened, v.head.templateArgs = none →
      Opens v.scope v.mark v.info v.head v.found c close opened →
        FromVisits P (v.around + 1) opened.entities ((v.walkBody c).run opened).2.entities) :
    FromVisits P v.around v.found.entities v.after.entities := by
  cases hentity : v.entity? with
  | none =>
    rw [ClassVisit.after_of_entity?_none hentity]
    exact fromVisits_refl _
  | some b =>
    obtain ⟨hargs, c, close, opened, hopens⟩ := ClassVisit.exists_opens_of_entity? hentity
    have hopened := Survey.entities_eq hopens.collected_eq
    intro i a hi ha
    rcases Nat.eq_or_lt_of_le hi with rfl | hlt
    · rw [ClassVisit.getElem?_after hentity] at ha
      cases ha
      exact ⟨v, hv, hentity, rfl⟩
    · obtain ⟨j, rfl⟩ : ∃ j, i = j + 1 := ⟨i - 1, by omega⟩
      have hj := Nat.le_of_lt_succ hlt
      rw [ClassVisit.getElem?_after_succ hargs hopens hj] at ha
      obtain ⟨w, hw, hwentity, hplace⟩ := hbody c close opened hargs hopens j a (hopened ▸ hj) ha
      exact ⟨w, hw, hwentity, by omega⟩

mutual
/-- The classes that a member of a class adds are those that the walk comes to there, and what is
inside of these. -/
theorem fromVisits_walkMember (hP : ∀ v w, P v → v.Holds w → P w) (c : ClassContext)
    (access : Access) (around : ℕ) :
    (d : Declaration) → (behind : List Declaration) → (s : Survey) →
    (∀ v, MeetsClass c v access (d :: behind) s → v.around = around → P v) →
    FromVisits P around s.entities ((walkMember c access d).run s).2.entities
  | .classDef info head members, behind, s, hvisits => by
    by_cases hlisted : c.inner.templateParams = [] ∧ access = .isPublic
    · obtain ⟨hparams, rfl⟩ := hlisted
      obtain ⟨own, found, hown⟩ : ∃ own found, (directivesAbove info none).run s = (own, found) :=
        ⟨_, _, rfl⟩
      let v : ClassVisit := ⟨c.inner, own.mark, info, head, members, found, around⟩
      have hv : P v := hvisits v (.here hparams rfl rfl hown) rfl
      have hfound := Survey.entities_eq (collected_directivesAbove hown)
      have hrun : ((walkMember c .isPublic (.classDef info head members)).run s).2 = v.after :=
        run_walkMember_class (v := v) hparams rfl rfl hown
      rw [hrun, ← hfound]
      exact fromVisits_after hv fun n close opened hargs hopens =>
        fromVisits_walkMembers hP n n.kind.defaultAccess (around + 1) members opened
          fun w hw haround => hP v w hv ⟨hargs, haround, n, close, opened, hopens, hw⟩
    · refine Still.fromVisits (still_walkMember fun _ _ _ _ => ?_) s
      exact Decidable.not_and_iff_or_not.1 hlisted
  | .function .., _, s, _ | .template .., _, s, _ | .instantiation .., _, s, _
  | .namespaceDef .., _, s, _ | .linkage .., _, s, _ | .typeAlias .., _, s, _
  | .skipped .., _, s, _ | .field .., _, s, _ | .usingDecl .., _, s, _ | .access .., _, s, _ =>
    (still_walkMember (by simp)).fromVisits s

/-- The classes that members of a class add are those that the walk comes to, and what is inside of
these. -/
theorem fromVisits_walkMembers (hP : ∀ v w, P v → v.Holds w → P w) (c : ClassContext)
    (access : Access) (around : ℕ) :
    (ds : List Declaration) → (s : Survey) →
    (∀ v, MeetsClass c v access ds s → v.around = around → P v) →
    FromVisits P around s.entities ((walkMembers c access ds).run s).2.entities
  | [], s, hvisits => by
    rw [walkMembers]
    exact fromVisits_refl _
  | d :: ds, s, hvisits => by
    by_cases hd : ∃ info level, d = .access info level
    · obtain ⟨info, level, rfl⟩ := hd
      rw [walkMembers]
      exact fromVisits_walkMembers hP c _ around ds s fun v hv => hvisits v (.specifier hv)
    · replace hd : ∀ info level, d ≠ .access info level :=
        fun info level heq => hd ⟨info, level, heq⟩
      rw [run_walkMembers_cons hd]
      refine FromVisits.trans (fromVisits_walkMember hP c access around d ds s hvisits)
        (fromVisits_walkMembers hP c access around ds _ fun v hv => hvisits v (.later hd hv)) ?_
      exact isPrefix_of_classes (leads_walkMembers c access ds) _
end

/-- What is no class need not have been visited. -/
theorem fromVisits_append {new : List Entity} (hnew : ∀ a, .ofClass a ∉ new) :
    FromVisits P around before (before ++ new) := by
  intro i a hi ha
  rw [List.getElem?_append_right hi] at ha
  exact absurd (List.mem_of_getElem? ha) (hnew a)

theorem exists_append_of_plain {a b : Collection} (h : Relation.ReflTransGen Plain a b) :
    ∃ new : List Entity, b.1 = a.1 ++ new ∧ ∀ c, .ofClass c ∉ new := by
  induction h with
  | refl => exact ⟨[], by simp⟩
  | tail _ hstep ih =>
    obtain ⟨new, hb, hnew⟩ := ih
    cases hstep with
    | function f =>
      cases hb
      exact ⟨new ++ [.ofFunction f], List.append_assoc .., by simpa using hnew⟩
    | hint => exact ⟨new, hb, hnew⟩

/-- Functions and hints bring no class. -/
theorem fromVisits_of_plain {s t : Survey}
    (h : Relation.ReflTransGen Plain s.collected t.collected) :
    FromVisits P around s.entities t.entities := by
  obtain ⟨new, ht, hnew⟩ := exists_append_of_plain h
  have hentities : t.entities = s.entities ++ new := ht
  rw [hentities]
  exact fromVisits_append hnew

/-- A template is no class. -/
theorem AddsTemplate.fromVisits {s t : Survey} (h : AddsTemplate s.collected t.collected) :
    FromVisits P around s.entities t.entities := by
  obtain ⟨template, own, ht, -⟩ := h
  have hentities : t.entities = s.entities ++ [.ofTemplate template] := congrArg Prod.fst ht
  rw [hentities]
  exact fromVisits_append (by simp)

end Walk

namespace Header

variable {h : Header} {scope : Scope} {s : Survey}

/-- The classes that a declaration adds are those that the walk comes to. -/
theorem Meets.fromVisits {d : Declaration} (hmeets : h.Meets scope d s) (hd : d.isBlock = false) :
    Walk.FromVisits h.Visits 0 s.entities ((Walk.declare scope d).run s).2.entities := by
  rcases Walk.declare_cases scope hd s with ⟨info, head, members, rfl⟩ |
    ⟨info, inner, head, members, rfl⟩ | hadds | ⟨-, hadds⟩
  · obtain ⟨own, found, hown⟩ : ∃ own found,
        (Walk.directivesAbove info none).run s = (own, found) := ⟨_, _, rfl⟩
    have hfound := Survey.entities_eq (Walk.collected_directivesAbove hown)
    have hv : h.Visits ⟨scope, own.mark, info, head, members, found, 0⟩ := .outer hmeets hown
    rw [run_declare_class hown, ← hfound]
    refine Walk.fromVisits_after hv fun c close opened hargs hopens => ?_
    refine Walk.fromVisits_walkMembers (fun _ _ => .nested) c _ 1 members opened ?_
    exact fun w hw haround => hv.nested ⟨hargs, haround, c, close, opened, hopens, hw⟩
  · rcases Walk.specialization_cases scope info inner head s members with
      ⟨c, opened, hopens⟩ | hsame
    · rw [run_declare_specialization hopens, ← Survey.entities_eq hopens.collected_eq]
      refine Walk.fromVisits_walkMembers (fun _ _ => .nested) c _ 0 members opened ?_
      exact fun w hw haround => .inSpecialization hmeets hopens hw haround
    · rw [Survey.entities_eq hsame]
      exact Walk.fromVisits_refl _
  · exact Walk.fromVisits_of_plain hadds
  · exact hadds.fromVisits

/-- Every class that is listed is one that the walk came to, and it is at its place. -/
theorem exists_visit {i : ℕ} {a : ClassEntity} (ha : h.survey.entities[i]? = some (.ofClass a)) :
    ∃ v, h.Visits v ∧ v.entity? = some a ∧ v.place = i := by
  have hbefore : ¬ (([], []) : Collection).1[i]? = some (.ofClass a) := by simp
  obtain ⟨scope, d, s, hmeets, hd, hbefore, hafter⟩ := Walk.exists_meets_of_declareAll
    (P := fun c => c.1[i]? = some (.ofClass a)) {} h.declarations
      { files := h.files, diagnostics := h.diagnostics } hbefore ha
  refine Meets.fromVisits hmeets hd i a (Nat.le_of_not_lt fun hlt => hbefore ?_) hafter
  obtain ⟨rest, hrest⟩ := (Walk.isPrefix_of_steps (Walk.leads_declare scope d s)).1
  rw [← hrest] at hafter
  exact (List.getElem?_append_left hlt).symm.trans hafter

/-- When the walk over a header is over, every record of directives names the place of the template
that it was noted together with. The classes that are listed are those that the walk came to, each
at the place reckoned for it there; and a class inside another one is behind it. A full
specialisation is kept among the hints, so the classes inside of it have none in front of them. -/
theorem survey_in_place (h : Header) :
    (∀ place index e requests, h.survey.evidence[place]? = some e →
      e.kind = .requests index requests →
        ∃ t s, h.Records t e s ∧ s.evidence.length = place ∧ s.entities.length = index ∧
          h.survey.entities[index]? = some (.ofTemplate t)) ∧
    (∀ i a, h.survey.entities[i]? = some (.ofClass a) ↔
      ∃ v, h.Visits v ∧ v.entity? = some a ∧ v.place = i) ∧
    ∀ v w b, h.Visits v → v.Holds w → w.entity? = some b →
      ∃ a, v.entity? = some a ∧ h.survey.entities[v.place]? = some (.ofClass a) ∧
        h.survey.entities[w.place]? = some (.ofClass b) ∧ v.place < w.place := by
  refine ⟨?_, ?_, ?_⟩
  · intro place index e requests he hkind
    obtain ⟨t, s, hrecords, hplace, rfl⟩ := exists_records he hkind
    exact ⟨t, s, hrecords, hplace, rfl, hrecords.getElem?_survey⟩
  · intro i a
    constructor
    · exact exists_visit
    · rintro ⟨v, hv, ha, rfl⟩
      exact hv.getElem?_survey ha
  · intro v w b hv hw hb
    obtain ⟨a, ha⟩ := hw.exists_entity
    exact ⟨a, ha, hv.getElem?_survey ha, (hv.nested hw).getElem?_survey hb, hw.place_lt⟩

/-- The names of the entities that are listed, and the places in the records of directives. -/
example :
    (load (.ofFiles [("main.h", "struct A \x7b struct B \x7b\x7d; \x7d;\n" ++
      "// pxx :: instance([\"int\"])\ntemplate <class T> struct V \x7b\x7d;")]) []
        "main.h").toOption.map (fun h => (h.survey.entities.map fun e => e.name.text,
          h.survey.evidence.map fun e => match e.kind with
            | .requests index _ => some index
            | _ => none)) = some (["A", "A::B", "V"], [some 2]) := by
  decide +kernel

end Header

end Bindery
