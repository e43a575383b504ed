import Mathlib.Logic.Relation
import Bindery.Proofs.Export.Surface

/-!
# Where the members of an exported class come from

An exported class shows the members that it declares itself, as far as the policy lets it, and
behind them the members taken over from bases. No member is taken over under a name that the class
shows already. The first step from the class to the source of a member is a public base; what
follows are bases of any access, so that a base may be reached past an access that is closed.

## Main definitions

* `TakenMember`: a member and the class that it was taken from.
* `ExportedClass.Shows`: a class shows a list of members, in that order.
* `HeaderUnit.Derives`, `HeaderUnit.DerivesPublicly`: one step from a class to a base.

## Main statements

* `HeaderUnit.exportModel_takes_new_names`: nothing is taken over under a name that is shown.
* `HeaderUnit.exportModel_takes_from_bases`: what is taken over is reached through public bases,
  or past a base that is not public.
-/
namespace Bindery

/-- A member and the class that it was taken from. -/
structure TakenMember where
  source : ClassEntity
  member : Member
deriving DecidableEq

/-- The class shows these members and no others, in this order. -/
def ExportedClass.Shows (e : ExportedClass) (ms : List Member) : Prop :=
  e.methods = (ms.foldl Surface.add {}).groups ∧ e.fields = (ms.foldl Surface.add {}).fields

instance (e : ExportedClass) (ms : List Member) : Decidable (e.Shows ms) :=
  inferInstanceAs (Decidable (_ ∧ _))

/-! ## Steps to a base -/

namespace HeaderUnit

variable {u : HeaderUnit} {p : ExportPolicy} {a b c : ClassEntity}

/-- The class lists a base, whoever may use it. -/
def Derives (u : HeaderUnit) (c b : ClassEntity) : Prop :=
  ∃ r ∈ c.bases, u.classNamed? r.name = some b

/-- The class lists a public base. -/
def DerivesPublicly (u : HeaderUnit) (c b : ClassEntity) : Prop :=
  ∃ r ∈ c.bases, r.isPublic = true ∧ u.classNamed? r.name = some b

/-- The class lists a base that is not public. -/
def DerivesClosed (u : HeaderUnit) (c b : ClassEntity) : Prop :=
  ∃ r ∈ c.bases, r.isPublic = false ∧ u.classNamed? r.name = some b

theorem derives_of_mem_basesOf (h : b ∈ u.basesOf c) : u.Derives c b :=
  List.mem_filterMap.1 h

/-- The first step of folding takes public bases only. -/
theorem derivesPublicly_of_mem_foldedBases (h : b ∈ u.foldedBases p c) :
    u.DerivesPublicly c b := by
  obtain ⟨r, hr, hb⟩ := List.mem_filterMap.1 h
  split at hb
  · cases hb
  · next hopen =>
    rw [Bool.or_eq_true, not_or, Bool.not_eq_true', Bool.not_eq_false] at hopen
    exact ⟨r, hr, hopen.1, hb⟩

theorem Derives.publicly_or_closed (h : u.Derives c b) :
    u.DerivesPublicly c b ∨ u.DerivesClosed c b := by
  obtain ⟨r, hr, hb⟩ := h
  cases hpublic : r.isPublic with
  | true => exact .inl ⟨r, hr, hpublic, hb⟩
  | false => exact .inr ⟨r, hr, hpublic, hb⟩

/-- The class is reached through public bases, or the first step that is not public is one behind
a class that is reached so. -/
def ReachesPast (u : HeaderUnit) (c b : ClassEntity) : Prop :=
  ∃ x y, Relation.TransGen u.DerivesPublicly c x ∧ u.DerivesClosed x y ∧
    Relation.ReflTransGen u.Derives y b

/-- A way that starts with public bases stays public or has a first step that is not. -/
theorem reaches_of_reflTransGen (hfirst : Relation.TransGen u.DerivesPublicly c a)
    (hrest : Relation.ReflTransGen u.Derives a b) :
    Relation.TransGen u.DerivesPublicly c b ∨ u.ReachesPast c b := by
  induction hrest with
  | refl => exact .inl hfirst
  | tail _ hstep ih =>
    rcases ih with hpublic | ⟨x, y, hx, hxy, hy⟩
    · rcases hstep.publicly_or_closed with hstep | hstep
      · exact .inl (hpublic.tail hstep)
      · exact .inr ⟨_, _, hpublic, hstep, .refl⟩
    · exact .inr ⟨x, y, hx, hxy, hy.tail hstep⟩

end HeaderUnit

/-! ## What folding takes over -/

namespace Surface

variable {u : HeaderUnit} {s t : Surface} {m : Member} {ms : List Member} {cs : List ClassEntity}

/-- The surface without the record of the classes that were looked at. -/
def shown (s : Surface) : Surface := { s with visited := [] }

@[simp] theorem names_shown (s : Surface) : s.shown.names = s.names := rfl

theorem shown_add (s : Surface) (m : Member) : (s.add m).shown = s.shown.add m := by
  cases m <;> rfl

theorem shown_foldl_add (ms : List Member) (s : Surface) :
    (ms.foldl add s).shown = ms.foldl add s.shown := by
  induction ms generalizing s with
  | nil => rfl
  | cons m ms ih => rw [List.foldl_cons, List.foldl_cons, ih, shown_add]

theorem mem_names_add {name : String} :
    name ∈ (s.add m).names ↔ name ∈ s.names ∨ m.name? = some name := by
  cases m with
  | constructor k => simp [add, Member.name?]
  | method m =>
    simp only [add, names, List.mem_append, OrderedMap.push, OrderedMap.mem_keys_insert,
      Member.name?, Option.some_inj, eq_comm (a := name)]
    tauto
  | field f => simp [add, names, Member.name?, or_assoc, eq_comm]

theorem mem_names_foldl_add {name : String} :
    name ∈ (ms.foldl add s).names ↔ name ∈ s.names ∨ ∃ m ∈ ms, m.name? = some name := by
  induction ms generalizing s with
  | nil => simp
  | cons m ms ih => rw [List.foldl_cons, ih, mem_names_add, List.exists_mem_cons_iff, or_assoc]

theorem names_subset_of_shown_eq (h : t.shown = ms.foldl add s.shown) : s.names ⊆ t.names := by
  intro name hname
  rw [← names_shown t, h, mem_names_foldl_add]
  exact .inl hname

/-- A member that was taken over on the way from `cs`, under a name that was not shown before. -/
structure Takes (u : HeaderUnit) (s : Surface) (cs : List ClassEntity) (x : TakenMember) :
    Prop where
  mem : x.member ∈ x.source.members
  isOpen : x.member.IsOpen
  isNew : ∃ name, x.member.name? = some name ∧ name ∉ s.names
  reached : ∃ c ∈ cs, Relation.ReflTransGen u.Derives c x.source

theorem takes_of_mem_inheritable {c : ClassEntity} (hm : m ∈ s.inheritable c) :
    Takes u s (c :: cs) ⟨c, m⟩ := by
  obtain ⟨hmem, htaken⟩ := List.mem_filter.1 hm
  obtain ⟨hopen, hnew⟩ := of_mem_inheritable hm
  cases hname : m.name? with
  | none => simp [hname] at htaken
  | some name => exact ⟨hmem, hopen, ⟨name, hname, hnew name hname⟩, c, .head _, .refl⟩

/-- What is taken over later is taken over under a name that was not shown earlier either. -/
theorem Takes.of_names_subset {ds : List ClassEntity} {x : TakenMember} (h : Takes u t ds x)
    (hgrows : s.names ⊆ t.names)
    (hreached : ∀ d ∈ ds, Relation.ReflTransGen u.Derives d x.source →
      ∃ c ∈ cs, Relation.ReflTransGen u.Derives c x.source) : Takes u s cs x := by
  obtain ⟨hmem, hopen, ⟨name, hname, hnew⟩, d, hd, hreach⟩ := h
  exact ⟨hmem, hopen, ⟨name, hname, fun hs => hnew (hgrows hs)⟩, hreached d hd hreach⟩

/-- What folding in classes adds are members of these classes and of the bases behind them, none
of them under a name that was shown before. -/
theorem Folds.exists_taken (h : Folds u s cs t) : ∃ taken : List TakenMember,
    t.shown = (taken.map TakenMember.member).foldl add s.shown ∧ ∀ x ∈ taken, Takes u s cs x := by
  induction h with
  | done => exact ⟨[], rfl, by simp⟩
  | seen _ _ ih =>
    obtain ⟨taken, ht, htaken⟩ := ih
    exact ⟨taken, ht, fun x hx => (htaken x hx).of_names_subset (List.Subset.refl _)
      fun d hd hreach => ⟨d, .tail _ hd, hreach⟩⟩
  | @fresh s t r c cs _ _ _ ihbases ihrest =>
    obtain ⟨behind, ht, hbehind⟩ := ihbases
    obtain ⟨rest, hr, hrest⟩ := ihrest
    have habsorb : (s.absorb c).shown = (s.inheritable c).foldl add s.shown :=
      shown_foldl_add _ _
    have hgrows : s.names ⊆ (s.absorb c).names :=
      names_subset_of_shown_eq habsorb
    -- The class itself comes first, then what stands behind it, then the classes after it.
    refine ⟨(s.inheritable c).map (⟨c, ·⟩) ++ behind ++ rest, ?_, fun x hx => ?_⟩
    · simp only [hr, ht, habsorb, List.map_append, List.map_map, List.foldl_append,
        Function.comp_def, List.map_id']
    · rcases List.mem_append.1 hx with hx | hx
      · rcases List.mem_append.1 hx with hx | hx
        · obtain ⟨m, hm, rfl⟩ := List.mem_map.1 hx
          exact takes_of_mem_inheritable hm
        · refine (hbehind x hx).of_names_subset hgrows fun b hb hreach => ⟨c, .head _, ?_⟩
          exact hreach.head (HeaderUnit.derives_of_mem_basesOf hb)
      · exact (hrest x hx).of_names_subset
          (List.Subset.trans hgrows (names_subset_of_shown_eq ht))
          fun d hd hreach => ⟨d, .tail _ hd, hreach⟩

end Surface

/-! ## Exported classes -/

namespace HeaderUnit

variable {u : HeaderUnit} {p : ExportPolicy} {m : ExportModel}

/-- An exported class shows what it declares, and behind it what was taken over. -/
theorem exists_taken_exportClass (u : HeaderUnit) (p : ExportPolicy) (owner : ExportMark)
    (native exportName : String) (c : ClassEntity) : ∃ taken : List TakenMember,
    (u.exportClass p owner native exportName c).Shows
      (c.members.filter (p.shows owner) ++ taken.map TakenMember.member) ∧
    ∀ x ∈ taken, Surface.Takes u (.own p owner c) (u.foldedBases p c) x := by
  obtain ⟨taken, hshown, htaken⟩ := (u.folds_surface p owner c).exists_taken
  have hown : (Surface.own p owner c).shown = (c.members.filter (p.shows owner)).foldl .add {} :=
    Surface.shown_foldl_add _ _
  rw [hown, ← List.foldl_append] at hshown
  refine ⟨taken, ⟨?_, ?_⟩, htaken⟩
  · rw [methods_exportClass, ← hshown]
    rfl
  · rw [fields_exportClass, ← hshown]
    rfl

/-- **Members are taken over under new names.** Every exported class shows the members that it
declares, as far as the policy shows them, and behind them members taken over from other classes
that everyone may use. None of these has the name of a member that the class declares and shows. -/
theorem exportModel_takes_new_names (u : HeaderUnit) (p : ExportPolicy) (m : ExportModel)
    (hm : u.exportModel p = .ok m) : ∀ e ∈ m.allClasses,
    ∃ c ∈ u.concreteClasses, ∃ owner native exportName,
      e = u.exportClass p owner native exportName c ∧
      ∃ taken : List TakenMember,
        e.Shows (c.members.filter (p.shows owner) ++ taken.map TakenMember.member) ∧
        ∀ x ∈ taken, x.member ∈ x.source.members ∧ x.member.IsOpen ∧
          ∃ name, x.member.name? = some name ∧
            ∀ d ∈ c.members, d.name? = some name → p.shows owner d = false := by
  intro e he
  obtain ⟨c, hc, owner, native, exportName, rfl⟩ := mem_allClasses_exportModel hm he
  obtain ⟨taken, hshows, htaken⟩ := exists_taken_exportClass u p owner native exportName c
  refine ⟨c, hc, owner, native, exportName, rfl, taken, hshows, fun x hx => ?_⟩
  obtain ⟨hmem, hopen, ⟨name, hname, hnew⟩, -⟩ := htaken x hx
  refine ⟨hmem, hopen, name, hname, fun d hd hdname => ?_⟩
  by_contra hshown
  refine hnew (Surface.mem_names_foldl_add.2 (.inr ⟨d, List.mem_filter.2 ⟨hd, ?_⟩, hdname⟩))
  simpa using hshown

/-! ### A base with a private base -/

namespace Shadowing

/-- A field without a mark. -/
def field (name : String) (access : Access) : Member :=
  .field ⟨name, access, .fundamental "int", false, false, none, .unmarked, none⟩

def root : ClassEntity :=
  ⟨⟨["Root"]⟩, .structKind, [], [field "size" .isPublic], .unmarked, none⟩

/-- A class with a private base. -/
def base : ClassEntity :=
  ⟨⟨["Base"]⟩, .structKind, [⟨⟨["Root"]⟩, .named "Root", .isPrivate, false⟩],
    [field "count" .isPublic, field "id" .isPublic], .unmarked, none⟩

/-- A class that declares a name of its base again, for itself only. -/
def derived : ClassEntity :=
  ⟨⟨["Derived"]⟩, .classKind, [⟨⟨["Base"]⟩, .named "Base", .isPublic, false⟩],
    [field "count" .isPrivate, field "total" .isPublic], .unmarked, none⟩

def unit : HeaderUnit :=
  { files := [], systemIncludes := [], aliases := {}, diagnostics := []
    entities := [.ofClass root, .ofClass base, .ofClass derived] }

/-- Only the last class is asked for. -/
def policy : ExportPolicy := .explicit ["Derived"]

end Shadowing

open Shadowing in
theorem exportModel_takes_new_names_shadowing : ∃ m, Shadowing.unit.exportModel policy = .ok m ∧
    m.allClasses.map ExportedClass.memberNames = [["total", "count", "id", "size"]] ∧
    ∀ e ∈ m.allClasses, ∃ c ∈ Shadowing.unit.concreteClasses, ∃ owner,
      ∃ taken : List TakenMember,
        e.Shows (c.members.filter (policy.shows owner) ++ taken.map TakenMember.member) := by
  refine ⟨_, rfl, by decide, fun e he => ?_⟩
  obtain ⟨c, hc, owner, _, _, -, taken, hshows, -⟩ :=
    exportModel_takes_new_names Shadowing.unit policy _ rfl e he
  exact ⟨c, hc, owner, taken, hshows⟩

open Shadowing in
/-- A name that a class declares for itself only is taken over from its base. -/
theorem takes_name_of_private_member : ∃ m e, Shadowing.unit.exportModel policy = .ok m ∧
    e ∈ m.allClasses ∧ e.name = derived.name ∧ field "count" .isPrivate ∈ derived.members ∧
    ∃ f ∈ e.fields, f.name = "count" ∧ Member.field f ∉ derived.members ∧
      Member.field f ∈ base.members := by
  refine ⟨_, Shadowing.unit.exportClass policy .unmarked "Derived" "Derived" derived, rfl, ?_⟩
  decide +kernel

/-- **Members are taken over from bases.** What an exported class shows besides its own members
comes from classes of the unit that are reached through public bases only, or past a base that is
not public, which a class behind a public base lists. -/
theorem exportModel_takes_from_bases (u : HeaderUnit) (p : ExportPolicy) (m : ExportModel)
    (hm : u.exportModel p = .ok m) : ∀ e ∈ m.allClasses,
    ∃ c ∈ u.concreteClasses, ∃ owner native exportName,
      e = u.exportClass p owner native exportName c ∧
      ∃ taken : List TakenMember,
        e.Shows (c.members.filter (p.shows owner) ++ taken.map TakenMember.member) ∧
        ∀ x ∈ taken, x.member ∈ x.source.members ∧ x.source ∈ u.classes ∧
          (Relation.TransGen u.DerivesPublicly c x.source ∨ u.ReachesPast c x.source) := by
  intro e he
  obtain ⟨c, hc, owner, native, exportName, rfl⟩ := mem_allClasses_exportModel hm he
  obtain ⟨taken, hshows, htaken⟩ := exists_taken_exportClass u p owner native exportName c
  refine ⟨c, hc, owner, native, exportName, rfl, taken, hshows, fun x hx => ?_⟩
  obtain ⟨hmem, -, -, b, hb, hreach⟩ := htaken x hx
  have hfirst : Relation.TransGen u.DerivesPublicly c b :=
    .single (derivesPublicly_of_mem_foldedBases hb)
  refine ⟨hmem, ?_, reaches_of_reflTransGen hfirst hreach⟩
  rcases hreach.cases_tail with rfl | ⟨a, -, r, -, hsource⟩
  · exact mem_classes_of_mem_foldedBases hb
  · exact mem_classes_of_classNamed? hsource

open Shadowing in
theorem exportModel_takes_from_bases_shadowing : ∃ m, Shadowing.unit.exportModel policy = .ok m ∧
    m.allClasses.map ExportedClass.memberNames = [["total", "count", "id", "size"]] ∧
    ∀ e ∈ m.allClasses, ∃ c ∈ Shadowing.unit.concreteClasses, ∃ owner,
      ∃ taken : List TakenMember,
        e.Shows (c.members.filter (policy.shows owner) ++ taken.map TakenMember.member) ∧
        ∀ x ∈ taken, x.source ∈ Shadowing.unit.classes := by
  refine ⟨_, rfl, by decide, fun e he => ?_⟩
  obtain ⟨c, hc, owner, _, _, -, taken, hshows, htaken⟩ :=
    exportModel_takes_from_bases Shadowing.unit policy _ rfl e he
  exact ⟨c, hc, owner, taken, hshows, fun x hx => (htaken x hx).2.1⟩

open Shadowing in
/-- A member is taken over from the private base of a base. -/
theorem takes_past_private_base : ∃ m e, Shadowing.unit.exportModel policy = .ok m ∧
    e ∈ m.allClasses ∧ e.name = derived.name ∧
    (∃ f ∈ e.fields, ∀ c ∈ Shadowing.unit.classes, Member.field f ∈ c.members ↔ c = root) ∧
    ¬Relation.TransGen Shadowing.unit.DerivesPublicly derived root := by
  refine ⟨_, Shadowing.unit.exportClass policy .unmarked "Derived" "Derived" derived, rfl,
    by decide +kernel, by decide, by decide +kernel, fun hreach => ?_⟩
  -- The only public base is the class in between, and it has no public base itself.
  have hbase (c : ClassEntity) (h : Shadowing.unit.DerivesPublicly derived c) : c = base := by
    obtain ⟨r, hr, -, hc⟩ := h
    obtain rfl := List.mem_singleton.1 hr
    exact (Option.some_inj.1 hc).symm
  have hclosed (c : ClassEntity) : ¬Shadowing.unit.DerivesPublicly base c := by
    rintro ⟨r, hr, hpublic, -⟩
    obtain rfl := List.mem_singleton.1 hr
    cases hpublic
  obtain ⟨b, hb, hrest⟩ := Relation.TransGen.head'_iff.1 hreach
  obtain rfl := hbase b hb
  rcases hrest.cases_head with heq | ⟨c, hc, -⟩
  · exact absurd heq (by decide)
  · exact hclosed c hc

end HeaderUnit
end Bindery
