import Bindery.Proofs.Export.Folding
import Bindery.Proofs.OrderedMap

/-!
# The names and members of exported classes

No class declares one name as two fields, or as a method and a field. Then no exported class has
two attributes of one name, whatever is folded into it. What is exported is public and not hidden.

## Main definitions

* `Member.Compatible`: two members can stand in one class.
* `Surface.Valid`: methods stand under their names, and everything that is shown may be shown.
* `ExportedClass.Sound`: the same of an exported class.

## Main statements

* `Surface.Folds.valid`, `Surface.Folds.nodup_names`: what folding in bases keeps true.
* `HeaderUnit.exportModel_sound`: every export model.
-/
namespace Bindery

/-! ## Members -/

namespace Member

/-- Two members can stand in one class: only methods share a name. -/
def Compatible : Member → Member → Prop
  | field f, field g => f.name ≠ g.name
  | field f, method m => f.name ≠ m.name
  | method m, field f => m.name ≠ f.name
  | _, _ => True

instance : DecidableRel Compatible
  | field f, field g => inferInstanceAs (Decidable (f.name ≠ g.name))
  | field f, method m => inferInstanceAs (Decidable (f.name ≠ m.name))
  | method m, field f => inferInstanceAs (Decidable (m.name ≠ f.name))
  | method _, method _ | field _, constructor _ | method _, constructor _ =>
    inferInstanceAs (Decidable True)
  | constructor _, _ => inferInstanceAs (Decidable True)

/-- Everyone may use the member, and it is not hidden. -/
def IsOpen (m : Member) : Prop := m.access = .isPublic ∧ m.mark ≠ .hidden

end Member

/-- What a policy shows of a class is open. -/
theorem ExportPolicy.isOpen_of_shows {p : ExportPolicy} {owner : ExportMark} {m : Member}
    (h : p.shows owner m = true) : m.IsOpen := by
  obtain ⟨hpublic, hadmits⟩ := (Bool.and_eq_true _ _).mp h
  refine ⟨by simpa [Member.isPublic] using hpublic, fun hhidden => ?_⟩
  rw [hhidden] at hadmits
  cases p <;> simp [ExportPolicy.admits] at hadmits

/-! ## Surfaces -/

namespace Surface

variable {u : HeaderUnit} {s t : Surface} {m n : Member} {base : ClassEntity}

/-! ### What is shown -/

/-- Methods stand under their names, each name once, and everything that is shown is open. -/
structure Valid (s : Surface) : Prop where
  nodup_keys : s.methods.keys.Nodup
  methods : ∀ name overloads, (name, overloads) ∈ s.methods.entries →
    ∀ m ∈ overloads, m.name = name ∧ (Member.method m).IsOpen
  fields : ∀ f ∈ s.fields, (Member.field f).IsOpen

/-- One more open member. -/
theorem Valid.add (hs : s.Valid) (hopen : m.IsOpen) : (s.add m).Valid := by
  cases m with
  | constructor k => exact hs
  | method m =>
    have hkeys : (s.methods.push m.name m).keys.Nodup := OrderedMap.nodup_keys_insert hs.nodup_keys
    refine ⟨hkeys, fun name overloads hgroup => ?_, hs.fields⟩
    rw [Surface.add, OrderedMap.mem_entries_iff hkeys, OrderedMap.find?_push] at hgroup
    split at hgroup
    · next hname =>
      subst hname
      obtain rfl := Option.some_inj.1 hgroup
      -- The overload is new, or it stood there before.
      intro n hn
      rcases List.mem_append.1 hn with hn | hn
      · cases hold : s.methods.find? m.name with
        | none => simp [hold] at hn
        | some old =>
          rw [hold] at hn
          exact hs.methods _ _ (OrderedMap.mem_entries_of_find? hold) n hn
      · obtain rfl := List.mem_singleton.1 hn
        exact ⟨rfl, hopen⟩
    · exact hs.methods _ _ (OrderedMap.mem_entries_of_find? hgroup)
  | field f =>
    refine ⟨hs.nodup_keys, hs.methods, fun g hg => ?_⟩
    rcases List.mem_append.1 hg with hg | hg
    · exact hs.fields g hg
    · obtain rfl := List.mem_singleton.1 hg
      exact hopen

theorem Valid.foldl_add {ms : List Member} (hs : s.Valid) (hopen : ∀ m ∈ ms, m.IsOpen) :
    (ms.foldl Surface.add s).Valid := by
  induction ms generalizing s with
  | nil => exact hs
  | cons m ms ih => exact ih (hs.add (hopen m (.head _))) fun n hn => hopen n (.tail _ hn)

theorem valid_own (p : ExportPolicy) (owner : ExportMark) (c : ClassEntity) :
    (own p owner c).Valid :=
  Valid.foldl_add ⟨List.nodup_nil, by simp, by simp⟩ fun _ hm =>
    ExportPolicy.isOpen_of_shows (List.mem_filter.1 hm).2

/-- What is taken over from a base is open, and its name is new. -/
theorem of_mem_inheritable (hm : m ∈ s.inheritable base) :
    m.IsOpen ∧ ∀ name, m.name? = some name → name ∉ s.names := by
  have h := (List.mem_filter.1 hm).2
  simp only [Bool.and_eq_true, Member.isPublic, decide_eq_true_eq] at h
  exact ⟨h.1, fun name hname => by simpa [hname] using h.2⟩

theorem Valid.absorb (hs : s.Valid) (base : ClassEntity) : (s.absorb base).Valid := by
  have hnoted : Valid { s with visited := s.visited ++ [base.name] } :=
    ⟨hs.nodup_keys, hs.methods, hs.fields⟩
  exact hnoted.foldl_add fun _ hm => (of_mem_inheritable hm).1

/-- Folding in bases keeps a surface valid. -/
theorem Folds.valid {cs : List ClassEntity} (h : Folds u s cs t) (hs : s.Valid) : t.Valid := by
  induction h with
  | done => exact hs
  | seen _ _ ih => exact ih hs
  | fresh _ _ _ ihbases ihrest => exact ihrest (ihbases (hs.absorb _))

/-! ### Names -/

/-- The member can be shown besides what is shown already. -/
def Fits (s : Surface) : Member → Prop
  | .constructor _ => True
  | .method m => m.name ∉ s.fields.map (·.name)
  | .field f => f.name ∉ s.names

theorem fits_of_not_mem_names (h : ∀ name, m.name? = some name → name ∉ s.names) : s.Fits m := by
  cases m with
  | constructor k => trivial
  | method m => exact fun hmem => h m.name rfl (List.mem_append_right _ hmem)
  | field f => exact h f.name rfl

/-- What is compatible with a member fits after it. -/
theorem Fits.add (h : s.Fits n) (hcompatible : m.Compatible n) : (s.add m).Fits n := by
  cases m with
  | constructor k => exact h
  | method m =>
    cases n with
    | constructor k => trivial
    | method n => exact h
    | field f =>
      simp only [Fits, names, List.mem_append, not_or, Surface.add] at h ⊢
      refine ⟨fun hmem => ?_, h.2⟩
      rcases OrderedMap.mem_keys_insert.1 hmem with hname | hmem
      · exact hcompatible hname.symm
      · exact h.1 hmem
  | field g =>
    cases n with
    | constructor k => trivial
    | method n =>
      simp only [Fits, Surface.add, List.map_append, List.mem_append, not_or] at h ⊢
      exact ⟨h, by simpa using Ne.symm hcompatible⟩
    | field f =>
      simp only [Fits, names, Surface.add, List.map_append, List.mem_append, not_or] at h ⊢
      exact ⟨h.1, h.2, by simpa using Ne.symm hcompatible⟩

theorem nodup_names_add (hs : s.names.Nodup) (hfits : s.Fits m) : (s.add m).names.Nodup := by
  cases m with
  | constructor k => exact hs
  | method m =>
    obtain ⟨hkeys, hfields, hdisjoint⟩ := List.nodup_append.1 hs
    refine List.nodup_append.2 ⟨OrderedMap.nodup_keys_insert hkeys, hfields,
      fun key hkey name hname => ?_⟩
    rcases OrderedMap.mem_keys_insert.1 hkey with rfl | hkey
    · exact fun heq => hfits (heq ▸ hname)
    · exact hdisjoint key hkey name hname
  | field f =>
    have happend : (s.add (.field f)).names = s.names ++ [f.name] := by simp [names, Surface.add]
    rw [happend, List.nodup_append]
    refine ⟨hs, by simp, fun name hname last hlast heq => hfits ?_⟩
    rwa [← List.mem_singleton.1 hlast, ← heq]

/-- Members that can stand together, each of which fits. -/
theorem nodup_names_foldl_add {ms : List Member} (hs : s.names.Nodup)
    (hms : ms.Pairwise Member.Compatible) (hfits : ∀ m ∈ ms, s.Fits m) :
    (ms.foldl Surface.add s).names.Nodup := by
  induction ms generalizing s with
  | nil => exact hs
  | cons m ms ih =>
    obtain ⟨hm, hms⟩ := List.pairwise_cons.1 hms
    exact ih (nodup_names_add hs (hfits m (.head _))) hms
      fun n hn => (hfits n (.tail _ hn)).add (hm n hn)

theorem nodup_names_own (p : ExportPolicy) (owner : ExportMark) {c : ClassEntity}
    (hc : c.members.Pairwise Member.Compatible) : (own p owner c).names.Nodup := by
  refine nodup_names_foldl_add List.nodup_nil (hc.filter _) fun m _ => ?_
  exact fits_of_not_mem_names fun name _ => List.not_mem_nil

theorem nodup_names_absorb (hs : s.names.Nodup)
    (hbase : base.members.Pairwise Member.Compatible) : (s.absorb base).names.Nodup :=
  nodup_names_foldl_add hs (hbase.filter _) fun _ hm =>
    fits_of_not_mem_names (of_mem_inheritable hm).2

/-- Where the members of each class can stand together, names stay different. -/
theorem Folds.nodup_names {cs : List ClassEntity} (h : Folds u s cs t)
    (hunit : ∀ c ∈ u.classes, c.members.Pairwise Member.Compatible)
    (hcs : ∀ c ∈ cs, c ∈ u.classes) (hs : s.names.Nodup) : t.names.Nodup := by
  induction h with
  | done => exact hs
  | seen _ _ ih => exact ih (fun c hc => hcs c (.tail _ hc)) hs
  | fresh _ _ _ ihbases ihrest =>
    have habsorb := nodup_names_absorb hs (hunit _ (hcs _ (.head _)))
    have hbases := ihbases (fun _ => HeaderUnit.mem_classes_of_mem_basesOf) habsorb
    exact ihrest (fun c hc => hcs c (.tail _ hc)) hbases

/-- The methods that are shown, by name. -/
def groups (s : Surface) : List MethodGroup :=
  s.methods.entries.map fun (name, overloads) => ⟨name, overloads⟩

@[simp] theorem map_name_groups (s : Surface) : s.groups.map (·.name) = s.methods.keys := by
  simp [groups, OrderedMap.keys, Function.comp_def]

end Surface

/-! ## Classes -/

/-- Names of attributes differ, overloads stand under their names, and everything that is offered
is open. -/
structure ExportedClass.Sound (e : ExportedClass) : Prop where
  nodup : e.memberNames.Nodup
  constructors : ∀ k ∈ e.constructors, (Member.constructor k).IsOpen
  overloads : ∀ g ∈ e.methods, ∀ m ∈ g.overloads, m.name = g.name ∧ (Member.method m).IsOpen
  fields : ∀ f ∈ e.fields, (Member.field f).IsOpen

/-- The declaration as a class. -/
def Concrete.class? : Concrete → Option ClassEntity
  | ofClass c => some c
  | ofFunction _ => none

namespace HeaderUnit

variable {u : HeaderUnit} {p : ExportPolicy} {c : ClassEntity}

/-- Every class of the unit, those behind instantiations last. -/
def concreteClasses (u : HeaderUnit) : List ClassEntity :=
  u.classes ++ u.templates.flatMap fun t => t.instantiations.filterMap (·.entity.class?)

theorem methods_exportClass (u : HeaderUnit) (p : ExportPolicy) (owner : ExportMark)
    (native exportName : String) (c : ClassEntity) :
    (u.exportClass p owner native exportName c).methods = (u.surface p owner c).groups := rfl

theorem fields_exportClass (u : HeaderUnit) (p : ExportPolicy) (owner : ExportMark)
    (native exportName : String) (c : ClassEntity) :
    (u.exportClass p owner native exportName c).fields = (u.surface p owner c).fields := rfl

theorem isOpen_of_mem_constructors {owner : ExportMark} {native exportName : String}
    {k : Constructor} (hk : k ∈ (u.exportClass p owner native exportName c).constructors) :
    (Member.constructor k).IsOpen := by
  simp only [exportClass] at hk
  split at hk
  · cases hk
  · obtain ⟨m, hm, hmk⟩ := List.mem_filterMap.1 hk
    cases m with
    | constructor j =>
      obtain rfl := Option.some_inj.1 hmk
      exact ExportPolicy.isOpen_of_shows (List.mem_filter.1 hm).2
    | method _ | field _ => cases hmk

theorem surface_valid (u : HeaderUnit) (p : ExportPolicy) (owner : ExportMark) (c : ClassEntity) :
    (u.surface p owner c).Valid :=
  (u.folds_surface p owner c).valid (Surface.valid_own p owner c)

theorem exportClass_sound (hunit : ∀ c ∈ u.classes, c.members.Pairwise Member.Compatible)
    (hc : c.members.Pairwise Member.Compatible) (owner : ExportMark) (native exportName : String) :
    (u.exportClass p owner native exportName c).Sound := by
  have hvalid := u.surface_valid p owner c
  refine ⟨?_, fun k => isOpen_of_mem_constructors, fun g hg => ?_, hvalid.fields⟩
  · rw [ExportedClass.memberNames, methods_exportClass, fields_exportClass,
      Surface.map_name_groups]
    exact (u.folds_surface p owner c).nodup_names hunit
      (fun _ => mem_classes_of_mem_foldedBases) (Surface.nodup_names_own p owner hc)
  · rw [methods_exportClass] at hg
    obtain ⟨⟨name, overloads⟩, hentry, rfl⟩ := List.mem_map.1 hg
    exact hvalid.methods name overloads hentry

end HeaderUnit

/-! ## Models -/

/-- Classes, functions, templates and instantiations of the unit are offered, and none of them is
hidden. An instantiation goes by the mark that it got from its specialisation or its template. -/
structure ExportModel.LeavesOutHidden (u : HeaderUnit) (p : ExportPolicy) (m : ExportModel) :
    Prop where
  classes : ∃ shown : List ClassEntity, shown.Sublist u.classes ∧ (∀ c ∈ shown, c.mark ≠ .hidden) ∧
    m.classes = shown.map fun c => u.exportClass p c.mark c.name.text c.name.name c
  functions : ∀ g ∈ m.functions, ∀ f ∈ g.overloads, f ∈ u.functions ∧ f.mark ≠ .hidden
  templates : ∀ e ∈ m.templates, ∃ t ∈ u.templates, t.mark ≠ .hidden ∧
    ∃ shown : List Instantiation, shown.Sublist t.instantiations ∧ (∀ i ∈ shown, i.mark ≠ .hidden) ∧
      e = ⟨t.name, t.isClassTemplate, shown.map (u.exportInstantiation p)⟩

theorem ExportPolicy.ne_hidden_of_admits {p : ExportPolicy} {mark : ExportMark}
    (h : p.admits mark = true) : mark ≠ .hidden := by
  rintro rfl
  cases p <;> simp [ExportPolicy.admits] at h

namespace HeaderUnit

variable {u : HeaderUnit} {p : ExportPolicy} {m : ExportModel}

theorem overloads_exportModel (hm : u.exportModel p = .ok m) {g : ExportedFunction}
    (hg : g ∈ m.functions) : g.overloads = (u.functions.filter fun f => p.admits f.mark).filter
      (·.name.name = g.exportName) := by
  unfold exportModel at hm
  split at hm
  · cases hm
  · cases hm
    obtain ⟨⟨name, fs⟩, hentry, rfl⟩ := List.mem_map.1 hg
    exact (OrderedMap.mem_entries_groupBy.1 hentry).1

theorem exportTemplate?_eq_some {t : TemplateEntity} {e : ExportedTemplate}
    (h : u.exportTemplate? p t = some e) : t.mark ≠ .hidden ∧ e = ⟨t.name, t.isClassTemplate,
      (t.instantiations.filter fun i => p.admits i.mark).map (u.exportInstantiation p)⟩ := by
  unfold exportTemplate? at h
  split at h
  · cases h
  · next hmark =>
    split at h
    · cases h
    · exact ⟨hmark, (Option.some_inj.1 h).symm⟩

theorem leavesOutHidden (hm : u.exportModel p = .ok m) : m.LeavesOutHidden u p := by
  have hfunctions := fun g => overloads_exportModel hm (g := g)
  unfold exportModel at hm
  split at hm
  · cases hm
  · cases hm
    refine ⟨⟨u.selected p, List.filter_sublist, fun c hc => ?_, rfl⟩, fun g hg f hf => ?_,
      fun e he => ?_⟩
    · have hselects := (List.mem_filter.1 hc).2
      simp only [ExportPolicy.selects, Bool.and_eq_true, decide_eq_true_eq] at hselects
      exact hselects.1
    · rw [hfunctions g hg] at hf
      obtain ⟨hf, hadmits⟩ := List.mem_filter.1 (List.mem_filter.1 hf).1
      exact ⟨hf, ExportPolicy.ne_hidden_of_admits hadmits⟩
    · obtain ⟨t, ht, hte⟩ := List.mem_filterMap.1 he
      obtain ⟨hmark, rfl⟩ := exportTemplate?_eq_some hte
      exact ⟨t, ht, hmark, _, List.filter_sublist,
        fun i hi => ExportPolicy.ne_hidden_of_admits (List.mem_filter.1 hi).2, rfl⟩

/-- Every exported class, also behind an instantiation, exports a class of the unit. -/
theorem mem_allClasses_exportModel (hm : u.exportModel p = .ok m) {e : ExportedClass}
    (he : e ∈ m.allClasses) : ∃ c ∈ u.concreteClasses, ∃ owner native exportName,
      e = u.exportClass p owner native exportName c := by
  obtain ⟨⟨shown, hshown, -, hclasses⟩, -, htemplates⟩ := leavesOutHidden hm
  rcases List.mem_append.1 he with he | he
  · rw [hclasses] at he
    obtain ⟨c, hc, rfl⟩ := List.mem_map.1 he
    exact ⟨c, List.mem_append_left _ (hshown.subset hc), _, _, _, rfl⟩
  · obtain ⟨t', ht', he⟩ := List.mem_flatMap.1 he
    obtain ⟨t, ht, -, shown, hshown, -, rfl⟩ := htemplates t' ht'
    obtain ⟨i', hi', he⟩ := List.mem_filterMap.1 he
    obtain ⟨i, hi, rfl⟩ := List.mem_map.1 hi'
    cases hentity : i.entity with
    | ofFunction f => simp [exportInstantiation, hentity, ExportedItem.class?] at he
    | ofClass c =>
      simp only [exportInstantiation, hentity, ExportedItem.class?, Option.some_inj] at he
      refine ⟨c, List.mem_append_right _ (List.mem_flatMap.2 ⟨t, ht, ?_⟩), _, _, _, he.symm⟩
      exact List.mem_filterMap.2 ⟨i, hshown.subset hi, by rw [hentity]; rfl⟩

/-- **What a unit exports is in order.** Where no class declares one name as two fields, or as a
method and a field, the attributes of every exported class differ in name, and only what is open
is exported. The members are those that folding in the bases comes to, and it comes to an end
whatever the bases are. Nothing that is hidden is exported. -/
theorem exportModel_sound (u : HeaderUnit) (p : ExportPolicy) (m : ExportModel)
    (hnames : ∀ c ∈ u.concreteClasses, c.members.Pairwise Member.Compatible)
    (hm : u.exportModel p = .ok m) :
    (∀ e ∈ m.allClasses, e.Sound ∧ ∃ c ∈ u.concreteClasses, ∃ owner surface,
      Surface.Folds u (.own p owner c) (u.foldedBases p c) surface ∧
      e.methods = surface.groups ∧ e.fields = surface.fields) ∧
    m.LeavesOutHidden u p := by
  refine ⟨fun e he => ?_, leavesOutHidden hm⟩
  obtain ⟨c, hc, owner, native, exportName, rfl⟩ := mem_allClasses_exportModel hm he
  have hunit := fun c hc => hnames c (List.mem_append_left _ hc)
  exact ⟨exportClass_sound hunit (hnames c hc) owner native exportName,
    c, hc, owner, _, u.folds_surface p owner c, rfl, rfl⟩

/-- Two bases with a base in common, which derives from both of them in turn. -/
def entangled : HeaderUnit :=
  let base (name : String) : BaseRef := ⟨⟨[name]⟩, .named name, .isPublic, false⟩
  let field (name : String) : Member :=
    .field ⟨name, .isPublic, .fundamental "int", false, false, none, .unmarked, none⟩
  let method (name : String) : Member :=
    .method ⟨name, .isPublic, ⟨[], .fundamental "int"⟩, true, false, false, false, .unmarked, none⟩
  { files := [], systemIncludes := [], aliases := {}, diagnostics := []
    entities :=
      [.ofClass ⟨⟨["Bottom"]⟩, .structKind, [base "Left", base "Right"], [], .exported, none⟩,
       .ofClass ⟨⟨["Left"]⟩, .structKind, [base "Top"], [method "id"], .unmarked, none⟩,
       .ofClass ⟨⟨["Right"]⟩, .structKind, [base "Top"], [field "id"], .unmarked, none⟩,
       .ofClass ⟨⟨["Top"]⟩, .structKind, [base "Left", base "Right"], [field "size"], .unmarked,
         none⟩] }

theorem exportModel_sound_entangled : ∃ m,
    (∀ c ∈ entangled.concreteClasses, c.members.Pairwise Member.Compatible) ∧
    entangled.exportModel .annotated = .ok m ∧
    m.allClasses.map ExportedClass.memberNames = [["id", "size"]] ∧
    ∀ e ∈ m.allClasses, e.Sound := by
  refine ⟨_, by decide, rfl, by decide, fun e he => ?_⟩
  exact ((exportModel_sound entangled .annotated _ (by decide) rfl).1 e he).1

end HeaderUnit
end Bindery
