import Bindery.Header
import Bindery.Proofs.Export.Inheritance
import Bindery.Proofs.Fallible
import Bindery.Proofs.Registry
import Bindery.Survey.Walk

/-!
# Which exported classes derive from which

An exported class names the public bases that are exported as well, so in the registry of a model
a class is below another exactly when public bases lead there and every class on the way is
exported. The way ends at a base that is not exported: its members are folded into the class, and
what it derives from in turn is not named by anyone.

## Main definitions

* `ExportModel.OneAncestry`: classes with one native name list the same bases.
* `HeaderUnit.DerivesExported`: one step from a class to an exported public base.

## Main statements

* `HeaderUnit.isSubclass_exportModel_iff`: what the registry of an export model knows.
-/
namespace Bindery

/-- Classes that go by one native name list the same bases. -/
def ExportModel.OneAncestry (m : ExportModel) : Prop :=
  ∀ e ∈ m.allClasses, ∀ e' ∈ m.allClasses, e.native = e'.native → e.bases = e'.bases

instance (m : ExportModel) : Decidable m.OneAncestry :=
  inferInstanceAs (Decidable (∀ e ∈ m.allClasses, ∀ e' ∈ m.allClasses, _ → _))

/-- Where bases go by the native name, the registry has the bases of each class. -/
theorem Registry.basesOf_ofModel {m : ExportModel} (hone : m.OneAncestry) {e : ExportedClass}
    (he : e ∈ m.allClasses) : (Registry.ofModel m).basesOf e.native = e.bases := by
  have hkey : e.native ∈ (Registry.ofModel m).keys := by
    rw [Registry.ofModel, OrderedMap.mem_keys_ofList, List.map_map]
    exact List.mem_map.2 ⟨e, he, rfl⟩
  obtain ⟨info, hinfo⟩ := OrderedMap.mem_keys_iff.1 hkey
  obtain ⟨e', he', hpair⟩ := List.mem_map.1
    (OrderedMap.mem_entries_ofList (OrderedMap.mem_entries_of_find? hinfo))
  obtain ⟨hnative, hbases⟩ := Prod.mk.injEq _ _ _ _ ▸ hpair
  rw [Registry.basesOf, hinfo, Option.map_some, Option.getD_some, ← hbases]
  exact hone e' he' e he hnative

namespace HeaderUnit

variable {u : HeaderUnit} {p : ExportPolicy} {m : ExportModel} {b c d : ClassEntity}

/-- The class lists a public base, and the base is exported. -/
def DerivesExported (u : HeaderUnit) (p : ExportPolicy) (c b : ClassEntity) : Prop :=
  b ∈ u.selected p ∧ ∃ r ∈ c.bases, r.isPublic = true ∧ r.name = b.name

theorem mem_bases_exportClass {owner : ExportMark} {native exportName name : String} :
    name ∈ (u.exportClass p owner native exportName c).bases ↔
      ∃ b, u.DerivesExported p c b ∧ b.name.text = name := by
  constructor
  · intro hname
    obtain ⟨r, hr, hname⟩ := List.mem_map.1 hname
    obtain ⟨hr, hlisted⟩ := List.mem_filter.1 hr
    obtain ⟨hpublic, hoffers⟩ := (Bool.and_eq_true _ _).mp hlisted
    obtain ⟨b, hb, hbname⟩ := List.any_eq_true.1 hoffers
    have hbname : b.name = r.name := of_decide_eq_true hbname
    exact ⟨b, ⟨hb, r, hr, hpublic, hbname.symm⟩, by rw [hbname]; exact hname⟩
  · rintro ⟨b, ⟨hb, r, hr, hpublic, hbname⟩, rfl⟩
    refine List.mem_map.2 ⟨r, List.mem_filter.2 ⟨hr, ?_⟩, by rw [hbname]⟩
    exact (Bool.and_eq_true _ _).mpr ⟨hpublic, List.any_eq_true.2 ⟨b, hb, by simp [hbname]⟩⟩

/-- A class that the policy selects is in the model. -/
theorem exportClass_mem_allClasses (hm : u.exportModel p = .ok m) (hc : c ∈ u.selected p) :
    u.exportClass p c.mark c.name.text c.name.name c ∈ m.allClasses := by
  unfold exportModel at hm
  split at hm
  · cases hm
  · cases hm
    exact List.mem_append_left _ (List.mem_map.2 ⟨c, hc, rfl⟩)

/-- The steps of the registry from an exported class are those to its exported public bases. -/
theorem listsBase_exportModel_iff (hm : u.exportModel p = .ok m) (hone : m.OneAncestry)
    (hc : c ∈ u.selected p) {name : String} :
    (Registry.ofModel m).ListsBase c.name.text name ↔
      ∃ b, u.DerivesExported p c b ∧ b.name.text = name := by
  have hbases := Registry.basesOf_ofModel hone (exportClass_mem_allClasses hm hc)
  rw [Registry.ListsBase]
  exact hbases ▸ mem_bases_exportClass

/-- **The registry knows the exported ancestors.** Where classes with one native name list the same
bases, an exported class is below a native name in the registry of the model exactly when the name
is that of an exported class to which public bases lead, over exported classes only. -/
theorem isSubclass_exportModel_iff (u : HeaderUnit) (p : ExportPolicy) (m : ExportModel)
    (hm : u.exportModel p = .ok m) (hone : m.OneAncestry) : ∀ d ∈ u.selected p, ∀ native,
    (Registry.ofModel m).isSubclass d.name.text native = true ↔
      ∃ b ∈ u.selected p, b.name.text = native ∧
        Relation.ReflTransGen (u.DerivesExported p) d b := by
  intro d hd native
  rw [Registry.isSubclass_iff]
  constructor
  · intro hreach
    generalize hname : d.name.text = name at hreach
    induction hreach using Relation.ReflTransGen.head_induction_on generalizing d with
    | refl => exact ⟨d, hd, hname, .refl⟩
    | head hstep _ ih =>
      obtain ⟨c, hc, rfl⟩ := (listsBase_exportModel_iff hm hone hd).1 (hname ▸ hstep)
      obtain ⟨b, hb, hnative, hrest⟩ := ih c hc.1 rfl
      exact ⟨b, hb, hnative, hrest.head hc⟩
  · rintro ⟨b, -, rfl, hreach⟩
    induction hreach using Relation.ReflTransGen.head_induction_on with
    | refl => exact .refl
    | head hstep _ ih =>
      exact .head ((listsBase_exportModel_iff hm hone hd).2 ⟨_, hstep, rfl⟩) (ih hstep.1)

/-! ### A chain of three classes -/

namespace Chain

/-- A class in the main file, with a public base for every name. -/
def link (name : String) (line : Nat) (bases : List String) (members : List Member) :
    ClassEntity :=
  ⟨⟨[name]⟩, .structKind, bases.map fun b => ⟨⟨[b]⟩, .named b, .isPublic, false⟩, members,
    .unmarked, some ⟨"main.h", ⟨line, 0⟩⟩⟩

def top : ClassEntity :=
  link "B" 0 [] [.field ⟨"b", .isPublic, .fundamental "int", false, false, some "1", .unmarked,
    some ⟨"main.h", ⟨1, 2⟩⟩⟩]

def middle : ClassEntity := link "M" 3 ["B"] []

def bottom : ClassEntity := link "D" 5 ["M"] []

/-- A header with the three classes. -/
def text : String :=
  "struct B \x7b\n  int b = 1;\n\x7d;\nstruct M : public B \x7b\n\x7d;\n" ++
    "struct D : public M \x7b\n\x7d;\n"

def unit : HeaderUnit :=
  { files := [], systemIncludes := [], aliases := {}, diagnostics := []
    entities := [.ofClass top, .ofClass middle, .ofClass bottom] }

end Chain

open Chain in
/-- With every class of the chain exported, the registry knows the whole chain. -/
theorem isSubclass_exportModel_iff_chain : ∃ m,
    Chain.unit.exportModel .defaultPublic = .ok m ∧ m.OneAncestry ∧
      (Registry.ofModel m).isSubclass "D" "B" = true := by
  refine ⟨_, rfl, by decide, ?_⟩
  refine (isSubclass_exportModel_iff Chain.unit .defaultPublic _ rfl (by decide) bottom
    (by decide +kernel) "B").2 ⟨top, by decide +kernel, rfl, ?_⟩
  have hlower : Chain.unit.DerivesExported .defaultPublic bottom middle :=
    ⟨by decide +kernel, _, .head _, rfl, rfl⟩
  have hupper : Chain.unit.DerivesExported .defaultPublic middle top :=
    ⟨by decide +kernel, _, .head _, rfl, rfl⟩
  exact (Relation.ReflTransGen.single hlower).tail hupper

open Chain in
/-- Public bases lead from one exported class to another, and the registry knows nothing of it: the
class between them is not exported. -/
theorem exportModel_forgets_ancestor : ∃ h m,
    (Header.load (.ofFiles [("main.h", text)]) [] "main.h").toOption = some h ∧
    (ofHeader h).exportModel (.explicit ["B", "D"]) = .ok m ∧
    ∃ d ∈ (ofHeader h).selected (.explicit ["B", "D"]),
      ∃ b ∈ (ofHeader h).selected (.explicit ["B", "D"]),
        Relation.TransGen (ofHeader h).DerivesPublicly d b ∧
        (Registry.ofModel m).isSubclass d.name.text b.name.text = false := by
  let found := (Header.load (.ofFiles [("main.h", text)]) [] "main.h").toOption
  have hfound : found.map (fun h => ((ofHeader h).classes,
      ((ofHeader h).exportModel (.explicit ["B", "D"])).toOption.map fun m =>
        (Registry.ofModel m).isSubclass "D" "B")) =
      some ([top, middle, bottom], some false) := by
    decide +kernel
  obtain ⟨h, hh, hpair⟩ := Option.map_eq_some_iff.1 hfound
  obtain ⟨hclasses, hmodel⟩ := Prod.mk.injEq _ _ _ _ ▸ hpair
  obtain ⟨m, hm, hsub⟩ := Option.map_eq_some_iff.1 hmodel
  refine ⟨h, m, hh, ?_, bottom, ?_, top, ?_, ?_, hsub⟩
  · exact toOption_eq_some.1 hm
  · rw [selected, hclasses]
    decide +kernel
  · rw [selected, hclasses]
    decide +kernel
  · have hlower : (ofHeader h).DerivesPublicly bottom middle :=
      ⟨_, .head _, rfl, by rw [classNamed?, hclasses]; rfl⟩
    have hupper : (ofHeader h).DerivesPublicly middle top :=
      ⟨_, .head _, rfl, by rw [classNamed?, hclasses]; rfl⟩
    exact .tail (.single hlower) hupper

end HeaderUnit
end Bindery
