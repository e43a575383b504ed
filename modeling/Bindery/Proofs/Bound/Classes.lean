import Bindery.Header
import Bindery.Proofs.Bound.Construct
import Bindery.Proofs.Fallible
import Bindery.Survey.Walk

/-!
# The classes of a bound module

A model offers each of its classes under a name of the host, and the bound module has one class for
each of these names, the last one that is offered under it. So no class is lost as long as different
classes do not come together under one name. They do when they differ only in their namespaces, or
in characters of their template arguments that have no place in a name.

## Main definitions

* `ExportModel.HostsApart`, `ExportModel.NativesApart`: names of one side that tell classes apart.
* `BoundModule.Keeps`: a bound module has the classes of a model.

## Main statements

* `BoundModule.find?_classes_bind`: the class at each name of the host.
* `BoundModule.bind_keeps_classes`: the module has every class, and no others.
-/
namespace Bindery

namespace ExportModel

variable {m : ExportModel} {c : ExportedClass} {host : String}

/-- Classes that are offered under one name of the host have one native name. -/
def HostsApart (m : ExportModel) : Prop :=
  ∀ x ∈ m.offeredClasses, ∀ y ∈ m.offeredClasses, x.1 = y.1 → x.2.native = y.2.native

/-- Classes with one native name are offered under one name of the host. -/
def NativesApart (m : ExportModel) : Prop :=
  ∀ x ∈ m.offeredClasses, ∀ y ∈ m.offeredClasses, x.2.native = y.2.native → x.1 = y.1

instance (m : ExportModel) : Decidable m.HostsApart :=
  inferInstanceAs (Decidable (∀ x ∈ m.offeredClasses, ∀ y ∈ m.offeredClasses, _ → _))

instance (m : ExportModel) : Decidable m.NativesApart :=
  inferInstanceAs (Decidable (∀ x ∈ m.offeredClasses, ∀ y ∈ m.offeredClasses, _ → _))

/-- The native names of the classes, each once. -/
def natives (m : ExportModel) : Finset String := (m.allClasses.map (·.native)).toFinset

theorem mem_offeredClasses : (host, c) ∈ m.offeredClasses ↔ .ofClass host c ∈ m.offers := by
  constructor
  · intro h
    obtain ⟨o, ho, heq⟩ := List.mem_filterMap.1 h
    cases o with
    | ofClass host' c' =>
      cases heq
      exact ho
    | ofFunction _ _ | ofEntryPoint _ _ _ => cases heq
  · intro h
    exact List.mem_filterMap.2 ⟨_, h, rfl⟩

/-- The classes that are offered are the classes of the model. -/
theorem mem_allClasses_iff : c ∈ m.allClasses ↔ ∃ host, (host, c) ∈ m.offeredClasses := by
  constructor
  · intro hc
    rcases List.mem_append.1 hc with hc | hc
    · have hoffer : Offer.ofClass c.exportName c ∈ m.offers :=
        List.mem_append_left _ (List.mem_append_left _ (List.mem_map.2 ⟨c, hc, rfl⟩))
      exact ⟨c.exportName, mem_offeredClasses.2 hoffer⟩
    · obtain ⟨t, ht, hc⟩ := List.mem_flatMap.1 hc
      obtain ⟨i, hi, hclass⟩ := List.mem_filterMap.1 hc
      obtain ⟨d, hitem⟩ := ExportedItem.exists_of_isSome (Option.isSome_of_eq_some hclass)
      obtain rfl : d = c := by simpa [hitem, ExportedItem.class?] using hclass
      -- The instantiation stands in the group of its own entry point.
      let group := t.instantiations.filter (·.exportName = i.exportName)
      have hmem : i ∈ group := List.mem_filter.2 ⟨hi, by simp⟩
      have hgroup : (i.exportName, group) ∈ t.entryPoints.entries :=
        OrderedMap.mem_entries_groupBy.2 ⟨rfl, List.ne_nil_of_mem hmem⟩
      exact ⟨_, mem_offeredClasses.2 (m.class_mem_offers ht hgroup hmem hitem)⟩
  · rintro ⟨host, hoffered⟩
    exact m.mem_allClasses_of_mem_offers (mem_offeredClasses.1 hoffered)

end ExportModel

namespace BoundModule

variable {m : ExportModel} {name host : String}

theorem class?_registrations (r : Registry) (m : ExportModel) :
    (Registration.ofModel r m).filterMap Registration.class? =
      m.offeredClasses.map fun x => (x.1, .bind r x.1 x.2) := by
  rw [← m.registration_offers, List.filterMap_map, ExportModel.offeredClasses,
    List.map_filterMap]
  apply List.filterMap_congr
  intro o _
  cases o with
  | ofClass host c => rfl
  | ofFunction host overloads =>
    simp only [Function.comp_apply, Offer.registration, Registration.ofOverloads]
    split <;> rfl
  | ofEntryPoint t entry group =>
    simp only [Function.comp_apply, Offer.registration]
    split <;> rfl

/-- The class at a name of the host is the last one that is offered there. -/
theorem find?_classes_bind (name : String) (m : ExportModel) (host : String) :
    (bind name m).classes.find? host =
      (m.offeredClasses.reverse.find? (·.1 = host)).map fun x =>
        .bind (Registry.ofModel m) x.1 x.2 := by
  rw [classes, bind, class?_registrations, OrderedMap.find?_ofList, ← List.map_reverse,
    List.find?_map, Option.map_map]
  rfl

/-- A class that is bound was offered under its name. -/
theorem exists_offered_of_find? {c : BoundClass} (h : (bind name m).classes.find? host = some c) :
    ∃ d, (host, d) ∈ m.offeredClasses ∧ c = .bind (Registry.ofModel m) host d := by
  rw [find?_classes_bind] at h
  obtain ⟨⟨host', d⟩, hfound, rfl⟩ := Option.map_eq_some_iff.1 h
  obtain rfl : host' = host := by simpa using List.find?_some hfound
  exact ⟨d, List.mem_reverse.1 (List.mem_of_find?_eq_some hfound), rfl⟩

/-- The classes that are bound have the native names of the classes of the model, each of them. -/
structure Keeps (b : BoundModule) (m : ExportModel) : Prop where
  /-- Each class of the model is bound under some name of the host. -/
  bound : ∀ c ∈ m.allClasses, ∃ host d, b.classes.find? host = some d ∧ d.native = c.native
  /-- Each bound class is one of the model. -/
  offered : ∀ host d, b.classes.find? host = some d → ∃ c ∈ m.allClasses, d.native = c.native
  /-- There are no fewer of them than native names. -/
  card_le : m.natives.card ≤ b.classes.size

theorem nodup_keys_classes (b : BoundModule) : b.classes.keys.Nodup :=
  OrderedMap.nodup_keys_ofList _

/-- The bound classes and their native names, in the order of the names of the host. -/
theorem mem_entries_classes {b : BoundModule} {c : BoundClass} :
    (host, c) ∈ b.classes.entries ↔ b.classes.find? host = some c :=
  OrderedMap.mem_entries_iff b.nodup_keys_classes

theorem natives_eq {b : BoundModule}
    (hbound : ∀ c ∈ m.allClasses, ∃ host d, b.classes.find? host = some d ∧ d.native = c.native)
    (hoffered : ∀ host d, b.classes.find? host = some d →
      ∃ c ∈ m.allClasses, d.native = c.native) :
    m.natives = (b.classes.entries.map (·.2.native)).toFinset := by
  ext native
  simp only [ExportModel.natives, List.mem_toFinset, List.mem_map]
  constructor
  · rintro ⟨c, hc, rfl⟩
    obtain ⟨host, d, hd, hnative⟩ := hbound c hc
    exact ⟨(host, d), mem_entries_classes.2 hd, hnative⟩
  · rintro ⟨⟨host, d⟩, hd, rfl⟩
    obtain ⟨c, hc, hnative⟩ := hoffered host d (mem_entries_classes.1 hd)
    exact ⟨c, hc, hnative.symm⟩

/-- Each class is bound under the name that it is offered under, exactly where names of the host
tell classes apart. -/
theorem hostsApart_iff (name : String) : m.HostsApart ↔ ∀ x ∈ m.offeredClasses,
    ∃ d, (bind name m).classes.find? x.1 = some d ∧ d.native = x.2.native := by
  constructor
  · intro hhosts x hx
    obtain ⟨d, hd, hfound⟩ := exists_find?_classes name (ExportModel.mem_offeredClasses.1 hx)
    exact ⟨_, hfound, hhosts _ (ExportModel.mem_offeredClasses.2 hd) x hx rfl⟩
  · intro hown x hx y hy hhost
    obtain ⟨d, hd, hx⟩ := hown x hx
    obtain ⟨d', hd', hy⟩ := hown y hy
    obtain rfl : d = d' := Option.some_inj.1 (hd.symm.trans (hhost ▸ hd'))
    exact hx.symm.trans hy

/-- **No class is lost where names of the host tell classes apart.** Each class of the model is then
bound under the name that it is offered under, and where each native name has one name of the host,
there are as many bound classes as native names. -/
theorem bind_keeps_classes (m : ExportModel) (hhosts : m.HostsApart) (name : String) :
    (bind name m).Keeps m ∧
    (∀ x ∈ m.offeredClasses, ∃ d, (bind name m).classes.find? x.1 = some d ∧
      d.native = x.2.native) ∧
    (m.NativesApart → (bind name m).classes.size = m.natives.card) := by
  have hown := (hostsApart_iff name).1 hhosts
  have hbound : ∀ c ∈ m.allClasses, ∃ host d,
      (bind name m).classes.find? host = some d ∧ d.native = c.native := by
    intro c hc
    obtain ⟨host, hoffered⟩ := ExportModel.mem_allClasses_iff.1 hc
    exact ⟨host, hown _ hoffered⟩
  have hoffered : ∀ host d, (bind name m).classes.find? host = some d →
      ∃ c ∈ m.allClasses, d.native = c.native := by
    intro host d hd
    obtain ⟨c, hc, rfl⟩ := exists_offered_of_find? hd
    exact ⟨c, ExportModel.mem_allClasses_iff.2 ⟨host, hc⟩, rfl⟩
  have hnatives := natives_eq hbound hoffered
  refine ⟨⟨hbound, hoffered, ?_⟩, hown, ?_⟩
  · rw [hnatives]
    exact (List.toFinset_card_le _).trans (List.length_map _).le
  · intro hapart
    -- Bound classes with one native name would have one name of the host.
    have hnodup : ((bind name m).classes.entries.map (·.2.native)).Nodup := by
      rw [List.Nodup, List.pairwise_map]
      refine (List.pairwise_map.1 (nodup_keys_classes (bind name m))).imp_of_mem ?_
      rintro ⟨host, d⟩ ⟨host', d'⟩ hd hd' hne hnative
      obtain ⟨c, hc, rfl⟩ := exists_offered_of_find? (mem_entries_classes.1 hd)
      obtain ⟨c', hc', rfl⟩ := exists_offered_of_find? (mem_entries_classes.1 hd')
      exact hne (hapart _ hc _ hc' hnative)
    rw [hnatives, List.toFinset_card_of_nodup hnodup, List.length_map]
    rfl

theorem bind_keeps_classes_boxes : ∃ m,
    (boxes (.fundamental "float")).exportModel .defaultPublic = .ok m ∧ m.HostsApart ∧
    m.NativesApart ∧ (bind "m" m).Keeps m ∧ (bind "m" m).classes.size = 2 := by
  let m : ExportModel := ((boxes (.fundamental "float")).exportModel .defaultPublic).toOption.get
    (by decide +kernel)
  have hhosts : m.HostsApart := by decide +kernel
  have hnatives : m.NativesApart := by decide +kernel
  obtain ⟨hkeeps, -, hsize⟩ := bind_keeps_classes m hhosts "m"
  have htwo : m.natives.card = 2 := by decide +kernel
  exact ⟨m, rfl, hhosts, hnatives, hkeeps, (hsize hnatives).trans htwo⟩

/-- Two classes that differ in their namespace have one name of the host, and one of them is not
bound at all. -/
theorem bind_loses_class : ∃ h m c,
    (Header.load (.ofFiles [("main.h", "namespace a \x7b struct X \x7b int n = 1; \x7d; \x7d\n" ++
      "namespace b \x7b struct X \x7b int m = 2; \x7d; \x7d\n")]) [] "main.h").toOption = some h ∧
    (HeaderUnit.ofHeader h).exportModel .defaultPublic = .ok m ∧ c ∈ m.allClasses ∧
    (∀ host d, (bind "m" m).classes.find? host = some d → d.native ≠ c.native) ∧
    (bind "m" m).classes.size < m.natives.card := by
  let found := (Header.load (.ofFiles [("main.h",
    "namespace a \x7b struct X \x7b int n = 1; \x7d; \x7d\n" ++
      "namespace b \x7b struct X \x7b int m = 2; \x7d; \x7d\n")]) [] "main.h").toOption
  have hfound : found.map (fun h =>
      ((HeaderUnit.ofHeader h).exportModel .defaultPublic).toOption.map fun m =>
        (m.allClasses.map (·.native), (bind "m" m).classes.entries.map (·.2.native))) =
      some (some (["a::X", "b::X"], ["b::X"])) := by
    decide +kernel
  obtain ⟨h, hh, hmodel⟩ := Option.map_eq_some_iff.1 hfound
  obtain ⟨m, hm, hpair⟩ := Option.map_eq_some_iff.1 hmodel
  obtain ⟨hclasses, hbound⟩ := Prod.mk.injEq _ _ _ _ ▸ hpair
  have hfirst : "a::X" ∈ m.allClasses.map (·.native) := hclasses ▸ .head _
  obtain ⟨c, hc, hnative⟩ := List.mem_map.1 hfirst
  refine ⟨h, m, c, hh, toOption_eq_some.1 hm, hc, ?_, ?_⟩
  · intro host d hd heq
    have hlisted : d.native ∈ (bind "m" m).classes.entries.map (·.2.native) :=
      List.mem_map.2 ⟨(host, d), mem_entries_classes.2 hd, rfl⟩
    rw [hbound, List.mem_singleton, heq, hnative] at hlisted
    exact absurd hlisted (by decide)
  · have hsize : (bind "m" m).classes.size = 1 := by
      rw [OrderedMap.size, ← List.length_map (·.2.native), hbound]
      rfl
    rw [hsize, ExportModel.natives, hclasses]
    decide

end BoundModule
end Bindery
