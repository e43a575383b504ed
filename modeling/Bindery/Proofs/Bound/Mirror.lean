import Bindery.Bound.Module
import Bindery.Proofs.Bound.Members

/-!
# Bound modules beside generated ones

A bound module stands for the module that is generated from the same model. Classes, functions that
instantiate a template, and entry points agree: what one has the other registers. A free function
is the exception. It is bound with all of its overloads or not at all, whereas the generated module
registers each overload that can cross the boundary.

## Main definitions

* `Offer`: what a model offers under one name of the host.
* `BoundModule.Mirrors`: a bound module stands for generated parts.

## Main statements

* `ExportModel.registration_offers`, `ExportModel.registered_parts`: both modules go through the
  offers of a model.
* `BoundModule.bind_mirrors`: what the bound module shares with the generated one.
-/
namespace Bindery

/-! ## Offers -/

/-- What a model offers under one name of the host. -/
inductive Offer where
  | ofClass (host : String) (c : ExportedClass)
  | ofFunction (host : String) (overloads : List FunctionEntity)
  /-- An entry point that several instantiations share. -/
  | ofEntryPoint (t : ExportedTemplate) (name : String) (group : List ExportedInstantiation)

namespace Offer

/-- The name on the side of the host. -/
def host : Offer → String
  | ofClass host _ => host
  | ofFunction host _ => host
  | ofEntryPoint _ name _ => name

/-- What becomes of an offer in a bound module. -/
def registration (r : Registry) : Offer → Registration
  | ofClass host c => .ofClass host (.bind r host c)
  | ofFunction host overloads => .ofOverloads r ⟨host, overloads⟩
  | ofEntryPoint t name group =>
    match t.catalogue r name with
    | .ok catalogue =>
      .ofEntryPoint name ⟨catalogue, .ofList (group.map fun i => (i.native, i.hostName true))⟩
    | .error _ => .skipped name

/-- What a generated module registers for an offer. -/
def subjects (r : Registry) (shared : List String) : Offer → List Subject
  | ofClass host c => Part.registered (c.parts r shared host)
  | ofFunction host overloads =>
    (overloads.filter (r.carries ·.signature)).map fun _ => .function host
  | ofEntryPoint t name _ =>
    if (t.catalogue r name).toOption.isSome then [.entryPoint name] else []

end Offer

/-- An instantiation is offered under a name of its own. -/
def ExportedInstantiation.offer (isShared : Bool) (i : ExportedInstantiation) : Offer :=
  match i.item with
  | .ofClass c => .ofClass (i.hostName isShared) c
  | .ofFunction f => .ofFunction (i.hostName isShared) [f]

/-- The instantiations of a template, each group with the entry point it shares. -/
def ExportedTemplate.offers (t : ExportedTemplate) : List Offer :=
  t.entryPoints.entries.flatMap fun (name, group) =>
    group.map (·.offer (1 < group.length)) ++
      if 1 < group.length then [.ofEntryPoint t name group] else []

/-- Everything that a model offers. -/
def ExportModel.offers (m : ExportModel) : List Offer :=
  m.classes.map (fun c => .ofClass c.exportName c) ++
  m.functions.map (fun f => .ofFunction f.exportName f.overloads) ++
  m.templates.flatMap ExportedTemplate.offers

/-! ## Both modules, offer by offer -/

section

variable {r : Registry} {shared : List String}

theorem ExportedInstantiation.registration_offer (isShared : Bool) (i : ExportedInstantiation) :
    (i.offer isShared).registration r = .ofInstantiation r isShared i := by
  cases hitem : i.item with
  | ofClass c => simp only [offer, Registration.ofInstantiation, hitem, Offer.registration]
  | ofFunction f =>
    simp only [offer, Registration.ofInstantiation, hitem, Offer.registration,
      Registration.ofOverloads, List.mapM_cons, List.mapM_nil]
    cases SignaturePattern.ofSignature r f.signature <;> rfl

theorem ExportedInstantiation.registered_parts (isShared : Bool) (i : ExportedInstantiation) :
    Part.registered (ExportedTemplate.instantiationParts r shared isShared i) =
      (i.offer isShared).subjects r shared := by
  cases hitem : i.item with
  | ofClass c =>
    simp only [ExportedTemplate.instantiationParts, offer, hitem, Offer.subjects, Part.blank,
      Part.registered_scaffold]
  | ofFunction f =>
    have hpart := Part.registered_map
      (FunctionEntity.registered?_part (r := r) (i.hostName isShared) i.native) [f]
    simp only [ExportedTemplate.instantiationParts, offer, hitem, Offer.subjects, ← hpart]
    cases isShared <;> rfl

theorem ExportedTemplate.registration_offers (t : ExportedTemplate) :
    t.offers.map (·.registration r) =
      t.entryPoints.entries.flatMap fun (name, group) => Registration.ofGroup r t name group := by
  rw [offers, List.map_flatMap]
  refine List.flatMap_congr fun (name, group) _ => ?_
  simp only [Registration.ofGroup, List.map_append, List.map_map, Function.comp_def,
    ExportedInstantiation.registration_offer]
  by_cases hshared : 1 < group.length
  · simp only [hshared, decide_true, if_true, List.map_cons, List.map_nil, Offer.registration]
    cases t.catalogue r name <;> rfl
  · simp only [hshared, decide_false, if_false, List.map_nil, List.append_nil]

theorem ExportedTemplate.registered_parts (t : ExportedTemplate) :
    Part.registered (t.parts r shared) = t.offers.flatMap (Offer.subjects r shared) := by
  rw [offers, parts, List.flatMap_assoc, Part.registered_flatMap]
  refine List.flatMap_congr fun (name, group) _ => ?_
  simp only [Part.registered_append, Part.registered_flatMap, List.flatMap_append, List.flatMap_map,
    ExportedInstantiation.registered_parts]
  by_cases hshared : 1 < group.length
  · simp only [hshared, decide_true, if_true, List.flatMap_cons, List.flatMap_nil, Offer.subjects,
      Part.registered_cons, t.registered?_entryPointPart]
    split <;> rfl
  · simp only [hshared, decide_false, if_false, List.flatMap_nil]
    rfl

/-- A bound module holds the registration of every offer. -/
theorem ExportModel.registration_offers (m : ExportModel) :
    m.offers.map (·.registration r) = Registration.ofModel r m := by
  simp only [offers, Registration.ofModel, List.map_append, List.map_map, List.map_flatMap,
    ExportedTemplate.registration_offers]
  rfl

/-- A generated module registers the subjects of every offer. -/
theorem ExportModel.registered_parts (m : ExportModel) (name : String) :
    Part.registered (m.parts name) = m.offers.flatMap
      (Offer.subjects (Registry.ofModel m) (m.countedClasses (Registry.ofModel m))) := by
  have hfunction (f : ExportedFunction) := Part.registered_map fun o : FunctionEntity =>
    o.registered?_part (r := Registry.ofModel m) f.exportName o.name.text
  simp only [parts, offers, Part.registered_block, Part.line, List.cons_append,
    Part.registered_scaffold, Part.registered_append, Part.registered_flatMap, Part.blank,
    hfunction, ExportedTemplate.registered_parts, List.flatMap_append, List.flatMap_map,
    List.flatMap_assoc, Offer.subjects]
  split <;> simp only [Part.registered_scaffold, Part.registered_nil, List.append_nil]

end

/-! ## Classes that are offered -/

section

variable {m : ExportModel} {host : String} {c : ExportedClass}

theorem ExportModel.cases_of_class_mem_offers (h : .ofClass host c ∈ m.offers) :
    (c ∈ m.classes ∧ host = c.exportName) ∨ ∃ t ∈ m.templates, ∃ entry group,
      (entry, group) ∈ t.entryPoints.entries ∧ ∃ i ∈ group,
      i.item = .ofClass c ∧ host = i.hostName (1 < group.length) := by
  rcases List.mem_append.1 h with h | h
  · rcases List.mem_append.1 h with h | h
    · obtain ⟨d, hd, heq⟩ := List.mem_map.1 h
      cases heq
      exact .inl ⟨hd, rfl⟩
    · obtain ⟨f, -, heq⟩ := List.mem_map.1 h
      cases heq
  · obtain ⟨t, ht, h⟩ := List.mem_flatMap.1 h
    obtain ⟨⟨entry, group⟩, hentry, h⟩ := List.mem_flatMap.1 h
    rcases List.mem_append.1 h with h | h
    · obtain ⟨i, hi, heq⟩ := List.mem_map.1 h
      refine .inr ⟨t, ht, entry, group, hentry, i, hi, ?_⟩
      cases hitem : i.item with
      | ofClass d =>
        simp only [ExportedInstantiation.offer, hitem, Offer.ofClass.injEq] at heq
        exact ⟨congrArg _ heq.2, heq.1.symm⟩
      | ofFunction f => simp [ExportedInstantiation.offer, hitem] at heq
    · split at h <;> simp at h

theorem ExportModel.mem_allClasses_of_mem_offers (h : .ofClass host c ∈ m.offers) :
    c ∈ m.allClasses := by
  rcases m.cases_of_class_mem_offers h with ⟨hc, -⟩ | ⟨t, ht, entry, group, hentry, i, hi, hitem, -⟩
  · exact List.mem_append_left _ hc
  · rw [(OrderedMap.mem_entries_groupBy.1 hentry).1] at hi
    refine List.mem_append_right _ (List.mem_flatMap.2 ⟨t, ht, List.mem_filterMap.2 ⟨i, ?_, ?_⟩⟩)
    · exact (List.mem_filter.1 hi).1
    · rw [hitem]
      rfl

/-- The parts of a class that is offered stand in the module, one level deeper. -/
theorem ExportModel.indent_mem_parts (name : String) (h : .ofClass host c ∈ m.offers) {part : Part}
    (hpart : part ∈ c.parts (Registry.ofModel m) (m.countedClasses (Registry.ofModel m)) host) :
    part.indent ∈ m.parts name := by
  have hbody : part.indent ∈ (m.classes.flatMap (fun c => .blank :: c.parts (Registry.ofModel m)
        (m.countedClasses (Registry.ofModel m)) c.exportName)).map Part.indent ∨
      part.indent ∈ (m.templates.flatMap (·.parts (Registry.ofModel m)
        (m.countedClasses (Registry.ofModel m)))).map Part.indent := by
    rcases m.cases_of_class_mem_offers h with
      ⟨hc, rfl⟩ | ⟨t, ht, entry, group, hentry, i, hi, hitem, rfl⟩
    · exact .inl (List.mem_map_of_mem (List.mem_flatMap.2 ⟨c, hc, .tail _ hpart⟩))
    · refine .inr (List.mem_map_of_mem (List.mem_flatMap.2 ⟨t, ht, List.mem_flatMap.2
        ⟨(entry, group), hentry, List.mem_append_left _ (List.mem_flatMap.2 ⟨i, hi, ?_⟩)⟩⟩))
      simp only [ExportedTemplate.instantiationParts, hitem]
      exact .tail _ hpart
  simp only [parts, Part.block, List.map_append, List.map_cons, List.cons_append, List.mem_cons,
    List.mem_append]
  rcases hbody with hbody | hbody <;> simp [hbody]

end

/-! ## Names of the host that differ -/

theorem count_flatMap_of_nodup {ι α σ : Type} [BEq σ] [LawfulBEq σ] {items : List ι}
    {f : ι → List σ} {keyOf : ι → α} (hnodup : (items.map keyOf).Nodup) {x : ι} (hx : x ∈ items)
    {b : σ} (hkey : ∀ y, b ∈ f y → keyOf y = keyOf x) :
    (items.flatMap f).count b = (f x).count b := by
  obtain ⟨front, back, rfl⟩ := List.append_of_mem hx
  rw [List.map_append, List.map_cons, List.nodup_append] at hnodup
  obtain ⟨-, hback, hfront⟩ := hnodup
  have hfront : b ∉ front.flatMap f := by
    rw [List.mem_flatMap]
    rintro ⟨y, hy, hb⟩
    exact hfront _ (List.mem_map_of_mem hy) _ (.head _) (hkey y hb)
  have hback : b ∉ back.flatMap f := by
    rw [List.mem_flatMap]
    rintro ⟨y, hy, hb⟩
    exact (List.nodup_cons.1 hback).1 (hkey y hb ▸ List.mem_map_of_mem hy)
  rw [List.flatMap_append, List.flatMap_cons, List.count_append, List.count_append,
    List.count_eq_zero.2 hfront, List.count_eq_zero.2 hback, Nat.zero_add, Nat.add_zero]

/-- The name of the host that a registration is about. -/
def Registration.host : Registration → String
  | ofClass host _ => host
  | ofFunction host _ => host
  | ofEntryPoint name _ => name
  | skipped name => name

/-- The name of the host that is registered in the module itself. -/
def Subject.host? : Subject → Option String
  | function host => some host
  | entryPoint name => some name
  | _ => none

theorem ExportedClass.host?_of_mem_registered (c : ExportedClass) {r : Registry}
    {shared : List String} {host : String} {s : Subject}
    (h : s ∈ Part.registered (c.parts r shared host)) : s.host? = none := by
  rw [ExportedClass.registered_parts, List.mem_append, List.mem_append] at h
  rcases h with (h | h) | h
  · split at h
    · cases h
    · rcases List.mem_append.1 h with h | h
      · obtain ⟨k, -, rfl⟩ := List.mem_map.1 h
        rfl
      · split at h
        · obtain rfl := List.mem_singleton.1 h
          rfl
        · cases h
  · obtain ⟨g, -, h⟩ := List.mem_flatMap.1 h
    obtain ⟨m, -, rfl⟩ := List.mem_map.1 h
    rfl
  · obtain ⟨f, -, rfl⟩ := List.mem_map.1 h
    rfl

namespace Offer

variable {r : Registry} {shared : List String} {name : String} {o : Offer}

theorem host_of_mem_subjects {s : Subject} (h : s ∈ o.subjects r shared)
    (hs : s.host? = some name) : o.host = name := by
  cases o with
  | ofClass host c =>
    cases (c.host?_of_mem_registered h).symm.trans hs
  | ofFunction host overloads =>
    obtain ⟨f, -, rfl⟩ := List.mem_map.1 h
    exact Option.some_inj.1 hs
  | ofEntryPoint t entry group =>
    rw [subjects] at h
    split at h
    · cases List.mem_singleton.1 h
      exact Option.some_inj.1 hs
    · cases h

theorem host_registration (r : Registry) (o : Offer) : (o.registration r).host = o.host := by
  cases o with
  | ofClass host c => rfl
  | ofFunction host overloads =>
    simp only [registration, Registration.ofOverloads]
    split <;> rfl
  | ofEntryPoint t entry group =>
    simp only [registration]
    split <;> rfl

/-- A function is bound with all overloads, if all can cross the boundary. -/
theorem length_function? (host : String) (overloads : List FunctionEntity) :
    (((ofFunction host overloads).registration r).function?.map Prod.snd).map List.length =
      if overloads.all (r.carries ·.signature) then some overloads.length else none := by
  have hall := isSome_toOption_mapM
    (fun o : FunctionEntity => SignaturePattern.ofSignature r o.signature) overloads
  simp only [SignaturePattern.isSome_ofSignature] at hall
  rw [← hall, registration, Registration.ofOverloads]
  cases hbound : overloads.mapM fun o => SignaturePattern.ofSignature r o.signature with
  | error fault => rfl
  | ok signatures =>
    have hlength := (mapM_eq_ok.1 hbound).length_eq
    simp [Registration.function?, Except.toOption, hlength]

end Offer

namespace BoundModule

variable {m : ExportModel} {r : Registry} {name : String} {o : Offer}

/-- Where names of the host differ, a view of the module holds at each name what its registration
says. -/
theorem find?_registrations {β : Type} {view? : Registration → Option (String × β)}
    (hview : ∀ reg p, view? reg = some p → p.1 = reg.host)
    (hdistinct : (m.offers.map Offer.host).Nodup) (ho : o ∈ m.offers) :
    (OrderedMap.ofList ((Registration.ofModel r m).filterMap view?)).find? o.host =
      (view? (o.registration r)).map Prod.snd := by
  rw [← m.registration_offers, List.filterMap_map]
  exact OrderedMap.find?_ofList_filterMap
    (fun o p h => (hview _ p h).trans (o.host_registration r)) hdistinct ho

section

variable (name : String) (hdistinct : (m.offers.map Offer.host).Nodup) (ho : o ∈ m.offers)

include hdistinct ho

theorem find?_classes : (bind name m).classes.find? o.host =
    (o.registration (Registry.ofModel m)).class?.map Prod.snd :=
  find?_registrations (fun reg _ h => by cases reg <;> cases h; rfl) hdistinct ho

theorem find?_functions : (bind name m).functions.find? o.host =
    (o.registration (Registry.ofModel m)).function?.map Prod.snd :=
  find?_registrations (fun reg _ h => by cases reg <;> cases h; rfl) hdistinct ho

theorem find?_dispatchers : (bind name m).dispatchers.find? o.host =
    (o.registration (Registry.ofModel m)).entryPoint?.map Prod.snd :=
  find?_registrations (fun reg _ h => by cases reg <;> cases h; rfl) hdistinct ho

/-- What a generated module registers under a name of the host comes from the offer of that
name. -/
theorem count_registered {s : Subject} (hs : s.host? = some o.host) :
    (Part.registered (m.parts name)).count s =
      (o.subjects (Registry.ofModel m) (m.countedClasses (Registry.ofModel m))).count s := by
  rw [m.registered_parts name]
  exact count_flatMap_of_nodup hdistinct ho fun _ hy => Offer.host_of_mem_subjects hy hs

end

theorem length_functions (name : String) (hdistinct : (m.offers.map Offer.host).Nodup)
    {host : String} {overloads : List FunctionEntity} (ho : .ofFunction host overloads ∈ m.offers) :
    ((bind name m).functions.find? host).map List.length =
      if overloads.all ((Registry.ofModel m).carries ·.signature) then some overloads.length
      else none := by
  rw [← Offer.length_function? host]
  exact congrArg _ (find?_functions name hdistinct ho)

theorem count_functions (name : String) (hdistinct : (m.offers.map Offer.host).Nodup)
    {host : String} {overloads : List FunctionEntity} (ho : .ofFunction host overloads ∈ m.offers) :
    (Part.registered (m.parts name)).count (.function host) =
      (overloads.filter ((Registry.ofModel m).carries ·.signature)).length := by
  rw [count_registered name hdistinct ho rfl]
  simp [Offer.subjects]

/-! ## Modules -/

/-- The bound module stands for parts that are generated from the model. -/
structure Mirrors (b : BoundModule) (m : ExportModel) (parts : List Part) : Prop where
  /-- A free function is bound with all of its overloads or not at all, but each overload that can
  cross the boundary is registered. -/
  functions : ∀ host overloads, .ofFunction host overloads ∈ m.offers →
    (b.functions.find? host).map List.length =
      (if overloads.all (b.registry.carries ·.signature) then some overloads.length else none) ∧
    (Part.registered parts).count (.function host) =
      (overloads.filter (b.registry.carries ·.signature)).length
  /-- A function with one overload, such as an instantiation, is bound when it is registered. -/
  instantiations : ∀ host f, .ofFunction host [f] ∈ m.offers →
    ((b.functions.find? host).isSome = true ↔ .function host ∈ Part.registered parts)
  classes : ∀ host c, .ofClass host c ∈ m.offers → ∃ bound shared,
    b.classes.find? host = some bound ∧
    (∀ part ∈ c.parts b.registry shared host, part.indent ∈ parts) ∧
    bound.Mirrors (Part.registered (c.parts b.registry shared host))
  entryPoints : ∀ t entry group, .ofEntryPoint t entry group ∈ m.offers →
    ((b.dispatchers.find? entry).isSome = true ↔ .entryPoint entry ∈ Part.registered parts)

/-- **A bound module mirrors the module that is generated**, but for free functions of which only
some overloads can cross the boundary. -/
theorem bind_mirrors (u : HeaderUnit) (p : ExportPolicy) (m : ExportModel)
    (hm : u.exportModel p = .ok m) (hdistinct : (m.offers.map Offer.host).Nodup) (name : String) :
    (bind name m).Mirrors m (m.parts name) := by
  refine ⟨fun host overloads ho => ?_, fun host f ho => ?_, fun host c ho => ?_,
    fun t entry group ho => ?_⟩
  · exact ⟨length_functions name hdistinct ho, count_functions name hdistinct ho⟩
  · rw [← List.count_pos_iff, count_functions name hdistinct ho,
      ← Option.isSome_map (f := List.length), length_functions name hdistinct ho]
    cases hcarries : (Registry.ofModel m).carries f.signature <;> simp [hcarries]
  · obtain ⟨d, -, owner, native, exportName, hd⟩ :=
      HeaderUnit.mem_allClasses_exportModel hm (m.mem_allClasses_of_mem_offers ho)
    have hregular : c.Regular := hd ▸ u.exportClass_regular p owner native exportName d
    exact ⟨_, m.countedClasses (Registry.ofModel m), find?_classes name hdistinct ho,
      fun part => m.indent_mem_parts name ho,
      BoundClass.mirrors_bind hregular (Registry.ofModel m) _ host⟩
  · have hdispatcher : (bind name m).dispatchers.find? entry = _ :=
      find?_dispatchers name hdistinct ho
    rw [← List.count_pos_iff, count_registered name hdistinct ho rfl, List.count_pos_iff,
      hdispatcher]
    simp only [Offer.registration, Offer.subjects]
    cases t.catalogue (Registry.ofModel m) entry <;>
      simp [Registration.entryPoint?, Except.toOption]

/-- A function with an overload that takes a type without a meaning at the boundary. -/
def halfCrossing : HeaderUnit :=
  let int : TypeExpr := .fundamental "int"
  let map : TypeExpr := .ofBase (.named false [.plain "std", .applied "map" [.type int, .type int]])
  let overload (type : TypeExpr) : Entity :=
    .ofFunction ⟨⟨["f"]⟩, ⟨[⟨some "x", type, none⟩], int⟩, none, .unmarked, none⟩
  { files := [], systemIncludes := [], aliases := {}, diagnostics := []
    entities := [overload int, overload map] }

theorem bind_mirrors_halfCrossing : ∃ m, halfCrossing.exportModel .defaultPublic = .ok m ∧
    (m.offers.map Offer.host).Nodup ∧ (bind "m" m).Mirrors m (m.parts "m") :=
  ⟨_, rfl, by decide, bind_mirrors halfCrossing .defaultPublic _ rfl (by decide) "m"⟩

/-- One overload is registered in the generated module, and none is bound. -/
theorem bind_leaves_out_overload : ∃ m, halfCrossing.exportModel .defaultPublic = .ok m ∧
    (m.offers.map Offer.host).Nodup ∧ (bind "m" m).functions.find? "f" = none ∧
    (Part.registered (m.parts "m")).count (.function "f") = 1 :=
  ⟨_, rfl, by decide, by decide +kernel, by decide +kernel⟩

end BoundModule
end Bindery
