import Bindery.Proofs.Bound.Mirror
import Bindery.Proofs.Dispatch.Selection
import Bindery.Proofs.Store.Writing

/-!
# Objects of the class that was selected

A call through an entry point selects an instantiation, and the class of that instantiation is found
again by its name on the side of the host. The class that is found is the selected one, and it takes
the arguments, as long as no other class has the same name there. Names on the side of the host are
short forms of template arguments, so two classes may have one.

## Main definitions

* `ExportModel.OneClass`, `ExportModel.OneNative`: a name stands for one class.

## Main statements

* `BoundModule.construct_dispatched`: a call constructs an object of the class that was selected.
-/
namespace Bindery

/-! ## The entry that was selected -/

variable {r : Registry}

theorem Catalogue.mem_matching_of_choose {c : Catalogue} {call : List ArgTag} {e : CatalogueEntry}
    {s : Selection} (h : c.choose call = .ok (e, s)) : (e, s) ∈ c.matching call := by
  unfold choose at h
  cases hbest : bestMatch? (·.2.tier) (c.matching call) with
  | none => simp [hbest] at h
  | some found =>
    simp only [hbest] at h
    split at h
    · cases h
    · cases h
      obtain ⟨before, behind, hsplit, -, -⟩ := bestMatch?_eq_some hbest
      exact hsplit ▸ List.mem_append_right _ List.mem_cons_self

/-- The entries of a catalogue are those of the instantiations behind the entry point. -/
theorem ExportedTemplate.exists_of_mem_catalogue {t : ExportedTemplate} {entry : String}
    {c : Catalogue} (hc : t.catalogue r entry = .ok c) :
    c.registry = r ∧ ∀ e ∈ c.entries, ∃ i ∈ t.instantiations,
      i.exportName = entry ∧ i.toEntry r = .ok e := by
  obtain ⟨entries, hentries, hmake⟩ := bind_eq_ok.1 hc
  cases hmake
  refine ⟨rfl, fun e he => ?_⟩
  have he : e ∈ entries := (Catalogue.perm_make entry entries r).mem_iff.1 he
  obtain ⟨i, hi, hie⟩ := exists_of_mem_mapM hentries he
  obtain ⟨hi, hname⟩ := List.mem_filter.1 hi
  exact ⟨i, hi, of_decide_eq_true hname, hie⟩

/-- Entries that are in order stay as they are. -/
theorem ExportedTemplate.catalogue_of_sorted {t : ExportedTemplate} {entry : String}
    {entries : List CatalogueEntry}
    (hentries : (t.instantiations.filter (·.exportName = entry)).mapM (·.toEntry r) = .ok entries)
    (hsorted : entries.Pairwise fun a b => a.specificity.rank ≤ b.specificity.rank) :
    t.catalogue r entry = .ok ⟨entry, entries, r⟩ := by
  rw [catalogue, hentries]
  refine congrArg (fun es => Except.ok (Catalogue.mk entry es r)) ?_
  exact List.mergeSort_of_pairwise (hsorted.imp decide_eq_true)

theorem ExportedItem.exists_of_isSome {item : ExportedItem} (h : item.class?.isSome = true) :
    ∃ c, item = .ofClass c := by
  cases item with
  | ofClass c => exact ⟨c, rfl⟩
  | ofFunction f => cases h

/-- The entry of a class has its native name and what constructs it. -/
theorem ExportedInstantiation.toEntry_ofClass {i : ExportedInstantiation} {c : ExportedClass}
    (hitem : i.item = .ofClass c) {e : CatalogueEntry} (h : i.toEntry r = .ok e) :
    e.native = i.native ∧ classSignatures r c = .ok e.signatures := by
  rw [toEntry, hitem] at h
  obtain ⟨signatures, hsignatures, he⟩ := bind_eq_ok.1 h
  cases he
  exact ⟨rfl, hsignatures⟩

namespace BoundClass

theorem map_snd_bound {α β : Type} {f : α → Except MarshalFault β} {items : List α} {bs : List β}
    (h : items.mapM f = .ok bs) : (bound f items).map Prod.snd = bs := by
  have hitems := mapM_eq_ok.1 h
  induction hitems with
  | nil => rfl
  | cons ha htail ih =>
    rw [bound, List.filterMap_cons, ha]
    exact congrArg _ (ih (mapM_eq_ok.2 htail))

/-- A class that has an entry is bound with all that constructs it. -/
theorem constructors_bind {c : ExportedClass} {signatures : List SignaturePattern}
    (h : ExportedInstantiation.classSignatures r c = .ok signatures) (host : String) :
    (bind r host c).constructors = signatures := by
  obtain ⟨declared, hdeclared, hsignatures⟩ := bind_eq_ok.1 h
  cases hsignatures
  rw [bind, map_snd_bound hdeclared]

end BoundClass

theorem SignaturePattern.pick_of_tier? {overloads : List SignaturePattern} {s : SignaturePattern}
    {args : List HostValue} {tier : MatchTier} (hs : s ∈ overloads)
    (htier : s.tier? r.isSubclass (args.map ArgTag.ofValue) = some tier) (owner name : String) :
    ∃ i, pick r owner name overloads args = .ok i := by
  unfold pick
  cases hfound : overloads.findIdx? fun s =>
      (s.tier? r.isSubclass (args.map ArgTag.ofValue)).isSome with
  | some i => exact ⟨i, by simp only [hfound]⟩
  | none =>
    have hnone := List.findIdx?_eq_none_iff.1 hfound s hs
    simp [htier] at hnone

/-! ## Names for classes -/

/-- The class that is offered, with its host name. -/
def Offer.class? : Offer → Option (String × ExportedClass)
  | ofClass host c => some (host, c)
  | _ => none

variable {m : ExportModel}

namespace ExportModel

/-- There is one class of the native name. -/
def OneClass (m : ExportModel) (native : String) : Prop :=
  ∀ c ∈ m.allClasses, ∀ c' ∈ m.allClasses, c.native = native → c'.native = native → c = c'

/-- The classes that are offered, by host name. -/
def offeredClasses (m : ExportModel) : List (String × ExportedClass) :=
  m.offers.filterMap Offer.class?

/-- Whatever class is offered under the host name has the native name. -/
def OneNative (m : ExportModel) (host native : String) : Prop :=
  ∀ p ∈ m.offeredClasses, p.1 = host → p.2.native = native

instance (m : ExportModel) (native : String) : Decidable (m.OneClass native) :=
  inferInstanceAs (Decidable (∀ c ∈ m.allClasses, ∀ c' ∈ m.allClasses,
    c.native = native → c'.native = native → c = c'))

instance (m : ExportModel) (host native : String) : Decidable (m.OneNative host native) :=
  inferInstanceAs (Decidable (∀ p ∈ m.offeredClasses, p.1 = host → p.2.native = native))

theorem OneNative.native_eq {host native : String} (h : m.OneNative host native)
    {c : ExportedClass} (hc : .ofClass host c ∈ m.offers) : c.native = native :=
  h (host, c) (List.mem_filterMap.2 ⟨_, hc, rfl⟩) rfl

theorem of_entryPoint_mem_offers {t : ExportedTemplate} {entry : String}
    {group : List ExportedInstantiation} (h : .ofEntryPoint t entry group ∈ m.offers) :
    t ∈ m.templates ∧ (entry, group) ∈ t.entryPoints.entries ∧ 1 < group.length := by
  rcases List.mem_append.1 h with h | h
  · rcases List.mem_append.1 h with h | h
    · obtain ⟨c, -, heq⟩ := List.mem_map.1 h
      cases heq
    · obtain ⟨f, -, heq⟩ := List.mem_map.1 h
      cases heq
  · obtain ⟨t', ht, h⟩ := List.mem_flatMap.1 h
    obtain ⟨⟨name, group'⟩, hentry, h⟩ := List.mem_flatMap.1 h
    rcases List.mem_append.1 h with h | h
    · obtain ⟨i, -, heq⟩ := List.mem_map.1 h
      cases hitem : i.item <;> simp [ExportedInstantiation.offer, hitem] at heq
    · split at h
      · next hshared =>
        cases List.mem_singleton.1 h
        exact ⟨ht, hentry, by simpa using hshared⟩
      · cases h

/-- The class of an instantiation is offered under the host name of that. -/
theorem class_mem_offers {t : ExportedTemplate} (ht : t ∈ m.templates) {entry : String}
    {group : List ExportedInstantiation} (hgroup : (entry, group) ∈ t.entryPoints.entries)
    {i : ExportedInstantiation} (hi : i ∈ group) {c : ExportedClass} (hitem : i.item = .ofClass c) :
    .ofClass (i.hostName (1 < group.length)) c ∈ m.offers := by
  refine List.mem_append_right _ (List.mem_flatMap.2 ⟨t, ht, List.mem_flatMap.2
    ⟨(entry, group), hgroup, List.mem_append_left _ (List.mem_map.2 ⟨i, hi, ?_⟩)⟩⟩)
  rw [ExportedInstantiation.offer, hitem]

end ExportModel

/-- A class that instantiates a template has the native name of the instantiation. -/
theorem HeaderUnit.native_of_item {u : HeaderUnit} {p : ExportPolicy}
    (hm : u.exportModel p = .ok m) {t : ExportedTemplate} (ht : t ∈ m.templates)
    {i : ExportedInstantiation} (hi : i ∈ t.instantiations) {c : ExportedClass}
    (hitem : i.item = .ofClass c) : c.native = i.native := by
  obtain ⟨t', -, -, shown, -, -, rfl⟩ := (leavesOutHidden hm).templates t ht
  obtain ⟨i', -, rfl⟩ := List.mem_map.1 hi
  cases hentity : i'.entity with
  | ofFunction f => simp [exportInstantiation, hentity] at hitem
  | ofClass d =>
    simp only [exportInstantiation, hentity, ExportedItem.ofClass.injEq] at hitem
    exact hitem ▸ rfl

namespace Offer

variable {o : Offer}

theorem of_class?_registration {p : String × BoundClass}
    (h : (o.registration r).class? = some p) : ∃ c, o = .ofClass p.1 c ∧ p.2 = .bind r p.1 c := by
  cases o with
  | ofClass host c =>
    cases h
    exact ⟨c, rfl, rfl⟩
  | ofFunction host overloads =>
    rw [registration, Registration.ofOverloads] at h
    split at h <;> cases h
  | ofEntryPoint t entry group =>
    rw [registration] at h
    split at h <;> cases h

theorem of_entryPoint?_registration {p : String × Dispatcher}
    (h : (o.registration r).entryPoint? = some p) : ∃ t group catalogue,
      o = .ofEntryPoint t p.1 group ∧ t.catalogue r p.1 = .ok catalogue ∧
      p.2 = ⟨catalogue, .ofList (group.map fun i => (i.native, i.hostName true))⟩ := by
  cases o with
  | ofClass host c => cases h
  | ofFunction host overloads =>
    rw [registration, Registration.ofOverloads] at h
    split at h <;> cases h
  | ofEntryPoint t entry group =>
    rw [registration] at h
    split at h
    · next catalogue hcatalogue =>
      cases h
      exact ⟨t, group, catalogue, rfl, hcatalogue, rfl⟩
    · cases h

end Offer

namespace BoundModule

variable {name : String}

/-- What a view of the module holds was offered. -/
theorem exists_offer_of_find? {β : Type} {view? : Registration → Option (String × β)} {key : String}
    {value : β}
    (h : (OrderedMap.ofList ((Registration.ofModel r m).filterMap view?)).find? key = some value) :
    ∃ o ∈ m.offers, view? (o.registration r) = some (key, value) := by
  have hmem := OrderedMap.mem_entries_ofList (OrderedMap.mem_entries_of_find? h)
  rw [← m.registration_offers, List.filterMap_map] at hmem
  exact List.mem_filterMap.1 hmem

/-- A view of the module lists what it sees of each offer. -/
theorem mem_keys_of_offer {β : Type} {view? : Registration → Option (String × β)} {o : Offer}
    (ho : o ∈ m.offers) {key : String} {value : β}
    (h : view? (o.registration r) = some (key, value)) :
    key ∈ (OrderedMap.ofList ((Registration.ofModel r m).filterMap view?)).keys := by
  rw [OrderedMap.mem_keys_ofList, ← m.registration_offers, List.filterMap_map]
  exact List.mem_map.2 ⟨(key, value), List.mem_filterMap.2 ⟨o, ho, h⟩, rfl⟩

/-- A class is found under each name of the host that a class is offered under. -/
theorem exists_find?_classes (name : String) {host : String} {c : ExportedClass}
    (hc : .ofClass host c ∈ m.offers) : ∃ d, .ofClass host d ∈ m.offers ∧
      (bind name m).classes.find? host = some (.bind (Registry.ofModel m) host d) := by
  have hview : ((Offer.ofClass host c).registration (Registry.ofModel m)).class? =
    some (host, .bind (Registry.ofModel m) host c) := rfl
  have hkey : host ∈ (bind name m).classes.keys := mem_keys_of_offer hc hview
  obtain ⟨bound, hfound⟩ := OrderedMap.mem_keys_iff.1 hkey
  obtain ⟨o, ho, hview⟩ := exists_offer_of_find? hfound
  obtain ⟨d, rfl, hbound⟩ := Offer.of_class?_registration hview
  exact ⟨d, ho, hbound ▸ hfound⟩

/-- An entry point of the module is one that several instantiations share. -/
theorem exists_of_find?_dispatchers {entry : String} {d : Dispatcher}
    (hd : (bind name m).dispatchers.find? entry = some d) : ∃ t group catalogue,
      .ofEntryPoint t entry group ∈ m.offers ∧
      t.catalogue (Registry.ofModel m) entry = .ok catalogue ∧
      d = ⟨catalogue, .ofList (group.map fun i => (i.native, i.hostName true))⟩ := by
  obtain ⟨o, ho, hview⟩ := exists_offer_of_find? hd
  obtain ⟨t, group, catalogue, rfl, hcatalogue, hd⟩ := Offer.of_entryPoint?_registration hview
  exact ⟨t, group, catalogue, ho, hcatalogue, hd⟩

/-- The only template of a model has its entry points for itself. -/
theorem find?_dispatchers_of_templates {entry : String} {t : ExportedTemplate}
    {catalogue : Catalogue} (ht : m.templates = [t])
    (hshared : 1 < (t.instantiations.filter (·.exportName = entry)).length)
    (hcatalogue : t.catalogue (Registry.ofModel m) entry = .ok catalogue) :
    (bind name m).dispatchers.find? entry = some ⟨catalogue, .ofList
      ((t.instantiations.filter (·.exportName = entry)).map
        fun i => (i.native, i.hostName true))⟩ := by
  let group := t.instantiations.filter (·.exportName = entry)
  let d : Dispatcher := ⟨catalogue, .ofList (group.map fun i => (i.native, i.hostName true))⟩
  have hoffer : .ofEntryPoint t entry group ∈ m.offers := by
    have hgroup : (entry, group) ∈ t.entryPoints.entries :=
      OrderedMap.mem_entries_groupBy.2 ⟨rfl, List.ne_nil_of_length_pos (Nat.zero_lt_of_lt hshared)⟩
    refine List.mem_append_right _ (List.mem_flatMap.2 ⟨t, ht ▸ .head _, List.mem_flatMap.2
      ⟨(entry, group), hgroup, List.mem_append_right _ ?_⟩⟩)
    rw [if_pos hshared]
    exact .head _
  have hview : ((Offer.ofEntryPoint t entry group).registration (Registry.ofModel m)).entryPoint? =
      some (entry, d) := by
    rw [Offer.registration, hcatalogue]
    rfl
  have hkey : entry ∈ (bind name m).dispatchers.keys := mem_keys_of_offer hoffer hview
  obtain ⟨found, hfound⟩ := OrderedMap.mem_keys_iff.1 hkey
  obtain ⟨t', group', catalogue', hoffer', hcatalogue', rfl⟩ := exists_of_find?_dispatchers hfound
  obtain ⟨ht', hgroup', -⟩ := m.of_entryPoint_mem_offers hoffer'
  rw [ht, List.mem_singleton] at ht'
  subst ht'
  rw [(OrderedMap.mem_entries_groupBy.1 hgroup').1] at hfound
  rwa [Except.ok.inj (hcatalogue.symm.trans hcatalogue')]

/-- A dispatcher knows a host name for each native name. -/
theorem exists_binding {group : List ExportedInstantiation} {i : ExportedInstantiation}
    (hi : i ∈ group) : ∃ j ∈ group, j.native = i.native ∧
      (OrderedMap.ofList (group.map fun i => (i.native, i.hostName true))).find? i.native =
        some (j.hostName true) := by
  have hkey : i.native ∈
      (OrderedMap.ofList (group.map fun i => (i.native, i.hostName true))).keys := by
    rw [OrderedMap.mem_keys_ofList, List.map_map]
    exact List.mem_map_of_mem hi
  obtain ⟨host, hfound⟩ := OrderedMap.mem_keys_iff.1 hkey
  obtain ⟨j, hj, heq⟩ := List.mem_map.1
    (OrderedMap.mem_entries_ofList (OrderedMap.mem_entries_of_find? hfound))
  obtain ⟨hnative, hhost⟩ := Prod.mk.inj heq
  exact ⟨j, hj, hnative, hhost ▸ hfound⟩

end BoundModule

/-! ## Construction -/

theorem Store.cell?_adopt (s : Store) (ownership : Ownership) (className : String)
    (fields : OrderedMap String NativeValue) (label : Option String) :
    (s.adopt ownership className fields label).2.cell?
      (s.adopt ownership className fields label).1 = some ⟨className, fields, label, 0⟩ := by
  rw [cell?, reach?, adopt, wrapper_wrap]
  exact List.getElem?_concat_length

/-- A bound class makes an object of its native name. -/
theorem BoundClass.construct_of_pick (c : BoundClass) {args : List HostValue} {i : Nat}
    (h : SignaturePattern.pick c.registry c.exportName constructorName c.constructors args = .ok i)
    (s : Store) : ∃ h t cell, c.construct args s = .ok (h, t) ∧ h.className = c.native ∧
      t.cells = s.cells ++ [cell] ∧ t.cell? h = some cell ∧ cell.className = c.native := by
  let made := s.adopt .ownedByWrapper c.native c.initialFields none
  refine ⟨made.1, made.2, ⟨c.native, c.initialFields, none, 0⟩, ?_, rfl, rfl,
    s.cell?_adopt .., rfl⟩
  rw [construct, h]
  rfl

namespace BoundModule

variable {u : HeaderUnit} {p : ExportPolicy} {name entry : String} {d : Dispatcher}
  {args : List HostValue} {selected : Resolved}

/-- What a call selects is a class that takes the arguments, and a class is offered under the host
name that goes with it. -/
theorem exists_class_of_resolve (hm : u.exportModel p = .ok m)
    (hd : (bind name m).dispatchers.find? entry = some d)
    (hclasses : ∀ t ∈ m.templates, ∀ i ∈ t.instantiations, i.exportName = entry →
      i.item.class?.isSome) (hresolve : d.resolve args = .ok selected) :
    (∃ c ∈ m.allClasses, c.native = selected.native ∧ ∃ signatures,
      ExportedInstantiation.classSignatures (Registry.ofModel m) c = .ok signatures ∧
      ∃ s ∈ signatures, ∃ tier,
        s.tier? (Registry.ofModel m).isSubclass (args.map ArgTag.ofValue) = some tier) ∧
    ∃ c, .ofClass selected.binding c ∈ m.offers := by
  obtain ⟨t, group, catalogue, hoffer, hcatalogue, rfl⟩ := exists_of_find?_dispatchers hd
  obtain ⟨ht, hgroup, hshared⟩ := m.of_entryPoint_mem_offers hoffer
  obtain ⟨hregistry, hentries⟩ := t.exists_of_mem_catalogue hcatalogue
  have hmem (i : ExportedInstantiation) :
      i ∈ group ↔ i ∈ t.instantiations ∧ i.exportName = entry := by
    rw [(OrderedMap.mem_entries_groupBy.1 hgroup).1, List.mem_filter, decide_eq_true_iff]
  -- The entry that is selected comes from an instantiation `i` with the class `c`.
  obtain ⟨⟨e, selection⟩, hchoose, hselected⟩ := bind_eq_ok.1 hresolve
  obtain ⟨hplace, hbest⟩ := Catalogue.mem_matching.1 (Catalogue.mem_matching_of_choose hchoose)
  obtain ⟨i, hi, hname, hentry⟩ := hentries e (List.mem_of_getElem? hplace)
  obtain ⟨c, hitem⟩ := ExportedItem.exists_of_isSome (hclasses t ht i hi hname)
  obtain ⟨hnative, hsignatures⟩ := ExportedInstantiation.toEntry_ofClass hitem hentry
  -- The dispatcher gives the host name of the last instantiation `j` with the same native name.
  obtain ⟨j, hj, hjnative, hbinding⟩ := exists_binding ((hmem i).2 ⟨hi, hname⟩)
  obtain ⟨c', hitem'⟩ := ExportedItem.exists_of_isSome
    (hclasses t ht j ((hmem j).1 hj).1 ((hmem j).1 hj).2)
  have hoffered := m.class_mem_offers ht hgroup hj hitem'
  rw [← hnative] at hbinding
  cases hselected
  refine ⟨⟨c, ?_, ?_, e.signatures, hsignatures, ?_⟩, c', ?_⟩
  · exact List.mem_append_right _ (List.mem_flatMap.2 ⟨t, ht, List.mem_filterMap.2
      ⟨i, hi, congrArg ExportedItem.class? hitem⟩⟩)
  · exact (HeaderUnit.native_of_item hm ht hi hitem).trans hnative.symm
  · obtain ⟨s, hs, hreaches⟩ := (CatalogueEntry.reaches_of_best? hbest).1.attained
    rw [hregistry] at hreaches
    exact ⟨s, hs, selection.tier, SignaturePattern.tier?_eq_some_iff.2 hreaches⟩
  · rw [decide_eq_true hshared] at hoffered
    simp only [hbinding, Option.getD_some]
    exact hoffered

theorem construct_of_resolve {b : BoundModule} {c : BoundClass} {s t : Store} {h : Handle}
    (hd : b.dispatchers.find? entry = some d) (hresolve : d.resolve args = .ok selected)
    (hc : b.classes.find? selected.binding = some c) (hmade : c.construct args s = .ok (h, t)) :
    b.construct entry args s = .ok ((c, h), t) := by
  have hhost : b.constructed entry args = .ok selected.binding := by
    rw [constructed, hd]
    simp only [hresolve]
    rfl
  rw [construct, hhost]
  simp only [bind_apply, liftM_apply, hc, hmade, Except.map]
  rfl

/-- **A call through an entry point of classes constructs an object of the class that it selects**,
if the native name stands for one class and the host name for no other. -/
theorem construct_dispatched (hm : u.exportModel p = .ok m)
    (hd : (bind name m).dispatchers.find? entry = some d)
    (hclasses : ∀ t ∈ m.templates, ∀ i ∈ t.instantiations, i.exportName = entry →
      i.item.class?.isSome) (hresolve : d.resolve args = .ok selected)
    (hclass : m.OneClass selected.native) (hnative : m.OneNative selected.binding selected.native)
    (s : Store) : ∃ c h t cell, (bind name m).construct entry args s = .ok ((c, h), t) ∧
      c.native = selected.native ∧ h.className = selected.native ∧
      t.cells = s.cells ++ [cell] ∧ t.cell? h = some cell ∧ cell.className = selected.native := by
  obtain ⟨⟨c, hc, hcnative, signatures, hsignatures, pattern, hpattern, tier, htier⟩, c', hc'⟩ :=
    exists_class_of_resolve hm hd hclasses hresolve
  obtain ⟨found, hoffered, hfound⟩ := exists_find?_classes name hc'
  obtain rfl : found = c := hclass found (m.mem_allClasses_of_mem_offers hoffered) c hc
    (hnative.native_eq hoffered) hcnative
  have hconstructors := BoundClass.constructors_bind hsignatures selected.binding
  obtain ⟨i, hpick⟩ := SignaturePattern.pick_of_tier? (hconstructors ▸ hpattern) htier
    selected.binding BoundClass.constructorName
  obtain ⟨h, t, cell, hmade, hhandle, hcells, hcell, hcellName⟩ :=
    BoundClass.construct_of_pick (.bind (Registry.ofModel m) selected.binding found) hpick s
  exact ⟨_, h, t, cell, construct_of_resolve hd hresolve hfound hmade, hcnative,
    hhandle.trans hcnative, hcells, hcell, hcellName.trans hcnative⟩

/-- A class template for `int`, and with one more type that it is specialised for. -/
def boxes (special : TypeExpr) : HeaderUnit :=
  let int : TypeExpr := .fundamental "int"
  let box : ClassEntity := ⟨⟨["Box"]⟩, .structKind, [],
    [.constructor ⟨.isPublic, [⟨some "n", int, none⟩], .unmarked, none⟩], .unmarked, none⟩
  let instantiation (t : TypeExpr) (s : Specificity) (p : Provenance) : Instantiation :=
    ⟨"Box", [.type t], .ofList [("T", .type t)], s, p, .unmarked, "Box<" ++ t.text ++ ">",
      .ofClass box⟩
  { files := [], systemIncludes := [], aliases := {}, diagnostics := []
    entities := [.ofTemplate ⟨⟨["Box"]⟩, [⟨"T", .type, none⟩], .ofClass box,
      [instantiation special .full .specialization, instantiation int .primary .directive],
      .unmarked, none⟩] }

/-- The dispatcher for boxes, where the special one has the given names. -/
def boxDispatcher (r : Registry) (native host : String) : Dispatcher :=
  let entry (native : String) (s : Specificity) : CatalogueEntry :=
    ⟨native, s, [⟨[.scalar .i32], 1⟩]⟩
  ⟨⟨"Box", [entry native .full, entry "Box<int>" .primary], r⟩,
    .ofList [(native, host), ("Box<int>", "Box_int")]⟩

/-- A call reaches the box for `float`, and makes one. -/
theorem construct_dispatched_boxes : ∃ m d selected,
    (boxes (.fundamental "float")).exportModel .defaultPublic = .ok m ∧
    (bind "m" m).dispatchers.find? "Box" = some d ∧ d.resolve [.int 1] = .ok selected ∧
    selected.native = "Box<float>" ∧
    ∃ c h t cell, (bind "m" m).construct "Box" [.int 1] {} = .ok ((c, h), t) ∧
      c.native = selected.native ∧ h.className = selected.native ∧
      t.cells = [] ++ [cell] ∧ t.cell? h = some cell ∧ cell.className = selected.native := by
  let m : ExportModel := ((boxes (.fundamental "float")).exportModel .defaultPublic).toOption.get
    (by decide +kernel)
  have hd : (bind "m" m).dispatchers.find? "Box" =
      some (boxDispatcher (Registry.ofModel m) "Box<float>" "Box_float") := by
    refine find?_dispatchers_of_templates (t := m.templates.head (by decide +kernel)) rfl
      (by decide +kernel) (ExportedTemplate.catalogue_of_sorted (by decide +kernel) ?_)
    decide
  refine ⟨m, _, ⟨"Box<float>", "Box_float", 0⟩, rfl, hd, ?_, rfl, ?_⟩
  · decide +kernel
  · exact construct_dispatched (u := boxes (.fundamental "float")) (p := .defaultPublic) rfl
      hd (by decide +kernel) (by decide +kernel) (by decide +kernel)
      (by decide +kernel) {}

/-- The boxes for `int` and for pointers to `int` have one host name. A call that selects the latter
makes the former, which is registered later. -/
theorem construct_other_class : ∃ m d selected c h t,
    (boxes { TypeExpr.fundamental "int" with declarators := [.pointer false] }).exportModel
      .defaultPublic = .ok m ∧
    (bind "m" m).dispatchers.find? "Box" = some d ∧ d.resolve [.int 1] = .ok selected ∧
    selected.native = "Box<int*>" ∧
    (bind "m" m).construct "Box" [.int 1] {} = .ok ((c, h), t) ∧
    c.native = "Box<int>" ∧ h.className = "Box<int>" := by
  let m : ExportModel := ((boxes { TypeExpr.fundamental "int" with declarators :=
    [.pointer false] }).exportModel .defaultPublic).toOption.get (by decide +kernel)
  let c : BoundClass := ((bind "m" m).classes.find? "Box_int").get (by decide +kernel)
  have hd : (bind "m" m).dispatchers.find? "Box" =
      some (boxDispatcher (Registry.ofModel m) "Box<int*>" "Box_int") := by
    refine find?_dispatchers_of_templates (t := m.templates.head (by decide +kernel)) rfl
      (by decide +kernel) (ExportedTemplate.catalogue_of_sorted (by decide +kernel) ?_)
    decide
  have hresolve : (boxDispatcher (Registry.ofModel m) "Box<int*>" "Box_int").resolve [.int 1] =
      .ok ⟨"Box<int*>", "Box_int", 0⟩ := by decide +kernel
  have hpick : SignaturePattern.pick c.registry c.exportName BoundClass.constructorName
      c.constructors [.int 1] = .ok 0 := by decide +kernel
  have hnative : c.native = "Box<int>" := by decide +kernel
  obtain ⟨h, t, cell, hmade, hhandle, -⟩ := c.construct_of_pick hpick {}
  exact ⟨m, _, _, c, h, t, rfl, hd, hresolve, rfl,
    construct_of_resolve hd hresolve (Option.some_get _).symm hmade, hnative,
    hhandle.trans hnative⟩

end BoundModule
end Bindery
