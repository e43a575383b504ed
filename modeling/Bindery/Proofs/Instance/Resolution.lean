import Bindery.Proofs.Fallible
import Bindery.Proofs.Instance.Placement
import Mathlib

/-!
# Catalogues after resolution

Resolution fills the catalogue of every template with what the evidence asks for. The result is
described from the evidence as a set: an entry is there for every specialisation, directive and
explicit instantiation that leads to the template, it is served by the most specific declaration
that any hint provides, and nothing is listed twice.

## Main definitions

* `Evidence.Wants`: the evidence asks for an instantiation of a template.
* `Evidence.Catalogues`: what the catalogue of a template has to be.
-/
namespace Bindery
namespace Evidence

/-! ## What resolution computes -/

/-- The instantiations that the specialisations of a template ask for. -/
def specFound (specs : Specializations) (t : TemplateEntity) : List Instantiation :=
  TemplateEntity.sortBySpecificity (specs.fulls.map t.ofFullSpec ++
    (partitionResults (specs.partials.flatMap fun (p, location) =>
      p.requests.map fun r => (t.ofPartialRequest specs p r, location))).1)

theorem extends_catalogueAll (placement : Placement) (entities : List Entity) :
    Extends entities (catalogueAll placement entities).1
      (fun i t => specFound (placement.specsOf i) t) where
  length_eq := by simp [catalogueAll]
  template := by
    intro i
    simp only [templateAt?, catalogueAll, List.map_map, List.getElem?_map, List.getElem?_zipIdx]
    cases entities[i]? with
    | none => rfl
    | some e =>
        cases e with
        | ofTemplate t => simp [Entity.template?, catalogueSpecs, specFound]
        | _ => rfl

/-- All instantiations that the evidence asks for at the template at a place. -/
def allFound (entities : List Entity) (evidence : List Evidence) (index : ℕ)
    (t : TemplateEntity) : List Instantiation :=
  let placement := evidence.foldl (place entities) {}
  specFound (placement.specsOf index) t ++
    placement.uses.flatMap (useFound placement entities · index t)

theorem templateAt?_map_ordered (entities : List Entity) (index : ℕ) :
    templateAt? (entities.map ordered) index = (templateAt? entities index).map fun t =>
      { t with instantiations := TemplateEntity.sortBySpecificity t.instantiations } := by
  rw [templateAt?, templateAt?, List.getElem?_map]
  cases entities[index]? with
  | none => rfl
  | some e => cases e <;> rfl

/-- A template comes out with a sorted catalogue of what was found. -/
theorem templateAt?_resolve (entities : List Entity) (evidence : List Evidence) (index : ℕ) :
    templateAt? (resolve entities evidence).1 index = (templateAt? entities index).map fun t =>
      { t with
        instantiations := TemplateEntity.sortBySpecificity
          ((allFound entities evidence index t).foldl TemplateEntity.listNew
            t.instantiations) } := by
  let placement := evidence.foldl (place entities) {}
  have hextends := (extends_catalogueAll placement entities).foldl_follow placement
    placement.uses (placement.diagnostics ++ (catalogueAll placement entities).2)
  have hresolve : (resolve entities evidence).1 = (placement.uses.foldl (follow placement)
      ((catalogueAll placement entities).1,
        placement.diagnostics ++ (catalogueAll placement entities).2)).1.map ordered := rfl
  rw [hresolve, templateAt?_map_ordered, hextends.template index, Option.map_map]
  rfl

/-! ## What the evidence asks for -/

/-- The template that an explicit instantiation leads to, the first that its name denotes and
that its arguments can be completed for, and the arguments there. -/
def explicitTarget? (entities : List Entity) (e : Evidence) (args : Option (List TemplateArg))
    (signature : Option Signature) : Option (ℕ × List TemplateArg) :=
  (templateCandidates entities e.scope signature.isNone e.template).findSome? fun i => do
    let t ← templateAt? entities i
    return (i, ← t.explicitArgs? args signature)

/-- The evidence asks for an instantiation of the template at a place under an export name: a
full specialisation does, a directive on the template or on one of its partial specialisations
whose arguments can be completed, or an explicit instantiation that leads there. -/
inductive Wants (entities : List Entity) (evidence : List Evidence) (index : ℕ)
    (t : TemplateEntity) : String → List TemplateArg → Prop where
  | full {f : FullSpec} (hf : HasFull entities evidence index f) :
      Wants entities evidence index t t.name.name f.args
  | request {e : Evidence} {requests : List InstanceRequest} {r : InstanceRequest}
      {given args : List TemplateArg} (he : e ∈ evidence)
      (hkind : e.kind = .requests index requests) (hr : r ∈ requests)
      (hread : r.readArgs = .ok given) (hargs : TemplateParam.complete t.params given = .ok args) :
      Wants entities evidence index t (r.name.getD t.name.name) args
  | partialRequest {p : PartialSpec} {r : InstanceRequest} {given own : List TemplateArg}
      (hp : HasPartial entities evidence index p) (hr : r ∈ p.requests)
      (hread : r.readArgs = .ok given) (hown : TemplateParam.complete p.params given = .ok own)
      (harity : p.args.length = t.params.length) :
      Wants entities evidence index t (r.name.getD t.name.name)
        (p.args.map (TemplateArg.substitute (TemplateParam.bind p.params own)))
  | explicit {e : Evidence} {given : Option (List TemplateArg)} {signature : Option Signature}
      {args : List TemplateArg} (he : e ∈ evidence) (hkind : e.kind = .explicit given signature)
      (htarget : explicitTarget? entities e given signature = some (index, args)) :
      Wants entities evidence index t t.name.name args

/-! ## From the evidence to what is found -/

variable {entities : List Entity} {evidence : List Evidence} {index : ℕ} {t : TemplateEntity}

/-- What a directive on the template asks for. -/
theorem ofRequest_eq_ok {specs : Specializations} {r : InstanceRequest} {x : Instantiation} :
    t.ofRequest specs r = .ok x ↔ ∃ given args, r.readArgs = .ok given ∧
      TemplateParam.complete t.params given = .ok args ∧
      t.instantiate specs args (r.name.getD t.name.name) .directive t.mark = .ok x := by
  simp only [TemplateEntity.ofRequest, bind_eq_ok, exists_and_left]

/-- What a directive on a partial specialisation asks for. -/
theorem ofPartialRequest_eq_ok {specs : Specializations} {p : PartialSpec}
    {r : InstanceRequest} {x : Instantiation} :
    t.ofPartialRequest specs p r = .ok x ↔ ∃ given own, r.readArgs = .ok given ∧
      TemplateParam.complete p.params given = .ok own ∧
      t.instantiate specs
        (p.args.map (TemplateArg.substitute (TemplateParam.bind p.params own)))
        (r.name.getD t.name.name) .directive (.inherit p.mark t.mark) = .ok x := by
  simp only [TemplateEntity.ofPartialRequest, bind_eq_ok, exists_and_left]

/-- The explicit instantiation found at a template has the arguments of the target. -/
theorem map_placeExplicit? (entities : List Entity) (placement : Placement) (e : Evidence)
    (args : Option (List TemplateArg)) (signature : Option Signature) :
    (placeExplicit? placement entities e args signature).map (fun r => (r.1, r.2.args)) =
      explicitTarget? entities e args signature := by
  rw [placeExplicit?, explicitTarget?, List.map_findSome?]
  congr 1
  funext i
  rw [Function.comp_apply]
  cases templateAt? entities i with
  | none => rfl
  | some t =>
      simp only [Option.bind_eq_bind, Option.bind_some, Option.pure_def,
        TemplateEntity.ofExplicit?]
      cases hargs : t.explicitArgs? args signature with
      | none => simp
      | some as =>
          obtain ⟨x, hx⟩ := TemplateEntity.exists_instantiate
            (TemplateEntity.length_explicitArgs? hargs) (placement.specsOf i) t.name.name
            .explicitInstantiation t.mark
          have hxargs := (TemplateEntity.instantiate_eq_ok hx).2.1
          simp [hx, hxargs, Except.toOption]

theorem placeExplicit?_eq_some (ht : templateAt? entities index = some t)
    {placement : Placement} {e : Evidence} {given : Option (List TemplateArg)}
    {signature : Option Signature} {x : Instantiation}
    (h : placeExplicit? placement entities e given signature = some (index, x)) :
    ∃ args, t.instantiate (placement.specsOf index) args t.name.name .explicitInstantiation
      t.mark = .ok x := by
  obtain ⟨i, -, hi⟩ := List.exists_of_findSome?_eq_some h
  simp only [TemplateEntity.ofExplicit?, Option.bind_eq_bind, Option.bind_eq_some_iff,
    Option.pure_def, Option.some.injEq, Prod.mk.injEq, toOption_eq_some] at hi
  obtain ⟨u, hu, y, ⟨args, -, hy⟩, rfl, rfl⟩ := hi
  obtain rfl : u = t := Option.some.inj (hu.symm.trans ht)
  exact ⟨args, hy⟩

/-- The arguments of a full specialisation are as many as its template has parameters. -/
theorem HasFull.length_args {f : FullSpec} (h : HasFull entities evidence index f)
    (ht : templateAt? entities index = some t) : f.args.length = t.params.length := by
  obtain ⟨e, -, args, entity, mark, -, hplace⟩ := h
  obtain ⟨i, -, hi⟩ := List.exists_of_findSome?_eq_some hplace
  simp only [Option.bind_eq_bind, Option.bind_eq_some_iff, Option.pure_def, Option.some.injEq,
    Prod.mk.injEq] at hi
  obtain ⟨u, hu, done, hdone, rfl, rfl⟩ := hi
  obtain rfl : u = t := Option.some.inj (hu.symm.trans ht)
  exact length_fullArgs? hdone

/-- Binding arguments with the specialisations that the evidence provides. -/
theorem instantiate_specsOf {args : List TemplateArg} {name : String} {provenance : Provenance}
    {mark : ExportMark} {x : Instantiation}
    (h : t.instantiate ((evidence.foldl (place entities) {}).specsOf index) args name provenance
      mark = .ok x) :
    x.exportName = name ∧ x.args = args ∧ t.Fits x ∧
      Served (HasFull entities evidence index) (HasPartial entities evidence index) x.args
        x.specificity := by
  obtain ⟨hname, hargs, hfits, hserved⟩ := TemplateEntity.instantiate_eq_ok h
  exact ⟨hname, hargs, hfits,
    hserved.congr (fun _ => mem_fulls_specsOf) fun _ => mem_partials_specsOf⟩

theorem mem_specFound {specs : Specializations} {x : Instantiation} :
    x ∈ specFound specs t ↔ (∃ f ∈ specs.fulls, t.ofFullSpec f = x) ∨
      ∃ p location, (p, location) ∈ specs.partials ∧ ∃ r ∈ p.requests,
        t.ofPartialRequest specs p r = .ok x := by
  simp only [specFound, TemplateEntity.sortBySpecificity, List.mem_mergeSort, List.mem_append,
    List.mem_map, partitionResults, List.mem_filterMap, List.mem_flatMap, toOption_eq_some,
    Prod.exists, Prod.mk.injEq]
  refine or_congr_right ⟨?_, ?_⟩
  · rintro ⟨result, l, ⟨p, location, hp, r, hr, rfl, -⟩, hx⟩
    exact ⟨p, location, hp, r, hr, hx⟩
  · rintro ⟨p, location, hp, r, hr, hx⟩
    exact ⟨_, location, ⟨p, location, hp, r, hr, rfl, rfl⟩, hx⟩

theorem mem_useFound {placement : Placement} {e : Evidence} {x : Instantiation} :
    x ∈ useFound placement entities e index t ↔
      (∃ requests, e.kind = .requests index requests ∧
        ∃ r ∈ requests, t.ofRequest (placement.specsOf index) r = .ok x) ∨
      ∃ args signature, e.kind = .explicit args signature ∧
        placeExplicit? placement entities e args signature = some (index, x) := by
  rw [useFound]
  split
  · next i requests hkind =>
      split
      · next heq =>
          subst heq
          simp [hkind, toOption_eq_some]
      · next hne => simp [hkind, hne]
  · next args signature hkind =>
      split
      · next i y hplace =>
          split
          · next heq => subst heq; simp [hkind, hplace, eq_comm]
          · next hne => simp [hkind, hplace, hne]
      · next hnone => simp [hkind, hnone]
  · next hkind => simp [hkind]
  · next hkind => simp [hkind]

/-- Every instantiation that is found fits its template, is served by the right sort of
declaration, and is asked for. -/
theorem facts_of_mem_allFound (ht : templateAt? entities index = some t) {x : Instantiation}
    (h : x ∈ allFound entities evidence index t) :
    t.Fits x ∧ Served (HasFull entities evidence index) (HasPartial entities evidence index)
      x.args x.specificity ∧ Wants entities evidence index t x.exportName x.args := by
  rcases List.mem_append.mp h with h | h
  · rcases mem_specFound.mp h with ⟨f, hf, rfl⟩ | ⟨p, location, hp, r, hr, hx⟩
    · have hfull := mem_fulls_specsOf.mp hf
      exact ⟨⟨hfull.length_args ht, rfl, rfl⟩,
        .full hfull (TemplateArg.denoteSame_self f.args), .full hfull⟩
    · have hpartial := mem_partials_specsOf.mp ⟨location, hp⟩
      obtain ⟨given, own, hread, hown, hx⟩ := ofPartialRequest_eq_ok.mp hx
      obtain ⟨hname, hargs, hfits, hserved⟩ := instantiate_specsOf hx
      have harity : p.args.length = t.params.length := by
        rw [← hfits.arity, hargs, List.length_map]
      refine ⟨hfits, hserved, ?_⟩
      rw [hname, hargs]
      exact .partialRequest hpartial hr hread hown harity
  · obtain ⟨e, he, hx⟩ := List.mem_flatMap.mp h
    have he := (mem_uses.mp he).1
    rcases mem_useFound.mp hx with ⟨requests, hkind, r, hr, hx⟩ | ⟨given, signature, hkind, hx⟩
    · obtain ⟨given, args, hread, hcomplete, hx⟩ := ofRequest_eq_ok.mp hx
      obtain ⟨hname, hargs, hfits, hserved⟩ := instantiate_specsOf hx
      refine ⟨hfits, hserved, ?_⟩
      rw [hname, hargs]
      exact .request he hkind hr hread hcomplete
    · have htarget := map_placeExplicit? entities (evidence.foldl (place entities) {}) e given
        signature
      obtain ⟨args, hinst⟩ := placeExplicit?_eq_some ht hx
      obtain ⟨hname, -, hfits, hserved⟩ := instantiate_specsOf hinst
      rw [hx, Option.map_some] at htarget
      refine ⟨hfits, hserved, ?_⟩
      rw [hname]
      exact .explicit he hkind htarget.symm

/-- Every instantiation that is asked for is found. -/
theorem exists_mem_allFound (ht : templateAt? entities index = some t) {name : String}
    {args : List TemplateArg} (h : Wants entities evidence index t name args) :
    ∃ x ∈ allFound entities evidence index t, x.exportName = name ∧ x.args = args := by
  let placement := evidence.foldl (place entities) {}
  cases h with
  | @full f hf =>
      refine ⟨t.ofFullSpec f, List.mem_append_left _ (mem_specFound.mpr (.inl ?_)), rfl, rfl⟩
      exact ⟨f, mem_fulls_specsOf.mpr hf, rfl⟩
  | @request e requests r given args he hkind hr hread hargs =>
      obtain ⟨x, hx⟩ := TemplateEntity.exists_instantiate (TemplateParam.length_complete hargs)
        (placement.specsOf index) (r.name.getD t.name.name) .directive t.mark
      obtain ⟨hname, hxargs, -⟩ := TemplateEntity.instantiate_eq_ok hx
      refine ⟨x, List.mem_append_right _ (List.mem_flatMap.mpr ⟨e, ?_, ?_⟩), hname, hxargs⟩
      · exact mem_uses.mpr ⟨he, .inl ⟨index, requests, hkind⟩⟩
      · exact mem_useFound.mpr (.inl ⟨requests, hkind, r, hr,
          ofRequest_eq_ok.mpr ⟨given, args, hread, hargs, hx⟩⟩)
  | @partialRequest p r given own hp hr hread hown harity =>
      obtain ⟨location, hmem⟩ := mem_partials_specsOf.mpr hp
      have hlength : (p.args.map (TemplateArg.substitute
          (TemplateParam.bind p.params own))).length = t.params.length := by
        rw [List.length_map, harity]
      obtain ⟨x, hx⟩ := TemplateEntity.exists_instantiate hlength (placement.specsOf index)
        (r.name.getD t.name.name) .directive (.inherit p.mark t.mark)
      obtain ⟨hname, hxargs, -⟩ := TemplateEntity.instantiate_eq_ok hx
      refine ⟨x, List.mem_append_left _ (mem_specFound.mpr (.inr ?_)), hname, hxargs⟩
      exact ⟨p, location, hmem, r, hr, ofPartialRequest_eq_ok.mpr ⟨given, own, hread, hown, hx⟩⟩
  | @explicit e given signature args he hkind htarget =>
      rw [← map_placeExplicit? entities placement] at htarget
      obtain ⟨⟨i, x⟩, hplace, heq⟩ := Option.map_eq_some_iff.mp htarget
      cases heq
      obtain ⟨as, hx⟩ := placeExplicit?_eq_some ht hplace
      have hname := (TemplateEntity.instantiate_eq_ok hx).1
      refine ⟨x, List.mem_append_right _ (List.mem_flatMap.mpr ⟨e, ?_, ?_⟩), hname, rfl⟩
      · exact mem_uses.mpr ⟨he, .inr ⟨given, signature, hkind⟩⟩
      · exact mem_useFound.mpr (.inr ⟨given, signature, hkind, hplace⟩)

/-! ## Resolved catalogues -/

/-- No template has anything in its catalogue yet. -/
def Uncatalogued (entities : List Entity) : Prop :=
  ∀ t : TemplateEntity, .ofTemplate t ∈ entities → t.instantiations = []

theorem mem_of_templateAt? (h : templateAt? entities index = some t) :
    .ofTemplate t ∈ entities := by
  obtain ⟨e, he, hte⟩ := Option.bind_eq_some_iff.mp h
  have hmem := List.mem_of_getElem? he
  cases e <;> cases hte
  exact hmem

/-- What the catalogue of the template at a place has to be. -/
structure Catalogues (entities : List Entity) (evidence : List Evidence) (index : ℕ)
    (t : TemplateEntity) (catalogue : List Instantiation) : Prop where
  sorted : catalogue.Pairwise fun a b => a.specificity.rank ≤ b.specificity.rank
  fits : ∀ x ∈ catalogue, t.Fits x
  /-- Every name is bound once, where it is first met, to the argument of the last parameter that
  has it. -/
  bound : ∀ x ∈ catalogue,
    x.bindings.keys = (t.params.map TemplateParam.name).eraseDups ∧
    ∀ name, x.bindings.find? name =
      (((t.params.map TemplateParam.name).zip x.args).reverse.find? (·.1 = name)).map Prod.snd
  /-- Where the parameters have different names, these are paired with the arguments in order. -/
  paired : (t.params.map TemplateParam.name).Nodup → ∀ x ∈ catalogue,
    x.bindings.entries = (t.params.map TemplateParam.name).zip x.args
  distinct : catalogue.Pairwise fun a b =>
    ¬ (a.exportName = b.exportName ∧ TemplateArg.denoteSame a.args b.args = true)
  served : ∀ x ∈ catalogue, Served (HasFull entities evidence index)
    (HasPartial entities evidence index) x.args x.specificity
  wanted : ∀ x ∈ catalogue, Wants entities evidence index t x.exportName x.args
  complete : ∀ name args, Wants entities evidence index t name args →
    ∃ x ∈ catalogue, x.exportName = name ∧ TemplateArg.denoteSame x.args args = true

/-- The sorted list of what was found is the catalogue that a template has to have. -/
theorem catalogues_allFound (ht : templateAt? entities index = some t) :
    Catalogues entities evidence index t (TemplateEntity.sortBySpecificity
      ((allFound entities evidence index t).foldl TemplateEntity.listNew [])) := by
  have hmem {x : Instantiation} (hx : x ∈ TemplateEntity.sortBySpecificity
      ((allFound entities evidence index t).foldl TemplateEntity.listNew [])) :=
    facts_of_mem_allFound ht
      ((TemplateEntity.mem_foldl_listNew (List.mem_mergeSort.mp hx)).resolve_left List.not_mem_nil)
  have hdistinct := TemplateEntity.pairwise_foldl_listNew (allFound entities evidence index t)
    List.Pairwise.nil
  refine ⟨?_, fun x hx => (hmem hx).1, ?_, ?_, ?_, fun x hx => (hmem hx).2.1,
    fun x hx => (hmem hx).2.2, ?_⟩
  · exact pairwise_sort_rank (fun x : Instantiation => x.specificity.rank) _
  · intro x hx
    have hfits := (hmem hx).1
    rw [hfits.bindings]
    exact ⟨TemplateParam.keys_bind hfits.arity, TemplateParam.find?_bind t.params x.args⟩
  · intro hnodup x hx
    rw [(hmem hx).1.bindings]
    exact TemplateParam.entries_bind hnodup (hmem hx).1.arity
  · -- Sorting permutes the list, and repeating is symmetric.
    have hsymm {a b : Instantiation} (h : TemplateEntity.isRepeat a b = false) :
        TemplateEntity.isRepeat b a = false := TemplateEntity.isRepeat_comm a b ▸ h
    refine ((List.mergeSort_perm _ _).symm.pairwise hdistinct hsymm).imp fun hab hsame => ?_
    simp [TemplateEntity.isRepeat, hsame] at hab
  · intro name args hwants
    obtain ⟨x, hx, rfl, rfl⟩ := exists_mem_allFound ht hwants
    obtain ⟨y, hy, hrepeat⟩ := TemplateEntity.exists_mem_foldl_listNew hx []
    refine ⟨y, List.mem_mergeSort.mpr hy, ?_⟩
    simpa [TemplateEntity.isRepeat] using hrepeat

/-- A template comes out unchanged but for its catalogue. -/
theorem exists_catalogue (hfresh : Uncatalogued entities)
    (ht : templateAt? entities index = some t) : ∃ catalogue,
      templateAt? (resolve entities evidence).1 index =
        some { t with instantiations := catalogue } ∧
      Catalogues entities evidence index t catalogue := by
  have hresolve := templateAt?_resolve entities evidence index
  rw [ht, Option.map_some, hfresh t (mem_of_templateAt? ht)] at hresolve
  exact ⟨_, hresolve, catalogues_allFound ht⟩

/-- After resolution every template is in its place, unchanged but for its catalogue, and the
catalogue is sorted, lists nothing twice, and has what the evidence asks for. -/
theorem resolve_catalogues {entities : List Entity} (hfresh : Uncatalogued entities)
    (evidence : List Evidence) (index : ℕ) :
    (templateAt? entities index = none →
      templateAt? (resolve entities evidence).1 index = none) ∧
    ∀ t, templateAt? entities index = some t → ∃ catalogue,
      templateAt? (resolve entities evidence).1 index =
        some { t with instantiations := catalogue } ∧
      Catalogues entities evidence index t catalogue := by
  refine ⟨?_, fun t ht => exists_catalogue hfresh ht⟩
  intro hnone
  rw [templateAt?_resolve, hnone]
  rfl

/-- A directive that stands in front of a full specialisation is served by it. -/
theorem resolve_catalogues_early_directive : ∃ t x,
    templateAt? (resolve
      [.ofTemplate ⟨⟨["ns", "Box"]⟩, [⟨"T", .type, some (.type (.fundamental "int"))⟩],
        .ofClass default, [], default, none⟩]
      [⟨[], [], .requests 0 [⟨some "IntBox", []⟩], none⟩,
        ⟨["ns"], ["Box"], .fullSpec (some []) (.ofClass default) none, none⟩]).1 0 = some t ∧
    x ∈ t.instantiations ∧ x.exportName = "IntBox" ∧ x.specificity = .full := by
  let box : TemplateEntity := ⟨⟨["ns", "Box"]⟩,
    [⟨"T", .type, some (.type (.fundamental "int"))⟩], .ofClass default, [], default, none⟩
  let directive : Evidence := ⟨[], [], .requests 0 [⟨some "IntBox", []⟩], none⟩
  let special : Evidence :=
    ⟨["ns"], ["Box"], .fullSpec (some []) (.ofClass default) none, none⟩
  have hfresh : Uncatalogued [.ofTemplate box] := by
    intro t ht
    cases List.mem_singleton.mp ht
    rfl
  obtain ⟨catalogue, hcatalogue, hspec⟩ :=
    (resolve_catalogues hfresh [directive, special] 0).2 box rfl
  have hfull : HasFull [.ofTemplate box] [directive, special] 0
      ⟨[.type (.fundamental "int")], .ofClass default, none⟩ :=
    ⟨special, by simp, some [], .ofClass default, none, rfl, rfl⟩
  obtain ⟨x, hx, hname, hsame⟩ := hspec.complete "IntBox" [.type (.fundamental "int")]
    (.request (e := directive) (r := ⟨some "IntBox", []⟩) List.mem_cons_self rfl
      List.mem_cons_self rfl rfl)
  rw [TemplateArg.denoteSame_comm] at hsame
  have hspecificity : x.specificity = .full := by
    have hserved := hspec.served x hx
    generalize x.specificity = specificity at hserved
    cases hserved with
    | full => rfl
    | partialMatch hfulls => rw [hfulls _ hfull] at hsame; cases hsame
    | primary hfulls => rw [hfulls _ hfull] at hsame; cases hsame
  exact ⟨_, x, hcatalogue, hx, hname, hspecificity⟩

/-! ## Overloads of a function template -/

/-- A function template of one type parameter `T`, whose function takes one argument. -/
def unaryTemplate (type : TypeExpr) : TemplateEntity :=
  ⟨⟨["f"]⟩, [⟨"T", .type, none⟩],
    .ofFunction { (default : FunctionEntity) with
      signature := ⟨[⟨none, type, none⟩], .fundamental "void"⟩ },
    [], default, none⟩

/-- A pointer to a type. -/
def pointerTo (type : TypeExpr) : TypeExpr := { type with declarators := [.pointer false] }

/-- The templates `f(T)` and `f(T*)`. -/
def overloads : List Entity :=
  [.ofTemplate (unaryTemplate (.named "T")), .ofTemplate (unaryTemplate (pointerTo (.named "T")))]

/-- The explicit instantiation `f(int*)`. -/
def explicitPointer : Evidence :=
  ⟨[], ["f"], .explicit none
    (some ⟨[⟨none, pointerTo (.fundamental "int"), none⟩], .fundamental "void"⟩), none⟩

/-- Nothing is asked for at the second overload. -/
theorem not_wants_second_overload (name : String) (args : List TemplateArg) :
    ¬ Wants overloads [explicitPointer] 1 (unaryTemplate (pointerTo (.named "T"))) name args := by
  intro hwants
  cases hwants with
  | full hf =>
      obtain ⟨e, he, args, entity, mark, hkind, -⟩ := hf
      rw [List.mem_singleton.mp he] at hkind
      cases hkind
  | request he hkind =>
      rw [List.mem_singleton.mp he] at hkind
      cases hkind
  | partialRequest hp =>
      obtain ⟨e, he, hkind, -⟩ := hp
      rw [List.mem_singleton.mp he] at hkind
      cases hkind
  | explicit he hkind htarget =>
      rw [List.mem_singleton.mp he] at hkind htarget
      cases hkind
      have hfirst : (explicitTarget? overloads explicitPointer none
          (some ⟨[⟨none, pointerTo (.fundamental "int"), none⟩], .fundamental "void"⟩)).map
            Prod.fst = some 0 := by cbv
      rw [htarget] at hfirst
      cases hfirst

/-- Explicit instantiations are listed at every template that they have arguments for. -/
def ListsExplicit (entities : List Entity) (evidence : List Evidence) : Prop :=
  ∀ e ∈ evidence, ∀ given signature, e.kind = .explicit given signature →
    ∀ i ∈ templateCandidates entities e.scope signature.isNone e.template,
    ∀ t t' args, templateAt? entities i = some t →
    t.explicitArgs? given signature = some args →
    templateAt? (resolve entities evidence).1 i = some t' →
    ∃ x ∈ t'.instantiations, x.exportName = t.name.name ∧
      TemplateArg.denoteSame x.args args = true

/-- An explicit instantiation may have arguments for several overloads of a function template,
and is listed at the first of them only. -/
theorem not_listsExplicit_overloads : ¬ ListsExplicit overloads [explicitPointer] := by
  intro hlisted
  have ht : templateAt? overloads 1 = some (unaryTemplate (pointerTo (.named "T"))) := rfl
  have hresolve := templateAt?_resolve overloads [explicitPointer] 1
  rw [ht, Option.map_some] at hresolve
  obtain ⟨x, hx, -⟩ := hlisted explicitPointer List.mem_cons_self none _ rfl 1 (by decide) _ _
    [.type (.fundamental "int")] ht (by cbv) hresolve
  have hfound := (TemplateEntity.mem_foldl_listNew (List.mem_mergeSort.mp hx)).resolve_left
    List.not_mem_nil
  exact not_wants_second_overload _ _ (facts_of_mem_allFound ht hfound).2.2

/-! ## Parameters of one name -/

/-- Bindings pair the names of the parameters with the arguments in order. -/
def PairsInOrder (entities : List Entity) (evidence : List Evidence) : Prop :=
  ∀ i t t', templateAt? entities i = some t →
    templateAt? (resolve entities evidence).1 i = some t' →
    ∀ x ∈ t'.instantiations,
      x.bindings.entries = (t.params.map TemplateParam.name).zip x.args

/-- A class template whose second parameter has no name, and so gets that of the first. -/
def sameNames : TemplateEntity :=
  ⟨⟨["P"]⟩, [⟨"_1", .type, none⟩, ⟨"_1", .type, none⟩], .ofClass default, [], default, none⟩

theorem uncatalogued_sameNames : Uncatalogued [.ofTemplate sameNames] := by
  intro t ht
  cases List.mem_singleton.mp ht
  rfl

/-- A directive with two arguments. -/
def twoArguments : Evidence :=
  ⟨[], [], .requests 0 [⟨none, ["int", "double"]⟩], none⟩

/-- Two parameters of one name are bound once. -/
theorem not_pairsInOrder_sameNames : ¬ PairsInOrder [.ofTemplate sameNames] [twoArguments] := by
  intro hpairs
  obtain ⟨catalogue, hcatalogue, hspec⟩ : ∃ catalogue,
      templateAt? (resolve [.ofTemplate sameNames] [twoArguments]).1 0 =
        some { sameNames with instantiations := catalogue } ∧
      Catalogues [.ofTemplate sameNames] [twoArguments] 0 sameNames catalogue :=
    exists_catalogue uncatalogued_sameNames rfl
  obtain ⟨x, hx, -⟩ := hspec.complete "P"
    [.type (.fundamental "int"), .type (.fundamental "double")]
    (.request (e := twoArguments) (r := ⟨none, ["int", "double"]⟩) List.mem_cons_self rfl
      List.mem_cons_self (by cbv) (by cbv))
  have hpaired := hpairs 0 sameNames _ rfl hcatalogue x hx
  have hkeys := (hspec.bound x hx).1
  rw [OrderedMap.keys, hpaired, List.map_fst_zip (by rw [(hspec.fits x hx).arity]; rfl)] at hkeys
  exact absurd hkeys (by decide)

/-- Neither is every explicit instantiation listed wherever it has arguments, nor do bindings pair
parameters and arguments where parameters share a name. -/
theorem not_listed_and_not_paired :
    Uncatalogued overloads ∧ ¬ ListsExplicit overloads [explicitPointer] ∧
      Uncatalogued [.ofTemplate sameNames] ∧
      ¬ PairsInOrder [.ofTemplate sameNames] [twoArguments] := by
  refine ⟨?_, not_listsExplicit_overloads, uncatalogued_sameNames, not_pairsInOrder_sameNames⟩
  intro t ht
  rcases List.mem_pair.mp ht with h | h <;> cases h <;> rfl

end Evidence
end Bindery
