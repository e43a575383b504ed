import Bindery.Proofs.Instance.Catalogue
import Mathlib.Data.List.Basic

/-!
# Where evidence goes

Specialisations are attached to their templates in one pass over the evidence. Which of them a
template ends up with depends on which hints there are, not on their order. Later passes change
nothing of a template but its catalogue, so the templates that a name denotes stay the same.

## Main definitions

* `Evidence.HasFull`, `Evidence.HasPartial`: a specialisation of the template at a place.
* `Evidence.Extends`: a list of entities with longer catalogues.
-/
namespace Bindery
namespace Evidence

/-! ## Attached specialisations -/

section Attached

variable (entities : List Entity) (evidence : List Evidence) (index : ℕ)

/-- A hint is a full specialisation that resolves to the template at a place. -/
def HasFull (f : FullSpec) : Prop :=
  ∃ e ∈ evidence, ∃ args entity mark, e.kind = .fullSpec args entity mark ∧
    placeFull? entities e args entity mark = some (index, f)

/-- A hint is a partial specialisation whose name denotes the template at a place first. -/
def HasPartial (p : PartialSpec) : Prop :=
  ∃ e ∈ evidence, e.kind = .partialSpec p ∧
    (templateCandidates entities e.scope p.pattern.isClass e.template).head? = some index

end Attached

/-- What a pass over a list has collected, from what each step adds. -/
theorem mem_foldl_iff {σ ε α : Type} {step : σ → ε → σ} {view : σ → List α}
    {adds : ε → α → Prop} (h : ∀ s e a, a ∈ view (step s e) ↔ a ∈ view s ∨ adds e a)
    (es : List ε) (s : σ) (a : α) :
    a ∈ view (es.foldl step s) ↔ a ∈ view s ∨ ∃ e ∈ es, adds e a := by
  induction es generalizing s with
  | nil => simp
  | cons e es ih =>
      rw [List.foldl_cons, ih, h]
      simp only [List.mem_cons, exists_eq_or_imp, or_assoc]

theorem mem_fulls_place (entities : List Entity) (p : Placement) (e : Evidence)
    (full : ℕ × FullSpec) :
    full ∈ (place entities p e).fulls ↔ full ∈ p.fulls ∨ ∃ args entity mark,
      e.kind = .fullSpec args entity mark ∧
        placeFull? entities e args entity mark = some full := by
  rw [place]
  split
  · next spec hkind => split <;> simp [hkind]
  · next args entity mark hkind =>
      split
      · next found hfound => simp [hkind, hfound, eq_comm]
      · next hnone => simp [hkind, hnone]
  · next hkind => simp [hkind]
  · next hkind => simp [hkind]

theorem mem_partials_place (entities : List Entity) (p : Placement) (e : Evidence)
    (spec : ℕ × PartialSpec × Option Location) :
    spec ∈ (place entities p e).partials ↔ spec ∈ p.partials ∨
      e.kind = .partialSpec spec.2.1 ∧ e.location = spec.2.2 ∧
        (templateCandidates entities e.scope spec.2.1.pattern.isClass e.template).head? =
          some spec.1 := by
  obtain ⟨index, q, location⟩ := spec
  rw [place]
  split
  · next spec hkind =>
      split
      · next i hi =>
          simp only [List.mem_append, List.mem_singleton, Prod.mk.injEq, hkind,
            EvidenceKind.partialSpec.injEq]
          refine or_congr_right ⟨?_, ?_⟩
          · rintro ⟨rfl, rfl, rfl⟩
            exact ⟨rfl, rfl, hi⟩
          · rintro ⟨rfl, rfl, hindex⟩
            exact ⟨Option.some.inj (hindex.symm.trans hi), rfl, rfl⟩
      · next hnone =>
          simp only [hkind, EvidenceKind.partialSpec.injEq]
          refine (or_iff_left ?_).symm
          rintro ⟨rfl, -, hindex⟩
          rw [hnone] at hindex
          cases hindex
  · next hkind => split <;> simp [hkind]
  · next hkind => simp [hkind]
  · next hkind => simp [hkind]

theorem mem_uses_place (entities : List Entity) (p : Placement) (e u : Evidence) :
    u ∈ (place entities p e).uses ↔ u ∈ p.uses ∨ u = e ∧
      ((∃ index requests, e.kind = .requests index requests) ∨
        ∃ args signature, e.kind = .explicit args signature) := by
  rw [place]
  split
  · next hkind => split <;> simp [hkind]
  · next hkind => split <;> simp [hkind]
  · next hkind => simp [hkind]
  · next hkind => simp [hkind]

variable {entities : List Entity}

/-- The full specialisations of a template, whatever the order of the evidence. -/
theorem mem_fulls_specsOf {evidence : List Evidence} {index : ℕ} {f : FullSpec} :
    f ∈ ((evidence.foldl (place entities) {}).specsOf index).fulls ↔
      HasFull entities evidence index f := by
  have hmem := mem_foldl_iff (mem_fulls_place entities) evidence {} (index, f)
  simp only [Placement.specsOf, List.mem_map, List.mem_filter, decide_eq_true_eq, Prod.exists]
  constructor
  · rintro ⟨i, g, ⟨hin, rfl⟩, rfl⟩
    exact (hmem.mp hin).resolve_left List.not_mem_nil
  · intro hfull
    exact ⟨index, f, ⟨hmem.mpr (.inr hfull), rfl⟩, rfl⟩

/-- The partial specialisations of a template, whatever the order of the evidence. -/
theorem mem_partials_specsOf {evidence : List Evidence} {index : ℕ} {p : PartialSpec} :
    (∃ location, (p, location) ∈ ((evidence.foldl (place entities) {}).specsOf index).partials) ↔
      HasPartial entities evidence index p := by
  have hmem (location : Option Location) :=
    mem_foldl_iff (mem_partials_place entities) evidence {} (index, p, location)
  simp only [Placement.specsOf, List.mem_map, List.mem_filter, decide_eq_true_eq, Prod.exists]
  constructor
  · rintro ⟨location, i, q, l, ⟨hin, rfl⟩, heq⟩
    cases heq
    obtain ⟨e, he, hkind, -, hindex⟩ := ((hmem _).mp hin).resolve_left List.not_mem_nil
    exact ⟨e, he, hkind, hindex⟩
  · rintro ⟨e, he, hkind, hindex⟩
    have hin := (hmem e.location).mpr (.inr ⟨e, he, hkind, rfl, hindex⟩)
    exact ⟨e.location, index, p, e.location, ⟨hin, rfl⟩, rfl⟩

theorem mem_uses {evidence : List Evidence} {u : Evidence} :
    u ∈ (evidence.foldl (place entities) {}).uses ↔ u ∈ evidence ∧
      ((∃ index requests, u.kind = .requests index requests) ∨
        ∃ args signature, u.kind = .explicit args signature) := by
  have hmem := mem_foldl_iff (mem_uses_place entities) evidence {} u
  rw [hmem]
  constructor
  · rintro (hin | ⟨e, he, rfl, hkind⟩)
    · exact absurd hin List.not_mem_nil
    · exact ⟨he, hkind⟩
  · rintro ⟨he, hkind⟩
    exact .inr ⟨u, he, rfl, hkind⟩

/-! ## Templates keep their places -/

/-- A list of entities that differs from another in the catalogues of its templates only, which
have been extended by the given instantiations. -/
structure Extends (entities grown : List Entity)
    (found : ℕ → TemplateEntity → List Instantiation) : Prop where
  length_eq : grown.length = entities.length
  template : ∀ i, templateAt? grown i =
    (templateAt? entities i).map fun t => t.extend (found i t)

theorem templateAt?_updateAt (entities : List Entity) (index : ℕ)
    (f : TemplateEntity → TemplateEntity) (i : ℕ) :
    templateAt? (updateAt entities index f) i =
      if index = i then (templateAt? entities i).map f else templateAt? entities i := by
  rw [templateAt?, templateAt?, updateAt, List.getElem?_modify]
  split
  · cases entities[i]? with
    | none => rfl
    | some e => cases e <;> rfl
  · cases entities[i]? <;> rfl

theorem length_updateAt (entities : List Entity) (index : ℕ)
    (f : TemplateEntity → TemplateEntity) :
    (updateAt entities index f).length = entities.length :=
  List.length_modify _ _ _

variable {grown : List Entity} {found : ℕ → TemplateEntity → List Instantiation}

/-- A name denotes the same templates when catalogues have grown. -/
theorem Extends.templateCandidates_eq (h : Extends entities grown found) (scope : List String)
    (isClass : Bool) (written : List String) :
    templateCandidates grown scope isClass written =
      templateCandidates entities scope isClass written := by
  have hnamed (path : List String) :
      templatesNamed grown isClass path = templatesNamed entities isClass path := by
    rw [templatesNamed, templatesNamed, h.length_eq]
    refine List.filter_congr fun i _ => ?_
    rw [h.template i]
    cases templateAt? entities i <;> rfl
  rw [templateCandidates, templateCandidates]
  simp only [hnamed]

/-- The arguments of an explicit instantiation lead to the same template, with the same
outcome, when catalogues have grown. -/
theorem Extends.placeExplicit?_eq (h : Extends entities grown found) (placement : Placement)
    (e : Evidence) (args : Option (List TemplateArg)) (signature : Option Signature) :
    placeExplicit? placement grown e args signature =
      placeExplicit? placement entities e args signature := by
  rw [placeExplicit?, placeExplicit?, h.templateCandidates_eq]
  congr 1
  funext i
  rw [h.template i]
  cases templateAt? entities i <;> rfl

/-! ## The instantiations of a hint -/

/-- The instantiations that a hint asks for at the template at a place. -/
def useFound (placement : Placement) (entities : List Entity) (e : Evidence) (index : ℕ)
    (t : TemplateEntity) : List Instantiation :=
  match e.kind with
  | .requests i requests =>
    if i = index then
      requests.filterMap fun r => (t.ofRequest (placement.specsOf index) r).toOption
    else []
  | .explicit args signature =>
    match placeExplicit? placement entities e args signature with
    | some (i, x) => if i = index then [x] else []
    | none => []
  | .partialSpec _ | .fullSpec .. => []

/-- Extending the template at a place leaves the others as they are. -/
theorem Extends.updateAt (h : Extends entities grown found) (index : ℕ)
    {more : List Instantiation} {added : ℕ → TemplateEntity → List Instantiation}
    (hadded : ∀ i t, templateAt? entities i = some t →
      added i t = if index = i then more else []) :
    Extends entities (Evidence.updateAt grown index (·.extend more))
      (fun i t => found i t ++ added i t) where
  length_eq := (length_updateAt grown index _).trans h.length_eq
  template := by
    intro i
    rw [templateAt?_updateAt, h.template i]
    cases ht : templateAt? entities i with
    | none => split <;> rfl
    | some t =>
        simp only [Option.map_some, hadded i t ht]
        split
        · rw [TemplateEntity.extend_extend]
        · rw [List.append_nil]

theorem Extends.append_nil (h : Extends entities grown found)
    {added : ℕ → TemplateEntity → List Instantiation}
    (hadded : ∀ i t, templateAt? entities i = some t → added i t = []) :
    Extends entities grown (fun i t => found i t ++ added i t) where
  length_eq := h.length_eq
  template := by
    intro i
    rw [h.template i]
    cases ht : templateAt? entities i with
    | none => rfl
    | some t => rw [Option.map_some, Option.map_some, hadded i t ht, List.append_nil]

/-- Following a hint extends catalogues by what the hint asks for. -/
theorem Extends.follow (h : Extends entities grown found) (placement : Placement)
    (diagnostics : List Diagnostic) (e : Evidence) :
    Extends entities (Evidence.follow placement (grown, diagnostics) e).1
      (fun i t => found i t ++ useFound placement entities e i t) := by
  rw [Evidence.follow]
  cases hkind : e.kind with
  | requests index requests =>
      dsimp only
      cases ht : templateAt? grown index with
      | none =>
          refine h.append_nil fun i t hi => ?_
          have hne : index ≠ i := by
            rintro rfl
            rw [h.template, hi] at ht
            cases ht
          simp [useFound, hkind, hne]
      | some t =>
          rw [h.template] at ht
          obtain ⟨t, hindex, rfl⟩ := Option.map_eq_some_iff.mp ht
          refine h.updateAt index fun i u hi => ?_
          simp only [useFound, hkind]
          split
          · next heq =>
              subst heq
              obtain rfl : t = u := Option.some.inj (hindex.symm.trans hi)
              simp only [partitionResults, List.filterMap_map]
              rfl
          · rfl
  | explicit args signature =>
      dsimp only
      rw [h.placeExplicit?_eq]
      cases hplace : placeExplicit? placement entities e args signature with
      | none =>
          refine h.append_nil fun i t _ => ?_
          simp [useFound, hkind, hplace]
      | some placed =>
          obtain ⟨index, x⟩ := placed
          refine h.updateAt index fun i t _ => ?_
          simp [useFound, hkind, hplace]
  | partialSpec spec => exact h.append_nil fun i t _ => by simp [useFound, hkind]
  | fullSpec args entity mark => exact h.append_nil fun i t _ => by simp [useFound, hkind]

/-- Following several hints extends catalogues by all that they ask for. -/
theorem Extends.foldl_follow (h : Extends entities grown found) (placement : Placement)
    (uses : List Evidence) (diagnostics : List Diagnostic) :
    Extends entities (uses.foldl (Evidence.follow placement) (grown, diagnostics)).1
      (fun i t => found i t ++ uses.flatMap (useFound placement entities · i t)) := by
  induction uses generalizing grown found diagnostics with
  | nil => exact h.append_nil fun _ _ _ => rfl
  | cons e uses ih =>
      have hstep := ih (h.follow placement diagnostics e)
        (Evidence.follow placement (grown, diagnostics) e).2
      simp only [List.append_assoc] at hstep
      exact hstep

end Evidence
end Bindery
