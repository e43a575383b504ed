import Bindery.Proofs.Instance.Resolution
import Bindery.Proofs.Survey.Members
import Bindery.Proofs.Survey.Steps
import Bindery.Proofs.Survey.Unit

/-!
# The declarations behind instantiations

What an entry of a catalogue is made of depends on the sort of declaration that serves it. A full
specialisation is taken as it stands. The pattern of a partial specialisation, and that of the
template itself, come with their parameters replaced: the one under the bindings that its own
arguments match, the other under the bindings of the entry. So the members of an instantiation are
members of some declaration in the header, with their types changed in a known way.

## Main definitions

* `TemplateEntity.Embodies`: an entry is made from the declaration that serves it.

## Main statements

* `HeaderUnit.exists_embodied`: this holds of every entry in a unit.
* `HeaderUnit.allMembers_classes`, `HeaderUnit.allMembers_instantiation`: members of classes, also
  of those behind instantiations, go back to the members that the walk built.
-/
namespace Bindery

/-- An entry is made from the declaration that serves it, given the specialisations that there
are. -/
inductive TemplateEntity.Embodies (t : TemplateEntity) (fulls : FullSpec → Prop)
    (partials : PartialSpec → Prop) (x : Instantiation) : Prop where
  | full {f : FullSpec} (hf : fulls f) (hserved : x.specificity = .full)
      (hentity : x.entity = f.entity)
  | partialMatch {p : PartialSpec} {b : Bindings} (hp : partials p)
      (hmatch : p.match? x.args = some b) (hserved : x.specificity = .partialMatch)
      (hentity : x.entity = p.pattern.substitute b)
  | primary (hserved : x.specificity = .primary)
      (hentity : x.entity = t.pattern.substitute x.bindings)

/-- Binding arguments makes the entry from the declaration that it finds. -/
theorem TemplateEntity.embodies_of_instantiate {t : TemplateEntity} {specs : Specializations}
    {args : List TemplateArg} {name : String} {provenance : Provenance} {mark : ExportMark}
    {x : Instantiation} (h : t.instantiate specs args name provenance mark = .ok x) :
    t.Embodies (· ∈ specs.fulls) (fun p => ∃ place, (p, place) ∈ specs.partials) x := by
  rw [instantiate] at h
  split at h
  · cases h
  · dsimp only at h
    split at h
    · next full hfull =>
      cases h
      exact .full (List.mem_of_find?_eq_some hfull) rfl rfl
    · split at h
      · next p b hfound =>
        cases h
        obtain ⟨⟨q, place⟩, hq, hmatch⟩ := List.exists_of_findSome?_eq_some hfound
        obtain ⟨c, hc, heq⟩ := Option.map_eq_some_iff.1 hmatch
        cases heq
        exact .partialMatch ⟨place, hq⟩ hc rfl rfl
      · cases h
        exact .primary rfl rfl

namespace Evidence

variable {entities : List Entity} {evidence : List Evidence} {index : ℕ} {t : TemplateEntity}
  {x : Instantiation}

theorem embodies_specsOf {args : List TemplateArg} {name : String} {provenance : Provenance}
    {mark : ExportMark}
    (h : t.instantiate ((evidence.foldl (place entities) {}).specsOf index) args name provenance
      mark = .ok x) :
    t.Embodies (HasFull entities evidence index) (HasPartial entities evidence index) x := by
  cases TemplateEntity.embodies_of_instantiate h with
  | full hf hserved hentity => exact .full (mem_fulls_specsOf.1 hf) hserved hentity
  | partialMatch hp hmatch hserved hentity =>
    exact .partialMatch (mem_partials_specsOf.1 hp) hmatch hserved hentity
  | primary hserved hentity => exact .primary hserved hentity

/-- Everything that is found for a template is made from the declaration that serves it. -/
theorem embodies_of_mem_allFound (ht : templateAt? entities index = some t)
    (h : x ∈ allFound entities evidence index t) :
    t.Embodies (HasFull entities evidence index) (HasPartial entities evidence index) x := by
  rcases List.mem_append.1 h with h | h
  · rcases mem_specFound.1 h with ⟨f, hf, rfl⟩ | ⟨p, location, -, r, -, hx⟩
    · exact .full (mem_fulls_specsOf.1 hf) rfl rfl
    · obtain ⟨given, own, -, -, hx⟩ := ofPartialRequest_eq_ok.1 hx
      exact embodies_specsOf hx
  · obtain ⟨e, -, hx⟩ := List.mem_flatMap.1 h
    rcases mem_useFound.1 hx with ⟨requests, -, r, -, hx⟩ | ⟨given, signature, -, hx⟩
    · obtain ⟨given, args, -, -, hx⟩ := ofRequest_eq_ok.1 hx
      exact embodies_specsOf hx
    · obtain ⟨args, hx⟩ := placeExplicit?_eq_some ht hx
      exact embodies_specsOf hx

/-- A template comes out of resolution with entries that are made from what serves them. -/
theorem exists_embodied (hfresh : Uncatalogued entities)
    (ht : templateAt? (resolve entities evidence).1 index = some t) :
    ∃ t₀, templateAt? entities index = some t₀ ∧
      t = { t₀ with instantiations := t.instantiations } ∧
      ∀ x ∈ t.instantiations,
        t₀.Embodies (HasFull entities evidence index) (HasPartial entities evidence index) x := by
  rw [templateAt?_resolve] at ht
  obtain ⟨t₀, ht₀, rfl⟩ := Option.map_eq_some_iff.1 ht
  refine ⟨t₀, ht₀, rfl, ?_⟩
  intro x hx
  have hfound := TemplateEntity.mem_foldl_listNew (List.mem_mergeSort.1 hx)
  rw [hfresh t₀ (mem_of_templateAt? ht₀)] at hfound
  exact embodies_of_mem_allFound ht₀ (hfound.resolve_left List.not_mem_nil)

end Evidence

/-! ## Units -/

namespace HeaderUnit

variable {h : Header} {t : TemplateEntity} {x : Instantiation} {c : ClassEntity}

/-- The entries of a template of a unit are made from what the header declares. -/
theorem exists_embodied (ht : t ∈ (ofHeader h).templates) : ∃ index t₀,
    templateAt? h.survey.entities index = some t₀ ∧
    t = { t₀ with instantiations := t.instantiations } ∧
    ∀ x ∈ t.instantiations, t₀.Embodies
      (Evidence.HasFull h.survey.entities h.survey.evidence index)
      (Evidence.HasPartial h.survey.entities h.survey.evidence index) x := by
  obtain ⟨e, he, hte⟩ := List.mem_filterMap.1 ht
  obtain ⟨index, hindex⟩ := List.getElem?_of_mem he
  have hat : templateAt? (ofHeader h).entities index = some t := by
    rw [templateAt?, hindex]
    exact hte
  have hfresh : Evidence.Uncatalogued h.survey.entities :=
    Walk.uncatalogued_declareAll {} h.declarations fun t ht => absurd ht List.not_mem_nil
  exact ⟨index, Evidence.exists_embodied hfresh hat⟩

/-- Resolution leaves classes alone. -/
theorem ofClass_mem_survey (hc : c ∈ (ofHeader h).classes) : .ofClass c ∈ h.survey.entities := by
  obtain ⟨e, he, hce⟩ := List.mem_filterMap.1 hc
  obtain rfl : e = .ofClass c := by cases e <;> cases hce; rfl
  have hmem : Entity.ofClass c ∈ (ofHeader h).entities.map Entity.uncatalogued :=
    List.mem_map.2 ⟨.ofClass c, he, rfl⟩
  have hresolve : (ofHeader h).entities.map Entity.uncatalogued =
      h.survey.entities.map Entity.uncatalogued := Evidence.map_uncatalogued_resolve _ _
  rw [hresolve] at hmem
  obtain ⟨e, he, heq⟩ := List.mem_map.1 hmem
  cases e with
  | ofClass d =>
    cases heq
    exact he
  | ofFunction _ | ofTemplate _ => cases heq

variable {G : Member → Prop}

theorem allMembers_classes (hG : Walk.Ensures G) (hc : c ∈ (ofHeader h).classes) :
    c.AllMembers G :=
  (h.allMembers_survey hG).entities _ (ofClass_mem_survey hc)

/-- The members of a full specialisation are those that the walk built. -/
theorem allMembers_of_hasFull (hG : Walk.Ensures G) {index : ℕ} {f : FullSpec}
    (hf : Evidence.HasFull h.survey.entities h.survey.evidence index f) :
    f.entity.AllMembers G := by
  obtain ⟨e, he, args, entity, mark, hkind, hplace⟩ := hf
  have hmembers := (h.allMembers_survey hG).evidence e he
  rw [hkind] at hmembers
  obtain ⟨i, -, hi⟩ := List.exists_of_findSome?_eq_some hplace
  simp only [Option.bind_eq_bind, Option.bind_eq_some_iff, Option.pure_def, Option.some.injEq,
    Prod.mk.injEq] at hi
  obtain ⟨u, -, done, -, -, rfl⟩ := hi
  cases entity with
  | ofClass c => exact hmembers
  | ofFunction g => trivial

/-- The members of a partial specialisation are those that the walk built. -/
theorem allMembers_of_hasPartial (hG : Walk.Ensures G) {index : ℕ} {p : PartialSpec}
    (hp : Evidence.HasPartial h.survey.entities h.survey.evidence index p) :
    p.pattern.AllMembers G := by
  obtain ⟨e, he, hkind, -⟩ := hp
  have hmembers := (h.allMembers_survey hG).evidence e he
  rw [hkind] at hmembers
  exact hmembers

/-- A class behind an instantiation has members that the walk built, or comes from such a class by
replacing parameters. For the primary template these are bound to the arguments of the
instantiation. -/
theorem allMembers_instantiation (hG : Walk.Ensures G) (ht : t ∈ (ofHeader h).templates)
    (hx : x ∈ t.instantiations) (hc : x.entity = .ofClass c) :
    (x.specificity = .full ∧ c.AllMembers G) ∨
    (x.specificity ≠ .full ∧ ∃ (pattern : ClassEntity) (b : Bindings), pattern.AllMembers G ∧
      c = pattern.substitute b ∧
      (x.specificity = .primary → t.pattern = .ofClass pattern ∧ b = x.bindings)) := by
  obtain ⟨index, t₀, ht₀, heq, hembodies⟩ := exists_embodied ht
  have hpattern : t.pattern = t₀.pattern := by rw [heq]
  cases hembodies x hx with
  | full hf hserved hentity =>
    have hmembers := allMembers_of_hasFull hG hf
    rw [← hentity, hc] at hmembers
    exact .inl ⟨hserved, hmembers⟩
  | @partialMatch p b hp hmatch hserved hentity =>
    have hmembers := allMembers_of_hasPartial hG hp
    rw [hc] at hentity
    cases hp : p.pattern with
    | ofFunction f => rw [hp] at hentity; cases hentity
    | ofClass pattern =>
      rw [hp] at hentity hmembers
      cases hentity
      exact .inr ⟨by simp [hserved], pattern, b, hmembers, rfl, by simp [hserved]⟩
  | primary hserved hentity =>
    have hmembers := (h.allMembers_survey hG).entities _ (Evidence.mem_of_templateAt? ht₀)
    have hmembers : t₀.pattern.AllMembers G := hmembers
    rw [hc] at hentity
    cases hp : t₀.pattern with
    | ofFunction f => rw [hp] at hentity; cases hentity
    | ofClass pattern =>
      rw [hp] at hentity hmembers
      cases hentity
      exact .inr ⟨by simp [hserved], pattern, _, hmembers, rfl, fun _ => ⟨hpattern.trans hp, rfl⟩⟩

end HeaderUnit
end Bindery
