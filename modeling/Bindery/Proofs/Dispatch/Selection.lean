import Bindery.Proofs.Dispatch.Tier
import Bindery.Proofs.Ranking

/-!
# The entry that a call reaches

A call reaches the entries of the best tier, and among them the most specific ones. The
catalogue keeps its entries sorted by specificity and looks only at the first entry of the best
tier; the order makes that entry one of the most specific. Whether it is the only one decides
between a selection and an ambiguity.

## Main definitions

* `Catalogue.IsPeak`: the best tier of a call and the most specific sort of entry reaching it.
* `Catalogue.champions`: the entries at the peak, in catalogue order.
* `Catalogue.Settles`: which result a call should have.
* `Catalogue.SameOutcome`: two results that differ in the order of entries only.
-/
namespace Bindery
namespace Catalogue

section Peak

variable (isSubclass : String → String → Bool) (entries : List CatalogueEntry)
  (call : List ArgTag)

/-- No signature of any entry matches. -/
def Unmatched : Prop :=
  ∀ e ∈ entries, ∀ s ∈ e.signatures, ∀ t, ¬ s.Reaches isSubclass call t

/-- The best tier that an entry reaches, and the most specific sort of the entries that do. -/
structure IsPeak (tier : MatchTier) (specificity : Specificity) : Prop where
  attained : ∃ e ∈ entries, e.Reaches isSubclass call tier ∧ e.specificity = specificity
  best : ∀ e ∈ entries, ∀ u, e.Reaches isSubclass call u → tier.rank ≤ u.rank
  mostSpecific : ∀ e ∈ entries, e.Reaches isSubclass call tier →
    specificity.rank ≤ e.specificity.rank

end Peak

/-- The entries of a sort that reach a tier, in the order of the catalogue. -/
def champions (c : Catalogue) (call : List ArgTag) (tier : MatchTier)
    (specificity : Specificity) : List CatalogueEntry :=
  c.entries.filter fun e =>
    decide (e.Reaches c.registry.isSubclass call tier ∧ e.specificity = specificity)

/-- The result that a call should have, from the entries of the catalogue alone. -/
inductive Settles (c : Catalogue) (call : List ArgTag) :
    Except DispatchFault Selection → Prop where
  | noMatch (h : Unmatched c.registry.isSubclass c.entries call) :
      Settles c call (.error (.noMatch c.name (ArgTag.callText call)))
  | selected {tier : MatchTier} {specificity : Specificity} {e : CatalogueEntry} {s : Selection}
      (hpeak : IsPeak c.registry.isSubclass c.entries call tier specificity)
      (honly : c.champions call tier specificity = [e])
      (hentry : c.entries[s.entry]? = some e) (htier : s.tier = tier)
      (hfirst : e.IsFirst c.registry.isSubclass call tier s.signature) :
      Settles c call (.ok s)
  | ambiguous {tier : MatchTier} {specificity : Specificity}
      (hpeak : IsPeak c.registry.isSubclass c.entries call tier specificity)
      (hmany : 2 ≤ (c.champions call tier specificity).length) :
      Settles c call (.error (.ambiguous c.name
        ((c.champions call tier specificity).map (·.native))))

/-- Two results name the same entry and signature, or are the same fault with the same
candidates in some order. -/
inductive SameOutcome (c d : Catalogue) :
    Except DispatchFault Selection → Except DispatchFault Selection → Prop where
  | selected {s t : Selection} {e : CatalogueEntry} (hs : c.entries[s.entry]? = some e)
      (ht : d.entries[t.entry]? = some e) (htier : s.tier = t.tier)
      (hsignature : s.signature = t.signature) : SameOutcome c d (.ok s) (.ok t)
  | noMatch (name descriptor : String) :
      SameOutcome c d (.error (.noMatch name descriptor)) (.error (.noMatch name descriptor))
  | ambiguous (name : String) {candidates candidates' : List String}
      (h : candidates.Perm candidates') :
      SameOutcome c d (.error (.ambiguous name candidates)) (.error (.ambiguous name candidates'))

/-! ## Peaks -/

variable {isSubclass : String → String → Bool} {entries : List CatalogueEntry}
  {call : List ArgTag}

theorem IsPeak.not_unmatched {tier : MatchTier} {specificity : Specificity}
    (h : IsPeak isSubclass entries call tier specificity) :
    ¬ Unmatched isSubclass entries call := by
  intro hnone
  obtain ⟨e, he, hreach, -⟩ := h.attained
  obtain ⟨s, hs, hsignature⟩ := hreach.attained
  exact hnone e he s hs tier hsignature

/-- A call has at most one peak. -/
theorem IsPeak.unique {tier tier' : MatchTier} {specificity specificity' : Specificity}
    (h : IsPeak isSubclass entries call tier specificity)
    (h' : IsPeak isSubclass entries call tier' specificity') :
    tier = tier' ∧ specificity = specificity' := by
  obtain ⟨e, he, hreach, hspec⟩ := h.attained
  obtain ⟨e', he', hreach', hspec'⟩ := h'.attained
  have htier : tier = tier' := MatchTier.rank_injective
    (Nat.le_antisymm (h.best e' he' tier' hreach') (h'.best e he tier hreach))
  subst htier
  have hle := h.mostSpecific e' he' hreach'
  have hle' := h'.mostSpecific e he hreach
  rw [hspec'] at hle
  rw [hspec] at hle'
  exact ⟨rfl, Specificity.rank_injective (Nat.le_antisymm hle hle')⟩

/-- A peak depends on which entries there are, not on their order. -/
theorem IsPeak.perm {entries' : List CatalogueEntry} (hperm : entries.Perm entries')
    {tier : MatchTier} {specificity : Specificity}
    (h : IsPeak isSubclass entries call tier specificity) :
    IsPeak isSubclass entries' call tier specificity where
  attained := h.attained.imp fun _ he => ⟨hperm.mem_iff.mp he.1, he.2⟩
  best := fun e he => h.best e (hperm.mem_iff.mpr he)
  mostSpecific := fun e he => h.mostSpecific e (hperm.mem_iff.mpr he)

theorem Unmatched.perm {entries' : List CatalogueEntry} (hperm : entries.Perm entries')
    (h : Unmatched isSubclass entries call) : Unmatched isSubclass entries' call :=
  fun e he => h e (hperm.mem_iff.mpr he)

theorem champions_perm {c d : Catalogue} (hregistry : c.registry = d.registry)
    (hperm : c.entries.Perm d.entries) (call : List ArgTag) (tier : MatchTier)
    (specificity : Specificity) :
    (c.champions call tier specificity).Perm (d.champions call tier specificity) := by
  rw [champions, champions, hregistry]
  exact hperm.filter _

/-! ## Matching entries -/

theorem mem_matching {c : Catalogue} {e : CatalogueEntry} {s : Selection} :
    (e, s) ∈ c.matching call ↔ c.entries[s.entry]? = some e ∧
      e.best? c.registry.isSubclass call = some (s.signature, s.tier) := by
  simp only [matching, List.mem_filterMap, Prod.exists, List.mk_mem_zipIdx_iff_getElem?,
    Option.map_eq_some_iff, Prod.mk.injEq]
  constructor
  · rintro ⟨e, i, he, j, t, hbest, rfl, rfl⟩
    exact ⟨he, hbest⟩
  · rintro ⟨he, hbest⟩
    exact ⟨e, s.entry, he, s.signature, s.tier, hbest, rfl, rfl⟩

/-- The matching entries that reach a tier and are of a sort are the champions. -/
theorem map_matching_filter (c : Catalogue) (call : List ArgTag) (tier : MatchTier)
    (specificity : Specificity) :
    ((c.matching call).filter fun r =>
      r.2.tier = tier && r.1.specificity = specificity).map (·.1) =
      c.champions call tier specificity := by
  rw [matching, champions]
  -- The induction is over the entries, with the place of the first one generalized.
  generalize 0 = place
  induction c.entries generalizing place with
  | nil => rfl
  | cons e es ih =>
      have hreach : e.Reaches c.registry.isSubclass call tier ↔ _ := CatalogueEntry.reaches_iff
      rw [List.zipIdx_cons, List.filter_cons]
      cases hbest : e.best? c.registry.isSubclass call with
      | none =>
          rw [List.filterMap_cons_none (by simp [hbest]), ih (place + 1)]
          simp [hreach, hbest]
      | some best =>
          obtain ⟨j, t⟩ := best
          rw [hbest, Option.map_some, Option.some.injEq] at hreach
          rw [List.filterMap_cons_some (b := (e, ⟨place, j, t⟩)) (by simp [hbest]),
            List.filter_cons]
          simp only [Bool.and_eq_true, decide_eq_true_eq, hreach]
          split
          · rw [List.map_cons, ih (place + 1)]
          · exact ih (place + 1)

/-- Matching entries are listed in the order of the catalogue. -/
theorem pairwise_matching {c : Catalogue}
    (h : c.entries.Pairwise fun a b => a.specificity.rank ≤ b.specificity.rank)
    (call : List ArgTag) : (c.matching call).Pairwise fun a b =>
      a.1.specificity.rank ≤ b.1.specificity.rank := by
  have hpairs : c.entries.zipIdx.Pairwise fun a b =>
      a.1.specificity.rank ≤ b.1.specificity.rank := by
    rw [← List.zipIdx_map_fst 0 c.entries, List.pairwise_map] at h
    exact h
  refine hpairs.filterMap _ ?_
  rintro ⟨e, i⟩ ⟨f, j⟩ hle a ha b hb
  obtain ⟨t, -, rfl⟩ := Option.map_eq_some_iff.mp ha
  obtain ⟨u, -, rfl⟩ := Option.map_eq_some_iff.mp hb
  exact hle

/-! ## The result of a call -/

/-- The first of the best matching entries stands at the peak of a sorted catalogue. -/
theorem isPeak_of_bestMatch? {c : Catalogue}
    (hsorted : c.entries.Pairwise fun a b => a.specificity.rank ≤ b.specificity.rank)
    {e : CatalogueEntry} {s : Selection}
    (h : bestMatch? (·.2.tier) (c.matching call) = some (e, s)) :
    IsPeak c.registry.isSubclass c.entries call s.tier e.specificity := by
  obtain ⟨before, behind, hsplit, hbefore, hbehind⟩ := bestMatch?_eq_some h
  have horder := pairwise_matching hsorted call
  rw [hsplit, List.pairwise_append, List.pairwise_cons] at horder
  have hmem : (e, s) ∈ c.matching call := hsplit ▸ List.mem_append_right _ List.mem_cons_self
  obtain ⟨hentry, hbest⟩ := mem_matching.mp hmem
  -- Every entry that reaches some tier is found, in front of the first best one or not.
  have hfound {f : CatalogueEntry} (hf : f ∈ c.entries) {u : MatchTier}
      (hu : f.Reaches c.registry.isSubclass call u) : ∃ r : Selection, r.tier = u ∧
      ((f, r) ∈ before ∨ (f, r) = (e, s) ∨ (f, r) ∈ behind) := by
    obtain ⟨i, hi⟩ := List.mem_iff_getElem?.mp hf
    obtain ⟨⟨j, t⟩, hj, rfl⟩ := Option.map_eq_some_iff.mp (CatalogueEntry.reaches_iff.mp hu)
    refine ⟨⟨i, j, t⟩, rfl, ?_⟩
    have hin : (f, (⟨i, j, t⟩ : Selection)) ∈ c.matching call := mem_matching.mpr ⟨hi, hj⟩
    rwa [hsplit, List.mem_append, List.mem_cons] at hin
  refine ⟨⟨e, List.mem_of_getElem? hentry, (CatalogueEntry.reaches_of_best? hbest).1, rfl⟩, ?_, ?_⟩
  · intro f hf u hu
    obtain ⟨r, rfl, hin | heq | hin⟩ := hfound hf hu
    · exact Nat.le_of_lt (hbefore _ hin)
    · cases heq; exact Nat.le_refl _
    · exact hbehind _ hin
  · intro f hf hu
    obtain ⟨r, hr, hin | heq | hin⟩ := hfound hf hu
    · have hlt := hbefore _ hin
      rw [hr] at hlt
      exact absurd hlt (Nat.lt_irrefl _)
    · cases heq; exact Nat.le_refl _
    · exact horder.2.1.1 _ hin

/-- A sorted catalogue gives every call the result it should have. -/
theorem settles_select {c : Catalogue}
    (hsorted : c.entries.Pairwise fun a b => a.specificity.rank ≤ b.specificity.rank)
    (call : List ArgTag) : Settles c call (c.select call) := by
  rw [select, choose]
  cases hbest : bestMatch? (·.2.tier) (c.matching call) with
  | none =>
      refine .noMatch fun e he s hs t ht => ?_
      have hnone := bestMatch?_eq_none hbest
      cases hmatch : e.best? c.registry.isSubclass call with
      | none => exact CatalogueEntry.best?_eq_none hmatch s hs t ht
      | some best =>
          obtain ⟨i, hi⟩ := List.mem_iff_getElem?.mp he
          have hmem : (e, (⟨i, best.1, best.2⟩ : Selection)) ∈ c.matching call :=
            mem_matching.mpr ⟨hi, hmatch⟩
          rw [hnone] at hmem
          exact absurd hmem List.not_mem_nil
  | some found =>
      obtain ⟨e, s⟩ := found
      have hpeak := isPeak_of_bestMatch? hsorted hbest
      have hrivals := map_matching_filter c call s.tier e.specificity
      obtain ⟨before, behind, hsplit, -, -⟩ := bestMatch?_eq_some hbest
      have hmem : (e, s) ∈ c.matching call := hsplit ▸ List.mem_append_right _ List.mem_cons_self
      obtain ⟨hentry, hsignature⟩ := mem_matching.mp hmem
      have hfirst := (CatalogueEntry.reaches_of_best? hsignature).2
      have hnatives := congrArg (List.map (·.native)) hrivals
      rw [List.map_map] at hnatives
      have hlength := congrArg List.length hrivals
      rw [List.length_map] at hlength
      dsimp only
      split
      · next hmany =>
          rw [hlength] at hmany
          have hresult := Settles.ambiguous hpeak hmany
          rw [← hnatives] at hresult
          exact hresult
      · next hfew =>
          rw [hlength] at hfew
          have hin : e ∈ c.champions call s.tier e.specificity :=
            List.mem_filter.mpr ⟨List.mem_of_getElem? hentry,
              decide_eq_true ⟨(CatalogueEntry.reaches_of_best? hsignature).1, rfl⟩⟩
          have honly : c.champions call s.tier e.specificity = [e] := by
            generalize c.champions call s.tier e.specificity = es
              at hin hfew
            match es with
            | [f] => rw [List.mem_singleton.mp hin]
            | _ :: _ :: _ => simp at hfew
          exact .selected hpeak honly hentry rfl hfirst

theorem pairwise_make (name : String) (entries : List CatalogueEntry) (registry : Registry) :
    (make name entries registry).entries.Pairwise fun a b =>
      a.specificity.rank ≤ b.specificity.rank :=
  pairwise_sort_rank (·.specificity.rank) entries

theorem perm_make (name : String) (entries : List CatalogueEntry) (registry : Registry) :
    (make name entries registry).entries.Perm entries :=
  List.mergeSort_perm entries _

/-- Two catalogues of the same entries give a call the same result. -/
theorem sameOutcome_of_settles {c d : Catalogue} (hname : c.name = d.name)
    (hregistry : c.registry = d.registry) (hperm : c.entries.Perm d.entries)
    {result result' : Except DispatchFault Selection} (h : Settles c call result)
    (h' : Settles d call result') : SameOutcome c d result result' := by
  have hpeaks {tier tier' : MatchTier} {specificity specificity' : Specificity}
      (hc : IsPeak c.registry.isSubclass c.entries call tier specificity)
      (hd : IsPeak d.registry.isSubclass d.entries call tier' specificity') :
      tier = tier' ∧ specificity = specificity' := by
    rw [hregistry] at hc
    exact (hc.perm hperm).unique hd
  have hchampions := champions_perm hregistry hperm call
  have hmatched : Unmatched c.registry.isSubclass c.entries call ↔
      Unmatched d.registry.isSubclass d.entries call := by
    rw [hregistry]
    exact ⟨.perm hperm, .perm hperm.symm⟩
  cases h with
  | noMatch hnone =>
      cases h' with
      | noMatch _ => rw [hname]; exact .noMatch _ _
      | selected hpeak => exact absurd (hmatched.mp hnone) hpeak.not_unmatched
      | ambiguous hpeak => exact absurd (hmatched.mp hnone) hpeak.not_unmatched
  | @selected tier specificity e s hpeak honly hentry htier hfirst =>
      cases h' with
      | noMatch hnone => exact absurd (hmatched.mpr hnone) hpeak.not_unmatched
      | selected hpeak' honly' hentry' htier' hfirst' =>
          obtain ⟨rfl, rfl⟩ := hpeaks hpeak hpeak'
          have hsame := hchampions tier specificity
          rw [honly, honly', List.singleton_perm_singleton] at hsame
          subst hsame
          rw [hregistry] at hfirst
          exact .selected hentry hentry' (htier.trans htier'.symm) (hfirst.unique hfirst')
      | ambiguous hpeak' hmany =>
          obtain ⟨rfl, rfl⟩ := hpeaks hpeak hpeak'
          rw [← (hchampions _ _).length_eq, honly] at hmany
          simp at hmany
  | ambiguous hpeak hmany =>
      cases h' with
      | noMatch hnone => exact absurd (hmatched.mpr hnone) hpeak.not_unmatched
      | selected hpeak' honly' =>
          obtain ⟨rfl, rfl⟩ := hpeaks hpeak hpeak'
          rw [(hchampions _ _).length_eq, honly'] at hmany
          simp at hmany
      | ambiguous hpeak' _ =>
          obtain ⟨rfl, rfl⟩ := hpeaks hpeak hpeak'
          rw [hname]
          exact .ambiguous _ ((hchampions _ _).map _)

/-! ## Dispatch -/

end Catalogue
end Bindery
