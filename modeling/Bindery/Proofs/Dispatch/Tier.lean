import Bindery.Dispatch.Catalogue
import Mathlib.Data.List.Basic

/-!
# What it means to match

How well a call matches is said here without the computation: a signature reaches the tier of
its worst argument, an entry the best tier that one of its signatures reaches. The functions of
the catalogue are shown to compute just that, and to prefer the first of several best ones.

## Main definitions

* `SignaturePattern.Reaches`, `CatalogueEntry.Reaches`: the tier of a match.
* `CatalogueEntry.IsFirst`: the signature that an entry is matched by.
-/
namespace Bindery

namespace MatchTier

theorem rank_injective {a b : MatchTier} (h : a.rank = b.rank) : a = b := by
  cases a <;> cases b <;> first | rfl | cases h

theorem rank_exact_le (a : MatchTier) : exact.rank ≤ a.rank := Nat.zero_le a.rank

theorem rank_worse (a b : MatchTier) : (a.worse b).rank = max a.rank b.rank := by
  rw [worse]
  split <;> omega

theorem worse_eq_or (a b : MatchTier) : a.worse b = a ∨ a.worse b = b := by
  rw [worse]
  split
  · exact .inr rfl
  · exact .inl rfl

end MatchTier

/-! ## Signatures -/

namespace SignaturePattern

/-- A tier is the worst over pairs of a pattern and an argument, all of which match. -/
structure IsWorst (isSubclass : String → String → Bool) (pairs : List (ArgPattern × ArgTag))
    (tier : MatchTier) : Prop where
  bound : ∀ pair ∈ pairs, ∃ u, pair.1.tier? isSubclass pair.2 = some u ∧ u.rank ≤ tier.rank
  /-- Without arguments the match is exact. -/
  attained : tier = .exact ∨ ∃ pair ∈ pairs, pair.1.tier? isSubclass pair.2 = some tier

/-- A call matches a signature with a tier: enough and not too many arguments are given, each
matches its parameter, and the tier is that of the worst. -/
structure Reaches (isSubclass : String → String → Bool) (s : SignaturePattern)
    (call : List ArgTag) (tier : MatchTier) : Prop where
  required_le : s.required ≤ call.length
  length_le : call.length ≤ s.params.length
  isWorst : IsWorst isSubclass (s.params.zip call) tier

variable {isSubclass : String → String → Bool}

theorem isWorst_nil : IsWorst isSubclass [] .exact := ⟨by simp, .inl rfl⟩

theorem IsWorst.cons {p : ArgPattern} {a : ArgTag} {pairs : List (ArgPattern × ArgTag)}
    {first rest : MatchTier} (hfirst : p.tier? isSubclass a = some first)
    (hrest : IsWorst isSubclass pairs rest) :
    IsWorst isSubclass ((p, a) :: pairs) (first.worse rest) where
  bound := by
    have hrank := MatchTier.rank_worse first rest
    intro pair hpair
    rcases List.mem_cons.mp hpair with rfl | hpair
    · exact ⟨first, hfirst, by omega⟩
    · obtain ⟨u, hu, hle⟩ := hrest.bound pair hpair
      exact ⟨u, hu, by omega⟩
  attained := by
    rcases MatchTier.worse_eq_or first rest with heq | heq
    · exact .inr ⟨(p, a), List.mem_cons_self, by rw [heq]; exact hfirst⟩
    · rw [heq]
      exact hrest.attained.imp_right fun ⟨pair, hpair, h⟩ =>
        ⟨pair, List.mem_cons_of_mem _ hpair, h⟩

theorem IsWorst.rank_le {pairs : List (ArgPattern × ArgTag)} {t u : MatchTier}
    (ht : IsWorst isSubclass pairs t) (hu : IsWorst isSubclass pairs u) : t.rank ≤ u.rank := by
  rcases ht.attained with rfl | ⟨pair, hpair, htier⟩
  · exact u.rank_exact_le
  · obtain ⟨v, hv, hle⟩ := hu.bound pair hpair
    rw [htier] at hv
    cases hv
    exact hle

/-- There is one worst tier. -/
theorem IsWorst.unique {pairs : List (ArgPattern × ArgTag)} {t u : MatchTier}
    (ht : IsWorst isSubclass pairs t) (hu : IsWorst isSubclass pairs u) : t = u :=
  MatchTier.rank_injective (Nat.le_antisymm (ht.rank_le hu) (hu.rank_le ht))

theorem isWorst_of_worstTier? {params : List ArgPattern} {call : List ArgTag}
    {tier : MatchTier} (h : worstTier? isSubclass params call = some tier) :
    IsWorst isSubclass (params.zip call) tier := by
  induction params generalizing call tier with
  | nil => cases h; exact isWorst_nil
  | cons p params ih =>
      cases call with
      | nil => cases h; exact isWorst_nil
      | cons a call =>
          simp only [worstTier?, Option.bind_eq_bind, Option.bind_eq_some_iff,
            Option.pure_def, Option.some.injEq] at h
          obtain ⟨first, hfirst, rest, hrest, rfl⟩ := h
          exact (ih hrest).cons hfirst

/-- Where every argument matches, there is a worst match. -/
theorem exists_worstTier? {params : List ArgPattern} {call : List ArgTag}
    (h : ∀ pair ∈ params.zip call, ∃ u, pair.1.tier? isSubclass pair.2 = some u) :
    ∃ tier, worstTier? isSubclass params call = some tier := by
  induction params generalizing call with
  | nil => exact ⟨.exact, rfl⟩
  | cons p params ih =>
      cases call with
      | nil => exact ⟨.exact, rfl⟩
      | cons a call =>
          rw [List.zip_cons_cons] at h
          obtain ⟨first, hfirst⟩ := h (p, a) List.mem_cons_self
          obtain ⟨rest, hrest⟩ := ih fun pair hpair => h pair (List.mem_cons_of_mem _ hpair)
          exact ⟨first.worse rest, by simp [worstTier?, hfirst, hrest]⟩

/-- The tier of a signature is what a call reaches. -/
theorem tier?_eq_some_iff {s : SignaturePattern} {call : List ArgTag} {tier : MatchTier} :
    s.tier? isSubclass call = some tier ↔ s.Reaches isSubclass call tier := by
  rw [tier?]
  constructor
  · intro h
    split at h
    · cases h
    · next hlength =>
        simp only [Bool.or_eq_true, decide_eq_true_eq, not_or, Nat.not_lt] at hlength
        exact ⟨hlength.1, hlength.2, isWorst_of_worstTier? h⟩
  · rintro ⟨hrequired, hlength, hworst⟩
    have hbound : ¬ (decide (call.length < s.required) ||
        decide (s.params.length < call.length)) = true := by
      simp only [Bool.or_eq_true, decide_eq_true_eq, not_or, Nat.not_lt]
      exact ⟨hrequired, hlength⟩
    obtain ⟨u, hu⟩ : ∃ u, worstTier? isSubclass s.params call = some u :=
      exists_worstTier? fun pair hpair => (hworst.bound pair hpair).imp fun _ h => h.1
    rw [if_neg hbound, hu, (isWorst_of_worstTier? hu).unique hworst]

instance (s : SignaturePattern) (call : List ArgTag) (tier : MatchTier) :
    Decidable (s.Reaches isSubclass call tier) :=
  decidable_of_iff _ tier?_eq_some_iff

end SignaturePattern

/-! ## The first of the best -/

theorem bestMatch?_eq_none {α : Type} {tier : α → MatchTier} {as : List α}
    (h : bestMatch? tier as = none) : as = [] := by
  cases as with
  | nil => rfl
  | cons a as =>
      rw [bestMatch?] at h
      split at h
      · cases h
      · split at h <;> cases h

/-- The first of the best matches is better than those before it, and no worse than those
behind it. -/
theorem bestMatch?_eq_some {α : Type} {tier : α → MatchTier} {as : List α} {b : α}
    (h : bestMatch? tier as = some b) : ∃ before behind, as = before ++ b :: behind ∧
      (∀ a ∈ before, (tier b).rank < (tier a).rank) ∧
      ∀ a ∈ behind, (tier b).rank ≤ (tier a).rank := by
  induction as generalizing b with
  | nil => cases h
  | cons a as ih =>
      rw [bestMatch?] at h
      cases hbest : bestMatch? tier as with
      | none =>
          rw [hbest] at h
          cases h
          rw [bestMatch?_eq_none hbest]
          exact ⟨[], [], rfl, by simp, by simp⟩
      | some c =>
          obtain ⟨before, behind, rfl, hbefore, hbehind⟩ := ih hbest
          simp only [hbest] at h
          split at h
          · next hlt =>
              cases h
              exact ⟨a :: before, behind, rfl, List.forall_mem_cons.mpr ⟨hlt, hbefore⟩, hbehind⟩
          · next hlt =>
              cases h
              refine ⟨[], before ++ c :: behind, rfl, by simp, ?_⟩
              intro d hd
              rcases List.mem_append.mp hd with hd | hd
              · have := hbefore d hd
                omega
              · rcases List.mem_cons.mp hd with rfl | hd
                · omega
                · have := hbehind d hd
                  omega

/-! ## Entries -/

namespace CatalogueEntry

/-- A call matches an entry with the best tier that one of its signatures reaches. -/
structure Reaches (isSubclass : String → String → Bool) (e : CatalogueEntry)
    (call : List ArgTag) (tier : MatchTier) : Prop where
  attained : ∃ s ∈ e.signatures, s.Reaches isSubclass call tier
  best : ∀ s ∈ e.signatures, ∀ u, s.Reaches isSubclass call u → tier.rank ≤ u.rank

/-- The signature at a place is the first that reaches a tier. -/
structure IsFirst (isSubclass : String → String → Bool) (e : CatalogueEntry)
    (call : List ArgTag) (tier : MatchTier) (place : ℕ) : Prop where
  reaches : ∃ s, e.signatures[place]? = some s ∧ s.Reaches isSubclass call tier
  first : ∀ j < place, ∀ s, e.signatures[j]? = some s → ¬ s.Reaches isSubclass call tier

variable {isSubclass : String → String → Bool} {e : CatalogueEntry} {call : List ArgTag}

theorem Reaches.unique {t u : MatchTier} (ht : e.Reaches isSubclass call t)
    (hu : e.Reaches isSubclass call u) : t = u := by
  obtain ⟨s, hs, hst⟩ := ht.attained
  obtain ⟨r, hr, hru⟩ := hu.attained
  exact MatchTier.rank_injective (Nat.le_antisymm (ht.best r hr u hru) (hu.best s hs t hst))

theorem IsFirst.unique {tier : MatchTier} {i j : ℕ} (hi : e.IsFirst isSubclass call tier i)
    (hj : e.IsFirst isSubclass call tier j) : i = j := by
  obtain ⟨s, hs, hsr⟩ := hi.reaches
  obtain ⟨r, hr, hrr⟩ := hj.reaches
  by_contra hne
  rcases Nat.lt_or_gt_of_ne hne with hlt | hlt
  · exact hj.first i hlt s hs hsr
  · exact hi.first j hlt r hr hrr

variable (isSubclass e call) in
/-- Matching signatures are listed in order. -/
theorem pairwise_matching : (e.matching isSubclass call).Pairwise fun a b => a.1 < b.1 := by
  have hplaces : e.signatures.zipIdx.Pairwise fun a b => a.2 < b.2 := by
    rw [← List.pairwise_map, List.zipIdx_map_snd]
    exact List.pairwise_lt_range'
  refine hplaces.filterMap _ ?_
  rintro ⟨s, i⟩ ⟨r, j⟩ hlt a ha b hb
  obtain ⟨t, -, rfl⟩ := Option.map_eq_some_iff.mp ha
  obtain ⟨u, -, rfl⟩ := Option.map_eq_some_iff.mp hb
  exact hlt

theorem mem_matching {i : ℕ} {tier : MatchTier} : (i, tier) ∈ e.matching isSubclass call ↔
    ∃ s, e.signatures[i]? = some s ∧ s.Reaches isSubclass call tier := by
  simp only [matching, List.mem_filterMap, Prod.exists, List.mk_mem_zipIdx_iff_getElem?,
    Option.map_eq_some_iff, Prod.mk.injEq, SignaturePattern.tier?_eq_some_iff]
  constructor
  · rintro ⟨s, j, hs, u, hu, rfl, rfl⟩
    exact ⟨s, hs, hu⟩
  · rintro ⟨s, hs, ht⟩
    exact ⟨s, i, hs, tier, ht, rfl, rfl⟩

/-- An entry without a best signature matches in no way. -/
theorem best?_eq_none (h : e.best? isSubclass call = none) :
    ∀ s ∈ e.signatures, ∀ t, ¬ s.Reaches isSubclass call t := by
  intro s hs t ht
  obtain ⟨i, hi⟩ := List.mem_iff_getElem?.mp hs
  have hmem := mem_matching.mpr ⟨s, hi, ht⟩
  rw [bestMatch?_eq_none h] at hmem
  exact absurd hmem List.not_mem_nil

/-- The best signature of an entry reaches the tier of the entry, and is the first to. -/
theorem reaches_of_best? {i : ℕ} {tier : MatchTier}
    (h : e.best? isSubclass call = some (i, tier)) :
    e.Reaches isSubclass call tier ∧ e.IsFirst isSubclass call tier i := by
  obtain ⟨before, behind, hsplit, hbefore, hbehind⟩ := bestMatch?_eq_some h
  obtain ⟨s, hs, hreach⟩ := mem_matching.mp (hsplit ▸ List.mem_append_right _ List.mem_cons_self)
  have hmem {j : ℕ} {r : SignaturePattern} {u : MatchTier} (hr : e.signatures[j]? = some r)
      (hu : r.Reaches isSubclass call u) :
      (j, u) ∈ before ∨ (j, u) = (i, tier) ∨ (j, u) ∈ behind := by
    have hin := mem_matching.mpr ⟨r, hr, hu⟩
    rwa [hsplit, List.mem_append, List.mem_cons] at hin
  refine ⟨⟨⟨s, List.mem_of_getElem? hs, hreach⟩, ?_⟩, ⟨⟨s, hs, hreach⟩, ?_⟩⟩
  · intro r hr u hu
    obtain ⟨j, hj⟩ := List.mem_iff_getElem?.mp hr
    rcases hmem hj hu with hin | heq | hin
    · exact Nat.le_of_lt (hbefore _ hin)
    · cases heq; exact Nat.le_refl _
    · exact hbehind _ hin
  · intro j hlt r hr hu
    rcases hmem hr hu with hin | heq | hin
    · exact absurd (hbefore _ hin) (Nat.lt_irrefl _)
    · cases heq; exact absurd hlt (Nat.lt_irrefl _)
    · -- Behind the chosen signature only later places are left.
      have horder := pairwise_matching isSubclass e call
      rw [hsplit, List.pairwise_append, List.pairwise_cons] at horder
      have hlater := horder.2.1.1 _ hin
      exact absurd (Nat.lt_trans hlt hlater) (Nat.lt_irrefl _)

/-- An entry reaches a tier just when its best signature does. -/
theorem reaches_iff {tier : MatchTier} : e.Reaches isSubclass call tier ↔
    (e.best? isSubclass call).map Prod.snd = some tier := by
  constructor
  · intro h
    cases hbest : e.best? isSubclass call with
    | none =>
        obtain ⟨s, hs, hreach⟩ := h.attained
        exact absurd hreach (best?_eq_none hbest s hs tier)
    | some best =>
        obtain ⟨i, t⟩ := best
        rw [Option.map_some, (reaches_of_best? hbest).1.unique h]
  · intro h
    obtain ⟨⟨i, t⟩, hbest, rfl⟩ := Option.map_eq_some_iff.mp h
    exact (reaches_of_best? hbest).1

instance (tier : MatchTier) : Decidable (e.Reaches isSubclass call tier) :=
  decidable_of_iff _ reaches_iff.symm

end CatalogueEntry
end Bindery
