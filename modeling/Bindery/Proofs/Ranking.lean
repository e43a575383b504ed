import Bindery.Entity.Basic

/-!
# Sorting by rank

Catalogues are sorted by the rank of their entries.
-/
namespace Bindery

theorem Specificity.rank_injective {a b : Specificity} (h : a.rank = b.rank) : a = b := by
  cases a <;> cases b <;> first | rfl | cases h

/-- Sorting by a rank leaves the ranks in order. -/
theorem pairwise_sort_rank {α : Type} (rank : α → Nat) (as : List α) :
    (as.mergeSort fun a b => rank a ≤ rank b).Pairwise fun a b => rank a ≤ rank b := by
  let le (a b : α) : Bool := decide (rank a ≤ rank b)
  have htrans : ∀ a b c, le a b → le b c → le a c := by
    intro a b c hab hbc
    simp only [le, decide_eq_true_eq] at hab hbc ⊢
    omega
  have htotal : ∀ a b, le a b || le b a := by
    intro a b
    simp only [le, Bool.or_eq_true, decide_eq_true_eq]
    omega
  exact (List.pairwise_mergeSort htrans htotal as).imp of_decide_eq_true

end Bindery
