/-!
# Sets of code points

A character property is stored as a list of closed intervals of code points. The
intervals are kept in ascending order, but membership does not rely on it.

## Main definitions

* `CodeRanges`: a list of closed intervals.
* `CodeRanges.contains`: whether some interval holds the character.
-/
namespace Bindery.Text

/-- Closed intervals of code points. -/
abbrev CodeRanges := List (Nat × Nat)

namespace CodeRanges

/-- Some interval holds the code point of `c`. -/
def contains (ranges : CodeRanges) (c : Char) : Bool :=
  ranges.any fun (lo, hi) => lo ≤ c.toNat && c.toNat ≤ hi

@[simp] theorem contains_nil (c : Char) : contains [] c = false := rfl

@[simp] theorem contains_cons (r : Nat × Nat) (rs : CodeRanges) (c : Char) :
    contains (r :: rs) c = ((r.1 ≤ c.toNat && c.toNat ≤ r.2) || contains rs c) := rfl

end CodeRanges
end Bindery.Text
