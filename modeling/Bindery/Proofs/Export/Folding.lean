import Bindery.Export.Surface

/-!
# Folding bases into a class

The bases behind a class may be reached by several ways, and they may be bases of each other.
`Surface.Folds` is the recursion through them with no bound on its depth: it looks at each class
once and ends. The bound that a surface is computed with never cuts it short.

## Main definitions

* `Surface.Folds`: what folding in a list of classes comes to.
* `HeaderUnit.foldedBases`: the bases that are folded into a class.
* `HeaderUnit.surface`: what a class shows.

## Main statements

* `Surface.Folds.unique`: the recursion comes to one surface only.
* `HeaderUnit.folds_surface`: it comes to the surface of the class.
-/
namespace Bindery

namespace HeaderUnit

/-- The classes of the unit that are bases of a class. -/
def basesOf (u : HeaderUnit) (c : ClassEntity) : List ClassEntity :=
  c.bases.filterMap fun b => u.classNamed? b.name

/-- The classes of the unit that are folded into a class: its public bases that are not
offered. -/
def foldedBases (u : HeaderUnit) (p : ExportPolicy) (c : ClassEntity) : List ClassEntity :=
  c.bases.filterMap fun b =>
    if !b.isPublic || u.offers p b.name then none else u.classNamed? b.name

/-- What a class shows: its own members and those that are folded in. -/
def surface (u : HeaderUnit) (p : ExportPolicy) (owner : ExportMark) (c : ClassEntity) : Surface :=
  c.bases.foldl (u.foldBase p) (.own p owner c)

variable {u : HeaderUnit} {p : ExportPolicy} {c b : ClassEntity}

theorem mem_classes_of_classNamed? {name : QualifiedName} (h : u.classNamed? name = some c) :
    c ∈ u.classes :=
  List.mem_of_find?_eq_some h

theorem mem_classes_of_mem_basesOf (h : b ∈ u.basesOf c) : b ∈ u.classes := by
  obtain ⟨ref, -, href⟩ := List.mem_filterMap.1 h
  exact mem_classes_of_classNamed? href

theorem mem_classes_of_mem_foldedBases (h : b ∈ u.foldedBases p c) : b ∈ u.classes := by
  obtain ⟨ref, -, href⟩ := List.mem_filterMap.1 h
  split at href
  · cases href
  · exact mem_classes_of_classNamed? href

end HeaderUnit

namespace Surface

variable {u : HeaderUnit} {s t r : Surface} {c : ClassEntity} {cs ds : List ClassEntity}

/-! ## The recursion -/

/-- Folding in classes one after the other, each with the bases behind it. A class that was
looked at before is passed over. -/
inductive Folds (u : HeaderUnit) : Surface → List ClassEntity → Surface → Prop
  | done {s : Surface} : Folds u s [] s
  | seen {s t : Surface} {c : ClassEntity} {cs : List ClassEntity} (hseen : c.name ∈ s.visited)
      (hrest : Folds u s cs t) : Folds u s (c :: cs) t
  | fresh {s t r : Surface} {c : ClassEntity} {cs : List ClassEntity}
      (hfresh : c.name ∉ s.visited) (hbases : Folds u (s.absorb c) (u.basesOf c) t)
      (hrest : Folds u t cs r) : Folds u s (c :: cs) r

/-- The recursion comes to one surface only. -/
theorem Folds.unique (ht : Folds u s cs t) (hr : Folds u s cs r) : t = r := by
  induction ht generalizing r with
  | done =>
    cases hr
    rfl
  | seen hseen _ ih =>
    cases hr with
    | seen _ hrest => exact ih hrest
    | fresh hfresh _ _ => exact absurd hseen hfresh
  | fresh hfresh _ _ ihbases ihrest =>
    cases hr with
    | seen hseen _ => exact absurd hseen hfresh
    | fresh _ hbases hrest =>
      obtain rfl := ihbases hbases
      exact ihrest hrest

theorem Folds.append (hcs : Folds u s cs t) (hds : Folds u t ds r) : Folds u s (cs ++ ds) r := by
  induction hcs with
  | done => exact hds
  | seen hseen _ ih => exact .seen hseen (ih hds)
  | fresh hfresh hbases _ _ ihrest => exact .fresh hfresh hbases (ihrest hds)

@[simp] theorem visited_add (s : Surface) (m : Member) : (s.add m).visited = s.visited := by
  cases m <;> rfl

@[simp] theorem visited_foldl_add (ms : List Member) (s : Surface) :
    (ms.foldl add s).visited = s.visited := by
  induction ms generalizing s with
  | nil => rfl
  | cons m ms ih => rw [List.foldl_cons, ih, visited_add]

@[simp] theorem visited_absorb (s : Surface) (c : ClassEntity) :
    (s.absorb c).visited = s.visited ++ [c.name] :=
  visited_foldl_add _ _

theorem Folds.visited_subset (h : Folds u s cs t) : s.visited ⊆ t.visited := by
  induction h with
  | done => exact List.Subset.refl _
  | seen _ _ ih => exact ih
  | @fresh s _ _ c _ _ _ _ ihbases ihrest =>
    rw [visited_absorb] at ihbases
    have hbefore : s.visited ⊆ s.visited ++ [c.name] := List.subset_append_left _ _
    exact List.Subset.trans (List.Subset.trans hbefore ihbases) ihrest

/-! ## How deep it goes -/

/-- How many classes of the unit were not looked at yet. -/
def unseen (u : HeaderUnit) (s : Surface) : Nat :=
  (u.classes.filter fun c => c.name ∉ s.visited).length

theorem unseen_le_of_subset (h : s.visited ⊆ t.visited) : unseen u t ≤ unseen u s := by
  simp only [unseen, ← List.countP_eq_length_filter]
  refine List.countP_mono_left fun c _ hc => ?_
  simp only [decide_eq_true_eq] at hc ⊢
  exact fun hs => hc (h hs)

/-- Every class that is looked at is one less to be looked at. -/
theorem unseen_absorb_lt (hc : c ∈ u.classes) (hfresh : c.name ∉ s.visited) :
    unseen u (s.absorb c) < unseen u s := by
  have hsplit : (u.classes.filter fun d => d.name ∉ (s.absorb c).visited) =
      (u.classes.filter fun d => d.name ∉ s.visited).filter fun d => d.name ≠ c.name := by
    rw [List.filter_filter]
    refine List.filter_congr fun d _ => ?_
    simp [and_comm]
  rw [unseen, hsplit, unseen, List.length_filter_lt_length_iff_exists]
  exact ⟨c, by simp [hc, hfresh], by simp⟩

theorem inheritFrom_succ (u : HeaderUnit) (depth : Nat) (s : Surface) (c : ClassEntity) :
    s.inheritFrom u (depth + 1) c =
      if c.name ∈ s.visited then s
      else (u.basesOf c).foldl (inheritFrom u depth) (s.absorb c) := by
  rw [inheritFrom, HeaderUnit.basesOf, List.foldl_filterMap]
  simp only [List.contains_iff_mem]
  congr
  funext s b
  cases u.classNamed? b.name <;> rfl

theorem folds_foldl_of_forall {depth : Nat}
    (hone : ∀ s c, c ∈ u.classes → unseen u s < depth → Folds u s [c] (s.inheritFrom u depth c))
    (hcs : ∀ c ∈ cs, c ∈ u.classes) (hdepth : unseen u s < depth) :
    Folds u s cs (cs.foldl (inheritFrom u depth) s) := by
  induction cs generalizing s with
  | nil => exact .done
  | cons c cs ih =>
    have hfirst := hone s c (hcs c (.head _)) hdepth
    have hless := unseen_le_of_subset (u := u) hfirst.visited_subset
    exact hfirst.append (ih (fun d hd => hcs d (.tail _ hd)) (Nat.lt_of_le_of_lt hless hdepth))

/-- With a bound above the number of classes that were not looked at yet, the bound is never
reached. -/
theorem folds_inheritFrom {depth : Nat} (hc : c ∈ u.classes) (hdepth : unseen u s < depth) :
    Folds u s [c] (s.inheritFrom u depth c) := by
  induction depth generalizing s c with
  | zero => cases hdepth
  | succ depth ih =>
    rw [inheritFrom_succ]
    split
    · next hseen => exact .seen hseen .done
    · next hfresh =>
      -- The bases have one class less to look at, which pays for one level.
      have hless := unseen_absorb_lt hc hfresh
      have hbases : Folds u (s.absorb c) (u.basesOf c)
          ((u.basesOf c).foldl (inheritFrom u depth) (s.absorb c)) :=
        folds_foldl_of_forall (fun _ _ => ih) (fun _ => HeaderUnit.mem_classes_of_mem_basesOf)
          (by omega)
      exact .fresh hfresh hbases .done

end Surface

namespace HeaderUnit

/-- **Folding in bases ends.** The recursion through the bases behind a class comes to the surface
that the class has, however the bases depend on each other. -/
theorem folds_surface (u : HeaderUnit) (p : ExportPolicy) (owner : ExportMark) (c : ClassEntity) :
    Surface.Folds u (.own p owner c) (u.foldedBases p c) (u.surface p owner c) := by
  have hfold : u.surface p owner c =
      (u.foldedBases p c).foldl (Surface.inheritFrom u (u.classes.length + 1))
        (.own p owner c) := by
    rw [foldedBases, List.foldl_filterMap, surface]
    congr
    funext s b
    unfold foldBase
    split
    · rfl
    · cases u.classNamed? b.name <;> rfl
  rw [hfold]
  refine Surface.folds_foldl_of_forall (fun s d => Surface.folds_inheritFrom)
    (fun _ => mem_classes_of_mem_foldedBases) ?_
  exact Nat.lt_succ_of_le (List.length_filter_le _ _)

end HeaderUnit
end Bindery
