import Bindery.TypeExpr.Substitution
import Mathlib.Data.List.TakeWhile

/-!
# Constant types

Whether a type denotes something constant is said by its outermost pointer, or by the qualifier of
the base when there is no pointer; references on the outside do not matter. A type that is put
around another one has the pointers of both, so it brings its own constness along exactly when it
has a pointer. Replacing a parameter can therefore make a type constant, and does so just when the
parameter stands without a pointer for a type that is constant.

## Main definitions

* `TypeExpr.pointers`: the declarators of a type that are pointers.

## Main statements

* `TypeExpr.denotesConst_around`: the constness of a type around another one.
* `TypeExpr.denotesConst_substitute_iff`: when replacing parameters makes a type constant.
-/
namespace Bindery

/-! ## Pointers -/

/-- Collapsing references leaves the pointers as they are. -/
theorem filter_collapseRefs (ds : List Indirection) :
    (collapseRefs ds).filter (!·.isRef) = ds.filter (!·.isRef) := by
  induction ds using collapseRefs.induct with
  | case1 | case2 => rw [collapseRefs]
  | case3 ds ih | case4 ds ih | case5 ds ih | case6 ds ih =>
    simpa [collapseRefs, Indirection.isRef] using ih
  | case7 d e ds h₁ h₂ h₃ h₄ ih =>
    rw [collapseRefs, List.filter_cons, List.filter_cons, ih]
    all_goals assumption

namespace TypeExpr

variable {t outer inner : TypeExpr} {b : Bindings}

/-- The pointers of a type, innermost first. -/
def pointers (t : TypeExpr) : List Indirection := t.declarators.filter (!·.isRef)

theorem getLast?_objectDeclarators (t : TypeExpr) :
    t.objectDeclarators.getLast? = t.pointers.getLast? := by
  rw [objectDeclarators, pointers, List.getLast?_reverse, ← List.head?_reverse,
    ← List.filter_reverse, List.head?_filter, List.find?_not_eq_head?_dropWhile]

/-- The outermost pointer says whether the type is constant, or else the qualifier of the base. -/
theorem denotesConst_eq (t : TypeExpr) : t.denotesConst = match t.pointers.getLast? with
    | some (.pointer c) => c
    | some _ => false
    | none => t.isConst := by
  have hlast := getLast?_objectDeclarators t
  rw [denotesConst]
  generalize t.objectDeclarators.getLast? = last, t.pointers.getLast? = outermost at hlast ⊢
  subst hlast
  rcases last with _ | _ | _ | _ <;> rfl

theorem denotesConst_of_pointers_eq_nil (h : t.pointers = []) : t.denotesConst = t.isConst := by
  rw [denotesConst_eq, h]
  rfl

theorem denotesConst_congr {s : TypeExpr} (hpointers : s.pointers = t.pointers)
    (hconst : s.isConst = t.isConst) : s.denotesConst = t.denotesConst := by
  rw [denotesConst_eq, denotesConst_eq, hpointers, hconst]

/-! ## A type around another one -/

theorem pointers_around (outer inner : TypeExpr) : (outer.around inner).pointers =
    (inner.addQualifiers outer.isConst outer.isVolatile).pointers ++ outer.pointers := by
  rw [pointers, around, filter_collapseRefs, List.filter_append]
  rfl

/-- A qualifier makes a type constant unless the type is a reference. -/
theorem denotesConst_addQualifiers (isConst isVolatile : Bool) (inner : TypeExpr) :
    (inner.addQualifiers isConst isVolatile).denotesConst =
      (inner.denotesConst || (isConst && !inner.isReference)) := by
  rcases hlast : inner.declarators.getLast? with _ | d
  · have hnone : inner.declarators = [] := List.getLast?_eq_none_iff.1 hlast
    have hpointers : inner.pointers = [] := by rw [pointers, hnone]; rfl
    have hqualified : (inner.addQualifiers isConst isVolatile).pointers = [] := by
      rw [addQualifiers, hlast]
      exact hpointers
    rw [denotesConst_of_pointers_eq_nil hqualified, denotesConst_of_pointers_eq_nil hpointers,
      addQualifiers, isReference, hlast]
    simp
  · obtain ⟨front, hfront⟩ := List.getLast?_eq_some_iff.1 hlast
    cases d with
    | pointer c =>
      rw [addQualifiers, hlast, denotesConst_eq, denotesConst_eq, isReference, hlast]
      simp [pointers, hfront, Indirection.isRef]
    | lvalueRef | rvalueRef =>
      rw [addQualifiers, hlast, isReference, hlast]
      simp [Indirection.isRef]

/-- A type with a pointer brings its own constness along; one without a pointer adds its own to
that of the inner type, unless this is a reference. -/
theorem denotesConst_around (outer inner : TypeExpr) : (outer.around inner).denotesConst =
    if outer.pointers = [] then inner.denotesConst || (outer.isConst && !inner.isReference)
    else outer.denotesConst := by
  split
  · next hnone =>
    rw [← denotesConst_addQualifiers outer.isConst outer.isVolatile inner]
    refine denotesConst_congr ?_ rfl
    rw [pointers_around, hnone, List.append_nil]
  · next hsome =>
    rw [denotesConst_eq, denotesConst_eq, pointers_around, List.getLast?_append]
    rcases hlast : outer.pointers.getLast? with _ | d
    · exact absurd (List.getLast?_eq_none_iff.1 hlast) hsome
    · rw [Option.some_or]
      cases d <;> rfl

/-! ## Replacing parameters -/

theorem substitute_of_find? {name : String} {bound : TypeExpr} (hname : t.simple? = some name)
    (hbound : b.find? name = some (.type bound)) : t.substitute b = t.around bound := by
  obtain ⟨isConst, isVolatile, base, declarators⟩ := t
  have hname : simpleBase? base = some name := hname
  have hsome : b.isEmpty = false := by
    cases b with
    | mk entries =>
      cases entries with
      | nil => cases hbound
      | cons _ _ => rfl
  rw [substitute]
  simp only [hsome, Bool.false_eq_true, if_false, hname, Option.bind_some, hbound]

/-- Where no parameter is replaced by a type, pointers and qualifiers stay as they are. -/
theorem denotesConst_substitute_of_forall
    (h : ∀ name bound, t.simple? = some name → b.find? name ≠ some (.type bound)) :
    (t.substitute b).denotesConst = t.denotesConst := by
  obtain ⟨isConst, isVolatile, base, declarators⟩ := t
  rw [substitute]
  dsimp only
  split
  · rfl
  · split
    · next bound hfound =>
      obtain ⟨name, hname, hbound⟩ := Option.bind_eq_some_iff.1 hfound
      exact absurd hbound (h name bound hname)
    · rfl
    · rfl

/-- A type is one parameter without a pointer, and the parameter stands for a constant type. -/
structure TakesConst (b : Bindings) (t : TypeExpr) : Prop where
  noPointer : t.pointers = []
  constant : ∃ name bound, t.simple? = some name ∧ b.find? name = some (.type bound) ∧
    bound.denotesConst = true

/-- Replacing parameters makes a type constant just when it takes that from an argument. -/
theorem denotesConst_substitute_iff (h : t.denotesConst = false) :
    (t.substitute b).denotesConst = true ↔ t.TakesConst b := by
  constructor
  · intro hconst
    by_cases hreplaced : ∃ name bound, t.simple? = some name ∧ b.find? name = some (.type bound)
    · obtain ⟨name, bound, hname, hbound⟩ := hreplaced
      rw [substitute_of_find? hname hbound, denotesConst_around] at hconst
      split at hconst
      · next hnone =>
        rw [denotesConst_of_pointers_eq_nil hnone] at h
        rw [h, Bool.false_and, Bool.or_false] at hconst
        exact ⟨hnone, name, bound, hname, hbound, hconst⟩
      · rw [h] at hconst
        cases hconst
    · rw [denotesConst_substitute_of_forall fun name bound hname hbound =>
        hreplaced ⟨name, bound, hname, hbound⟩, h] at hconst
      cases hconst
  · rintro ⟨hnone, name, bound, hname, hbound, hconst⟩
    rw [substitute_of_find? hname hbound, denotesConst_around, if_pos hnone, hconst,
      Bool.true_or]

end TypeExpr
end Bindery
