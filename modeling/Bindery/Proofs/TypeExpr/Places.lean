import Bindery.Proofs.TypeExpr.Substitution
import Mathlib.Data.List.Basic

/-!
# Places in types

A place in a type is reached through template arguments, each by its position among the arguments of
the type around it. Replacing parameters, completing names and expanding aliases do to what stands
at a place what they would do to it alone: they put segments without arguments in front of a name,
and only a name without arguments is exchanged for something else.

## Main definitions

* `TypeExpr.at?`: what stands at a place in a type.

## Main statements

* `TemplateArg.at?_map`: changes that go from argument to argument reach every place.
* `TypeExpr.at?_substitute`, `TypeExpr.at?_qualify`, `TypeExpr.at?_expandAliases`: the changes.
-/
namespace Bindery

/-- What stands at a place in an argument. -/
def TemplateArg.at? : List Nat → TemplateArg → Option TemplateArg
  | [], a => some a
  | i :: path, .type t => t.base.args[i]?.bind (TemplateArg.at? path)
  | _ :: _, .value _ => none

/-- What stands at a place in a type. -/
def TypeExpr.at? (path : List Nat) (t : TypeExpr) : Option TemplateArg :=
  TemplateArg.at? path (.type t)

/-- A change of arguments that may depend on how deep they stand changes what stands at a place, if
it goes on with the arguments of a type that has some. -/
theorem TemplateArg.at?_map {f : Nat → TemplateArg → TemplateArg}
    (hf : ∀ depth t, t.base.args ≠ [] → ∃ t', f depth (.type t) = .type t' ∧
      t'.base.args = t.base.args.map (f (depth + 1)))
    {path : List Nat} {a a' : TemplateArg} (h : a.at? path = some a') (depth : Nat) :
    (f depth a).at? path = some (f (depth + path.length) a') := by
  induction path generalizing a depth with
  | nil => exact congrArg (some ∘ f depth) (Option.some.inj h)
  | cons i path ih =>
    cases a with
    | value text => cases h
    | type t =>
      obtain ⟨u, hu, h⟩ := Option.bind_eq_some_iff.1 h
      have hne : t.base.args ≠ [] := by
        intro hnil
        rw [hnil] at hu
        cases hu
      obtain ⟨t', ht', hargs⟩ := hf depth t hne
      rw [ht', TemplateArg.at?, hargs, List.getElem?_map, hu]
      rw [List.length_cons, ← Nat.add_assoc, Nat.add_right_comm]
      exact ih h (depth + 1)

/-! ## Arguments of what was changed -/

variable {leadFor : List String → Option (List String)}
  {lookup : List NameSegment → Option TypeExpr} {f : TypeExpr → TypeExpr}

theorem TemplateArg.qualifyAll_eq_map (as : List TemplateArg) :
    TemplateArg.qualifyAll leadFor as = as.map (·.qualify leadFor) := by
  induction as with
  | nil => simp [TemplateArg.qualifyAll]
  | cons a as ih => rw [TemplateArg.qualifyAll, ih, List.map_cons]

theorem NameSegment.args_qualifyAll (ss : List NameSegment) :
    (NameSegment.qualifyAll leadFor ss).flatMap (fun s => s.args?.getD []) =
      (ss.flatMap fun s => s.args?.getD []).map (·.qualify leadFor) := by
  induction ss with
  | nil => simp [NameSegment.qualifyAll]
  | cons s ss ih =>
    rw [NameSegment.qualifyAll, List.flatMap_cons, List.flatMap_cons, List.map_append, ih]
    cases s with
    | plain name =>
      rw [NameSegment.qualify]
      rfl
    | applied name args =>
      rw [NameSegment.qualify, NameSegment.args?, TemplateArg.qualifyAll_eq_map]
      rfl

/-- What is put in front of a name has no arguments. -/
theorem TypeBase.args_qualify (leadFor : List String → Option (List String)) (base : TypeBase) :
    (base.qualify leadFor).args = base.args.map (·.qualify leadFor) := by
  cases base with
  | fundamental name => rw [TypeBase.qualify]; rfl
  | named isGlobal segments =>
    have hlead (lead : List String) :
        (lead.map NameSegment.plain).flatMap (fun s => s.args?.getD []) = [] := by
      simp [List.flatMap_map, NameSegment.args?]
    rw [TypeBase.qualify, TypeBase.args, ← NameSegment.args_qualifyAll, TypeBase.qualifyPath]
    split
    · rfl
    · split
      · rw [TypeBase.args, List.flatMap_append, hlead, List.nil_append]
      · rfl

theorem TypeBase.args_mapTypes (f : TypeExpr → TypeExpr) (base : TypeBase) :
    (base.mapTypes f).args = base.args.map (TemplateArg.mapType f) := by
  cases base with
  | fundamental name => rfl
  | named isGlobal segments =>
    rw [TypeBase.mapTypes, TypeBase.args, TypeBase.args, List.flatMap_map, List.map_flatMap]
    congr 1
    funext s
    cases s <;> rfl

/-- A name that has arguments is more than a name. -/
theorem TypeExpr.simple?_of_args {t : TypeExpr} (h : t.base.args ≠ []) : t.simple? = none := by
  cases hname : t.simple? with
  | none => rfl
  | some name =>
    rw [TypeBase.eq_of_simpleBase? hname] at h
    exact absurd rfl h

/-! ## The three changes -/

/-- Parameters are replaced at a place as if it stood alone. -/
theorem TypeExpr.at?_substitute {b : Bindings} (hb : b.isEmpty = false) {t : TypeExpr}
    {path : List Nat} {a : TemplateArg} (h : t.at? path = some a) (hpath : path ≠ []) :
    (t.substitute b).at? path = some (a.substitute b) := by
  have hargs (t : TypeExpr) (ht : t.base.args ≠ []) :
      (TemplateArg.type t).substitute b = .type (t.substitute b) ∧
        (t.substitute b).base.args = t.base.args.map (·.substitute b) := by
    have hnone : t.simple?.bind b.find? = none := by rw [simple?_of_args ht, Option.bind_none]
    rw [TemplateArg.substitute, hnone, substitute_of_isEmpty_eq_false hb hnone]
    exact ⟨rfl, TypeBase.args_substitute b t.base⟩
  have hne : t.base.args ≠ [] := by
    cases path with
    | nil => exact absurd rfl hpath
    | cons i path =>
      obtain ⟨u, hu, -⟩ := Option.bind_eq_some_iff.1 h
      intro hnil
      rw [hnil] at hu
      cases hu
  rw [TypeExpr.at?, ← (hargs t hne).1]
  exact TemplateArg.at?_map (f := fun _ a => a.substitute b)
    (fun _ t ht => ⟨_, (hargs t ht).1, (hargs t ht).2⟩) h 0

/-- Names are completed at a place as if it stood alone. -/
theorem TypeExpr.at?_qualify {t : TypeExpr} {path : List Nat} {a : TemplateArg}
    (h : t.at? path = some a) :
    (t.qualify leadFor).at? path = some (a.qualify leadFor) := by
  have hargs (t : TypeExpr) : (t.qualify leadFor).base.args =
      t.base.args.map (·.qualify leadFor) := by
    obtain ⟨isConst, isVolatile, base, declarators⟩ := t
    rw [TypeExpr.qualify]
    exact TypeBase.args_qualify leadFor base
  rw [TypeExpr.at?, ← TemplateArg.qualify]
  exact TemplateArg.at?_map (f := fun _ a => a.qualify leadFor)
    (fun _ t _ => ⟨_, by rw [TemplateArg.qualify], hargs t⟩) h 0

theorem TypeExpr.base_expandAliases
    (hlookup : ∀ isGlobal segments, (TypeBase.named isGlobal segments).args ≠ [] →
      lookup segments = none) {t : TypeExpr} (h : t.base.args ≠ []) (depth : Nat) :
    (expandAliases lookup (depth + 1) t).base = t.base.mapTypes (expandAliases lookup depth) := by
  have hinner : (t.base.mapTypes (expandAliases lookup depth)).args ≠ [] := by
    rw [TypeBase.args_mapTypes]
    simpa using h
  rw [expandAliases]
  generalize t.base.mapTypes (expandAliases lookup depth) = base at hinner
  cases base with
  | fundamental name => rfl
  | named isGlobal segments => simp only [hlookup isGlobal segments hinner]

theorem TemplateArg.mapType_expandAliases_zero (a : TemplateArg) :
    a.mapType (TypeExpr.expandAliases lookup 0) = a := by
  cases a <;> rfl

/-- Aliases are expanded at a place as if it stood alone, to a depth that is less by its depth. Here
names that have arguments are no aliases. -/
theorem TypeExpr.at?_expandAliases
    (hlookup : ∀ isGlobal segments, (TypeBase.named isGlobal segments).args ≠ [] →
      lookup segments = none) {t : TypeExpr} {path : List Nat} {a : TemplateArg}
    (h : t.at? path = some a) (depth : Nat) :
    (expandAliases lookup depth t).at? path =
      some (a.mapType (expandAliases lookup (depth - path.length))) := by
  have hargs (n : Nat) (t : TypeExpr) (ht : t.base.args ≠ []) :
      (expandAliases lookup (depth - n) t).base.args =
        t.base.args.map (TemplateArg.mapType (expandAliases lookup (depth - (n + 1)))) := by
    rw [Nat.sub_add_eq]
    cases depth - n with
    | zero =>
      refine (List.map_id _).symm.trans (List.map_congr_left fun a _ => ?_)
      exact (TemplateArg.mapType_expandAliases_zero a).symm
    | succ left =>
      rw [base_expandAliases hlookup ht, TypeBase.args_mapTypes]
      rfl
  have hmap := TemplateArg.at?_map
    (f := fun n a => a.mapType (expandAliases lookup (depth - n)))
    (fun n t ht => ⟨_, rfl, hargs n t ht⟩) h 0
  rwa [Nat.zero_add] at hmap

end Bindery
