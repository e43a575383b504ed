import Bindery.Proofs.OrderedMap
import Bindery.Proofs.TypeExpr.Places
import Bindery.Survey.Scope

/-!
# Template parameters in scope

A template parameter hides what has its name outside. When the names of a type are completed, a
parameter is not taken for the name of an enclosing class template, and nothing is put in front of
it, whatever is known there. Aliases are looked up by the name alone: a parameter that is called
like an alias at global scope is exchanged for its target.

## Main definitions

* `Scope.Hides`: a parameter that is not the name of the class template itself.

## Main statements

* `Survey.normalize_param`: what becomes of a parameter, at any depth.
* `Survey.normalize_value`: what becomes of a value, at any depth.
-/
namespace Bindery

/-- The name is a template parameter of the scope, and not the name that a class template has inside
itself. -/
structure Scope.Hides (scope : Scope) (name : String) : Prop where
  param : name ∈ scope.templateParams
  notInjected : ∀ p ∈ scope.injected, p.1 ≠ name

namespace Survey

variable {s : Survey} {scope : Scope} {t u : TypeExpr} {path : List Nat} {name : String}

/-! ## Names that are no aliases -/

/-- A name with arguments is no alias. -/
theorem aliasOf_eq_none (s : Survey) (isGlobal : Bool) (segments : List NameSegment)
    (h : (TypeBase.named isGlobal segments).args ≠ []) : s.aliasOf segments = none := by
  rw [aliasOf, if_pos]
  rw [List.any_eq_true]
  by_contra hnone
  refine h (List.flatMap_eq_nil_iff.2 fun seg hseg => ?_)
  cases hargs : seg.args? with
  | none => rfl
  | some args => exact absurd ⟨seg, hseg, by rw [hargs]; rfl⟩ hnone

theorem aliasOf_plain (s : Survey) (name : String) :
    s.aliasOf [.plain name] = s.aliases.find? name := by
  simp [aliasOf, NameSegment.args?, NameSegment.path, NameSegment.names, NameSegment.name]

/-! ## One name -/

theorem qualify_of_simple? (h : t.simple? = some name)
    {leadFor : List String → Option (List String)} (hlead : leadFor [name] = none) :
    t.qualify leadFor = t := by
  obtain ⟨isConst, isVolatile, base, declarators⟩ := t
  obtain rfl : base = .named false [.plain name] := TypeBase.eq_of_simpleBase? h
  simp [TypeExpr.qualify, TypeBase.qualify, NameSegment.qualifyAll, NameSegment.qualify,
    TypeBase.qualifyPath, NameSegment.names, NameSegment.name, hlead]

theorem expandAliases_of_simple? (h : t.simple? = some name) (s : Survey) (depth : Nat) :
    TypeExpr.expandAliases s.aliasOf (depth + 1) t =
      ((s.aliases.find? name).elim t fun target =>
        t.around (TypeExpr.expandAliases s.aliasOf depth target)) := by
  obtain ⟨isConst, isVolatile, base, declarators⟩ := t
  obtain rfl : base = .named false [.plain name] := TypeBase.eq_of_simpleBase? h
  simp only [TypeExpr.expandAliases, TypeBase.mapTypes, List.map_cons, List.map_nil,
    NameSegment.mapTypes, aliasOf_plain]
  cases s.aliases.find? name <;> rfl

theorem find?_injectedBindings (h : scope.Hides name) :
    (injectedBindings scope).find? name = none := by
  rw [injectedBindings]
  cases hinjected : scope.injected with
  | none => rfl
  | some p =>
    have hne := h.notInjected p hinjected
    simp [OrderedMap.ofList, OrderedMap.find?_insert, Ne.symm hne]

theorem leadFor_of_hides (s : Survey) (h : scope.Hides name) : s.leadFor scope [name] = none := by
  simp [leadFor, h.param]

/-! ## Places -/

/-- The name of the class template is replaced at a place as if it stood alone. -/
theorem at?_substitute_injected {a : TemplateArg} (h : t.at? path = some a) (hpath : path ≠ []) :
    (t.substitute (injectedBindings scope)).at? path =
      some (if scope.injected.isNone then a else a.substitute (injectedBindings scope)) := by
  cases hinjected : scope.injected with
  | none =>
    have hempty : injectedBindings scope = {} := by rw [injectedBindings, hinjected]
    rw [hempty, TypeExpr.substitute_empty, h]
    rfl
  | some p =>
    have hbound : (injectedBindings scope).isEmpty = false := by
      rw [injectedBindings, hinjected]
      rfl
    rw [TypeExpr.at?_substitute hbound h hpath]
    rfl

/-- What becomes of what stands at a place inside a type. -/
theorem at?_normalize (s : Survey) {a : TemplateArg}
    (h : (t.substitute (injectedBindings scope)).at? path = some a) :
    (s.normalize scope t).at? path = some ((a.qualify (s.leadFor scope)).mapType
      (TypeExpr.expandAliases s.aliasOf (TypeExpr.maxAliasDepth - path.length))) :=
  TypeExpr.at?_expandAliases s.aliasOf_eq_none (TypeExpr.at?_qualify h) TypeExpr.maxAliasDepth

/-- **Parameters in scope.** Completing the names of a type leaves a template parameter untouched at
every place, unless it is called like an alias at global scope. It then becomes the target. -/
theorem normalize_param (hu : t.at? path = some (.type u)) (hname : u.simple? = some name)
    (hhides : scope.Hides name) :
    (s.aliases.find? name = none → (s.normalize scope t).at? path = some (.type u)) ∧
      ∀ target, s.aliases.find? name = some target → path.length < TypeExpr.maxAliasDepth →
        (s.normalize scope t).at? path = some (.type (u.around (TypeExpr.expandAliases s.aliasOf
          (TypeExpr.maxAliasDepth - path.length - 1) target))) := by
  have hunbound := find?_injectedBindings hhides
  -- Only the expansion of aliases, which does not know the scope, can do anything to the parameter.
  have hsubstitute : (t.substitute (injectedBindings scope)).at? path = some (.type u) := by
    cases path with
    | nil =>
      obtain rfl : t = u := by simpa [TypeExpr.at?, TemplateArg.at?] using hu
      rw [TypeExpr.substitute_of_unbound hname hunbound]
      rfl
    | cons i path =>
      rw [at?_substitute_injected hu (List.cons_ne_nil i path), TemplateArg.substitute, hname,
        Option.bind_some, hunbound, TypeExpr.substitute_of_unbound hname hunbound, ite_self]
  have hnormalize := at?_normalize s hsubstitute
  rw [TemplateArg.qualify, qualify_of_simple? hname (leadFor_of_hides s hhides),
    TemplateArg.mapType] at hnormalize
  rw [hnormalize]
  constructor
  · intro hnone
    cases TypeExpr.maxAliasDepth - path.length with
    | zero => rfl
    | succ depth => rw [expandAliases_of_simple? hname, hnone, Option.elim_none]
  · intro target htarget hdepth
    obtain ⟨depth, hleft⟩ := Nat.exists_eq_add_one_of_ne_zero (Nat.sub_ne_zero_of_lt hdepth)
    rw [hleft, expandAliases_of_simple? hname, htarget, Option.elim_some, Nat.add_sub_cancel]

/-- A parameter under a reference among the arguments of a type, where its name is known in the
namespace around the class template. -/
theorem normalize_param_map :
    let s : Survey := ⟨#[], [], ["ns::T", "ns::Box"], ⟨[("U", .fundamental "double")]⟩, [], []⟩
    let scope : Scope := ⟨["ns"], .unmarked, ["T"], some ("Box",
      .ofBase (.named false [.plain "ns", .applied "Box" [.type (.named "T")]]))⟩
    let u : TypeExpr := ⟨true, false, .named false [.plain "T"], [.lvalueRef]⟩
    let t : TypeExpr := .ofBase (.named false [.plain "std", .applied "map" [
      .type (.named "Box"), .type (.ofBase (.named false [.applied "list" [.type u]]))]])
    t.at? [1, 0] = some (.type u) ∧ u.simple? = some "T" ∧ scope.Hides "T" ∧
      (s.normalize scope t).at? [1, 0] = some (.type u) := by
  intro s scope u t
  have hhides : scope.Hides "T" := ⟨by decide, by rintro p ⟨⟩; decide⟩
  exact ⟨rfl, rfl, hhides, (normalize_param (s := s) rfl rfl hhides).1 rfl⟩

/-- A parameter that is called like an alias. -/
theorem normalize_param_alias :
    let s : Survey := ⟨#[], [], ["T"], ⟨[("T", .fundamental "double")]⟩, [], []⟩
    let scope : Scope := { templateParams := ["T"] }
    scope.Hides "T" ∧ s.normalize scope (.named "T") = .fundamental "double" ∧
      s.normalize scope (.named "T") ≠ .named "T" := by
  intro s scope
  have hdouble : s.normalize scope (.named "T") = .fundamental "double" := by
    have hname : (TypeExpr.named "T").simple? = some "T" := rfl
    have hlead : s.leadFor scope ["T"] = none := by simp [leadFor, scope]
    have halias : s.aliases.find? "T" = some (.fundamental "double") := rfl
    have htarget : TypeExpr.expandAliases s.aliasOf 15 (.fundamental "double") =
        .fundamental "double" := rfl
    rw [normalize, injectedBindings, TypeExpr.substitute_empty, qualify_of_simple? hname hlead,
      TypeExpr.unaliased, TypeExpr.maxAliasDepth, expandAliases_of_simple? hname, halias,
      Option.elim_some, htarget]
    simp [TypeExpr.around, TypeExpr.addQualifiers, TypeExpr.fundamental, TypeExpr.named,
      TypeExpr.ofBase, collapseRefs]
  refine ⟨⟨by decide, by rintro p ⟨⟩⟩, hdouble, ?_⟩
  rw [hdouble]
  simp [TypeExpr.fundamental, TypeExpr.named, TypeExpr.ofBase]

/-- The tokens of a value are left as they are, but for the name of the class template. -/
theorem normalize_value {text : String} (h : t.at? path = some (.value text)) :
    (s.normalize scope t).at? path = some (.value (if scope.injected.isNone then text
      else TemplateArg.substituteText (injectedBindings scope) text)) := by
  have hpath : path ≠ [] := by
    rintro rfl
    cases h
  rw [at?_normalize s (at?_substitute_injected h hpath)]
  split
  · rw [TemplateArg.qualify, TemplateArg.mapType]
  · rw [TemplateArg.substitute, TemplateArg.qualify, TemplateArg.mapType]

end Survey
end Bindery
