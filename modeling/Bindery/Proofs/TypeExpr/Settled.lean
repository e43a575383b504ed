import Bindery.TypeExpr.Substitution

/-!
# Types that are complete as they are written

A type is settled when none of its names gets anything in front of it and none is an alias.
Completing names and expanding aliases leave such a type as it is.

## Main definitions

* `TypeExpr.Settled`: no name of a type is completed or expanded.

## Main statements

* `TypeExpr.qualify_settled`, `TypeExpr.unaliased_settled`: settled types stay as they are.
-/
namespace Bindery

section Settled

variable (leadFor : List String → Option (List String))
variable (lookup : List NameSegment → Option TypeExpr)

mutual
/-- No name in the type is completed or expanded. -/
def TypeExpr.Settled : TypeExpr → Prop
  | ⟨_, _, base, _⟩ => base.Settled

/-- No name in the base is completed or expanded. -/
def TypeBase.Settled : TypeBase → Prop
  | .fundamental _ => True
  | .named isGlobal segments =>
    (isGlobal = true ∨ leadFor (NameSegment.names segments) = none) ∧ lookup segments = none ∧
      NameSegment.AllSettled segments

/-- No name in the arguments of the segment is completed or expanded. -/
def NameSegment.Settled : NameSegment → Prop
  | .plain _ => True
  | .applied _ args => TemplateArg.AllSettled args

/-- No name in the argument is completed or expanded. -/
def TemplateArg.Settled : TemplateArg → Prop
  | .type t => t.Settled
  | .value _ => True

/-- No name in the arguments of the segments is completed or expanded. -/
def NameSegment.AllSettled : List NameSegment → Prop
  | [] => True
  | s :: ss => s.Settled ∧ NameSegment.AllSettled ss

/-- No name in the arguments is completed or expanded. -/
def TemplateArg.AllSettled : List TemplateArg → Prop
  | [] => True
  | a :: as => a.Settled ∧ TemplateArg.AllSettled as
end

end Settled

variable {leadFor : List String → Option (List String)}
variable {lookup : List NameSegment → Option TypeExpr}

/-! ## Completing names -/

mutual
/-- A settled type has no name to complete. -/
theorem TypeExpr.qualify_settled : ∀ {t : TypeExpr}, t.Settled leadFor lookup →
    t.qualify leadFor = t
  | ⟨_, _, base, _⟩, h => by
    rw [TypeExpr.Settled] at h
    rw [TypeExpr.qualify, TypeBase.qualify_settled h]

/-- A settled base has no name to complete. -/
theorem TypeBase.qualify_settled : ∀ {base : TypeBase}, base.Settled leadFor lookup →
    base.qualify leadFor = base
  | .fundamental _, _ => by rw [TypeBase.qualify]
  | .named isGlobal segments, h => by
    rw [TypeBase.Settled] at h
    obtain ⟨hlead, -, hsegments⟩ := h
    rw [TypeBase.qualify, NameSegment.qualifyAll_settled hsegments, TypeBase.qualifyPath]
    rcases hlead with rfl | hlead
    · rfl
    · rw [hlead]
      split <;> rfl

/-- A settled segment has no name to complete. -/
theorem NameSegment.qualify_settled : ∀ {s : NameSegment}, s.Settled leadFor lookup →
    s.qualify leadFor = s
  | .plain _, _ => by rw [NameSegment.qualify]
  | .applied _ args, h => by
    rw [NameSegment.Settled] at h
    rw [NameSegment.qualify, TemplateArg.qualifyAll_settled h]

/-- A settled argument has no name to complete. -/
theorem TemplateArg.qualify_settled : ∀ {a : TemplateArg}, a.Settled leadFor lookup →
    a.qualify leadFor = a
  | .type t, h => by
    rw [TemplateArg.Settled] at h
    rw [TemplateArg.qualify, TypeExpr.qualify_settled h]
  | .value _, _ => by rw [TemplateArg.qualify]

/-- Settled segments have no name to complete. -/
theorem NameSegment.qualifyAll_settled : ∀ {ss : List NameSegment},
    NameSegment.AllSettled leadFor lookup ss → NameSegment.qualifyAll leadFor ss = ss
  | [], _ => by rw [NameSegment.qualifyAll]
  | s :: ss, h => by
    rw [NameSegment.AllSettled] at h
    rw [NameSegment.qualifyAll, NameSegment.qualify_settled h.1,
      NameSegment.qualifyAll_settled h.2]

/-- Settled arguments have no name to complete. -/
theorem TemplateArg.qualifyAll_settled : ∀ {as : List TemplateArg},
    TemplateArg.AllSettled leadFor lookup as → TemplateArg.qualifyAll leadFor as = as
  | [], _ => by rw [TemplateArg.qualifyAll]
  | a :: as, h => by
    rw [TemplateArg.AllSettled] at h
    rw [TemplateArg.qualifyAll, TemplateArg.qualify_settled h.1,
      TemplateArg.qualifyAll_settled h.2]
end

/-! ## Expanding aliases -/

section MapTypes

variable {f : TypeExpr → TypeExpr} (hf : ∀ t : TypeExpr, t.Settled leadFor lookup → f t = t)

include hf

theorem TemplateArg.map_settled {as : List TemplateArg}
    (h : TemplateArg.AllSettled leadFor lookup as) : as.map (TemplateArg.mapType f) = as := by
  induction as with
  | nil => rfl
  | cons a as ih =>
    rw [TemplateArg.AllSettled] at h
    rw [List.map_cons, ih h.2]
    cases a with
    | type t => rw [TemplateArg.mapType, hf t (by simpa only [TemplateArg.Settled] using h.1)]
    | value text => rfl

theorem NameSegment.map_settled {ss : List NameSegment}
    (h : NameSegment.AllSettled leadFor lookup ss) : ss.map (NameSegment.mapTypes f) = ss := by
  induction ss with
  | nil => rfl
  | cons s ss ih =>
    rw [NameSegment.AllSettled] at h
    rw [List.map_cons, ih h.2]
    cases s with
    | plain name => rfl
    | applied name args =>
      have hargs := h.1
      rw [NameSegment.Settled] at hargs
      rw [NameSegment.mapTypes, TemplateArg.map_settled hf hargs]

theorem TypeBase.mapTypes_settled {base : TypeBase} (h : base.Settled leadFor lookup) :
    base.mapTypes f = base := by
  cases base with
  | fundamental name => rfl
  | named isGlobal segments =>
    rw [TypeBase.Settled] at h
    rw [TypeBase.mapTypes, NameSegment.map_settled hf h.2.2]

end MapTypes

namespace TypeExpr

/-- A settled type has no alias to expand. -/
theorem expandAliases_settled (depth : Nat) {t : TypeExpr} (h : t.Settled leadFor lookup) :
    expandAliases lookup depth t = t := by
  induction depth generalizing t with
  | zero => rfl
  | succ depth ih =>
    obtain ⟨isConst, isVolatile, base, declarators⟩ := t
    rw [Settled] at h
    rw [expandAliases, TypeBase.mapTypes_settled (fun _ => ih) h]
    cases base with
    | fundamental name => rfl
    | named isGlobal segments =>
      rw [TypeBase.Settled] at h
      simp only [h.2.1]

theorem unaliased_settled {t : TypeExpr} (h : t.Settled leadFor lookup) :
    t.unaliased lookup = t :=
  expandAliases_settled maxAliasDepth h

end TypeExpr
end Bindery
