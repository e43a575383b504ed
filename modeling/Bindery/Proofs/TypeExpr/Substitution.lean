import Bindery.TypeExpr.Substitution

/-!
# Laws of replacing parameters

A type is replaced as a whole when it is a bound parameter, and inside its template arguments when
it is not. Where nothing is bound, only the values among the arguments could change, since they are
spelled anew.

## Main definitions

* `TypeBase.args`: the template arguments of a base.

## Main statements

* `TypeExpr.substitute_of_none`: what happens to a type that is no bound parameter.
* `TypeExpr.substitute_empty`: where nothing is bound, nothing is replaced.
-/
namespace Bindery

/-- The template arguments of all segments of a base. -/
def TypeBase.args : TypeBase → List TemplateArg
  | .fundamental _ => []
  | .named _ segments => segments.flatMap fun s => s.args?.getD []

variable {b : Bindings}

theorem TemplateArg.substituteAll_eq_map (b : Bindings) (as : List TemplateArg) :
    TemplateArg.substituteAll b as = as.map (·.substitute b) := by
  induction as with
  | nil => simp [TemplateArg.substituteAll]
  | cons a as ih => rw [TemplateArg.substituteAll, ih, List.map_cons]

theorem NameSegment.substituteAll_eq_map (b : Bindings) (ss : List NameSegment) :
    NameSegment.substituteAll b ss = ss.map (·.substitute b) := by
  induction ss with
  | nil => simp [NameSegment.substituteAll]
  | cons s ss ih => rw [NameSegment.substituteAll, ih, List.map_cons]

/-- The arguments are replaced one by one. -/
theorem TypeBase.args_substitute (b : Bindings) (base : TypeBase) :
    (base.substitute b).args = base.args.map (·.substitute b) := by
  cases base with
  | fundamental name => simp [TypeBase.substitute, TypeBase.args]
  | named isGlobal segments =>
    rw [TypeBase.substitute, NameSegment.substituteAll_eq_map]
    simp only [TypeBase.args, List.flatMap_map, List.map_flatMap]
    congr 1
    funext s
    cases s with
    | plain name => rfl
    | applied name args =>
      simp [NameSegment.substitute, NameSegment.args?, TemplateArg.substituteAll_eq_map]

theorem TypeExpr.isBare_iff {t : TypeExpr} : t.isBare = true ↔
    t.declarators = [] ∧ t.isConst = false ∧ t.isVolatile = false := by
  simp only [TypeExpr.isBare, Bool.and_eq_true, List.isEmpty_iff, Bool.not_eq_true', and_assoc]

theorem TypeBase.eq_of_simpleBase? {base : TypeBase} {name : String}
    (h : TypeExpr.simpleBase? base = some name) : base = .named false [.plain name] := by
  match base, h with
  | .named false [.plain _], h =>
    obtain rfl := Option.some.inj h
    rfl

/-- A base that is one name has nothing inside. -/
theorem TypeBase.substitute_of_simpleBase? {base : TypeBase} {name : String}
    (h : TypeExpr.simpleBase? base = some name) : base.substitute b = base := by
  rw [TypeBase.eq_of_simpleBase? h]
  simp [TypeBase.substitute, NameSegment.substituteAll, NameSegment.substitute]

/-- Replacing parameters inside a base does not make it one name. -/
theorem TypeExpr.simpleBase?_substitute (b : Bindings) (base : TypeBase) :
    TypeExpr.simpleBase? (base.substitute b) = TypeExpr.simpleBase? base := by
  match base with
  | .fundamental _ => simp [TypeBase.substitute]
  | .named true _ => simp [TypeBase.substitute, TypeExpr.simpleBase?]
  | .named false [] => simp [TypeBase.substitute, NameSegment.substituteAll]
  | .named false [.plain _] =>
    simp [TypeBase.substitute, NameSegment.substituteAll, NameSegment.substitute]
  | .named false [.applied _ _] =>
    simp [TypeBase.substitute, NameSegment.substituteAll, NameSegment.substitute,
      TypeExpr.simpleBase?]
  | .named false (_ :: _ :: _) =>
    simp [TypeBase.substitute, NameSegment.substituteAll, TypeExpr.simpleBase?]

/-! ## Where nothing is bound -/

theorem TypeExpr.addQualifiers_false (t : TypeExpr) : t.addQualifiers false false = t := by
  obtain ⟨isConst, isVolatile, base, declarators⟩ := t
  rw [TypeExpr.addQualifiers]
  split
  · rename_i c hlast
    obtain ⟨front, rfl⟩ := List.getLast?_eq_some_iff.1 hlast
    simp
  · rfl
  · simp

theorem TypeExpr.substitute_empty (t : TypeExpr) : t.substitute {} = t := by
  obtain ⟨isConst, isVolatile, base, declarators⟩ := t
  rw [TypeExpr.substitute]
  rfl

theorem TemplateArg.substitute_empty {a : TemplateArg}
    (h : ∀ text, a = .value text → TemplateArg.substituteText {} text = text) :
    a.substitute {} = a := by
  cases a with
  | type t =>
    have hnone : t.simple?.bind (OrderedMap.find? ({} : Bindings)) = none := by
      cases t.simple? <;> rfl
    rw [TemplateArg.substitute, hnone, TypeExpr.substitute_empty]
  | value text => rw [TemplateArg.substitute, h text rfl]

theorem TemplateArg.map_substitute_empty {as : List TemplateArg}
    (h : ∀ text, .value text ∈ as → TemplateArg.substituteText {} text = text) :
    as.map (·.substitute {}) = as := by
  refine (List.map_congr_left fun a ha => ?_).trans (List.map_id as)
  exact TemplateArg.substitute_empty fun text heq => h text (heq ▸ ha)

/-- Nothing is replaced in a base whose values are spelled as they are. -/
theorem TypeBase.substitute_empty {base : TypeBase}
    (h : ∀ text, .value text ∈ base.args → TemplateArg.substituteText {} text = text) :
    base.substitute {} = base := by
  cases base with
  | fundamental name => rw [TypeBase.substitute]
  | named isGlobal segments =>
    rw [TypeBase.substitute, NameSegment.substituteAll_eq_map]
    congr 1
    refine (List.map_congr_left fun s hs => ?_).trans (List.map_id segments)
    cases s with
    | plain name => rw [NameSegment.substitute, id]
    | applied name args =>
      rw [NameSegment.substitute, TemplateArg.substituteAll_eq_map,
        TemplateArg.map_substitute_empty, id]
      exact fun text htext => h text (List.mem_flatMap.2 ⟨_, hs, htext⟩)

theorem TypeExpr.substitute_of_isEmpty_eq_false {t : TypeExpr} (hb : b.isEmpty = false)
    (hnone : t.simple?.bind b.find? = none) :
    t.substitute b = { t with base := t.base.substitute b } := by
  obtain ⟨isConst, isVolatile, base, declarators⟩ := t
  have hnone : (TypeExpr.simpleBase? base).bind b.find? = none := hnone
  rw [TypeExpr.substitute, hnone]
  simp only [hb, Bool.false_eq_true, if_false]

theorem Bindings.eq_empty_of_isEmpty (h : b.isEmpty = true) : b = {} := by
  obtain ⟨entries⟩ := b
  exact congrArg OrderedMap.mk (List.isEmpty_iff.1 h)

/-- A type that is no bound parameter is replaced inside. -/
theorem TypeExpr.substitute_of_none {t : TypeExpr} (h : t.base.substitute {} = t.base)
    (hnone : t.simple?.bind b.find? = none) :
    t.substitute b = { t with base := t.base.substitute b } := by
  cases hb : b.isEmpty with
  | false => exact TypeExpr.substitute_of_isEmpty_eq_false hb hnone
  | true =>
    obtain rfl := Bindings.eq_empty_of_isEmpty hb
    rw [h, TypeExpr.substitute_empty]
    obtain ⟨isConst, isVolatile, base, declarators⟩ := t
    rfl

/-- A name that is not bound is left as it is. -/
theorem TypeExpr.substitute_of_unbound {t : TypeExpr} {name : String}
    (hname : t.simple? = some name) (hnone : b.find? name = none) : t.substitute b = t := by
  have hbase (b : Bindings) : t.base.substitute b = t.base :=
    TypeBase.substitute_of_simpleBase? hname
  rw [TypeExpr.substitute_of_none (hbase {}) (by rw [hname, Option.bind_some, hnone]), hbase]
  obtain ⟨isConst, isVolatile, base, declarators⟩ := t
  rfl

end Bindery
