import Bindery.Proofs.TypeExpr.Sameness
import Bindery.Proofs.TypeExpr.Soundness

/-!
# Completeness of matching

A pattern matches whatever arises from it by replacing its parameters, and the match finds the
arguments again. They are found as they were put in when the argument of a parameter is a type
without qualifiers and declarators, so that nothing of it can be mistaken for a part of the pattern,
or a value for a parameter that is nowhere more than a whole template argument. A parameter that
stands in several places is bound at the first one and compared at the others.

## Main definitions

* `TypeExpr.uses`: the places where a type has an unqualified name without arguments.
* `Bindings.IsRestriction`: bindings cut down to some names.

## Main statements

* `TypeExpr.unify_substitute`: a pattern matches what arises from it.
-/
namespace Bindery

/-! ## Where names stand in a type -/

/-- A place where a type has an unqualified name without arguments. -/
structure NameUse where
  name : String
  /-- The name is the whole of a template argument. -/
  isArgument : Bool

mutual
/-- The unqualified names without arguments in a type, which stands as a template argument or in
another place. -/
def TypeExpr.uses (isArgument : Bool) : TypeExpr → List NameUse
  | ⟨isConst, isVolatile, base, declarators⟩ =>
    match TypeExpr.simpleBase? base with
    | some name => [⟨name, isArgument && TypeExpr.isBare ⟨isConst, isVolatile, base, declarators⟩⟩]
    | none => base.uses

/-- The names in the arguments of a base. -/
def TypeBase.uses : TypeBase → List NameUse
  | .fundamental _ => []
  | .named _ segments => NameSegment.allUses segments

/-- The names in the arguments of a segment. -/
def NameSegment.uses : NameSegment → List NameUse
  | .plain _ => []
  | .applied _ args => TemplateArg.allUses args

/-- The names in an argument. -/
def TemplateArg.uses : TemplateArg → List NameUse
  | .type t => t.uses true
  | .value _ => []

/-- The names in the arguments of a path. -/
def NameSegment.allUses : List NameSegment → List NameUse
  | [] => []
  | s :: ss => s.uses ++ NameSegment.allUses ss

/-- The names in a list of arguments. -/
def TemplateArg.allUses : List TemplateArg → List NameUse
  | [] => []
  | a :: as => a.uses ++ TemplateArg.allUses as
end

namespace TypeExpr

/-- The unqualified names without arguments in a type. -/
def simpleNames (t : TypeExpr) : List String := (t.uses false).map NameUse.name

theorem uses_of_simple? {t : TypeExpr} {name : String} (h : t.simple? = some name)
    (isArgument : Bool) : t.uses isArgument = [⟨name, isArgument && t.isBare⟩] := by
  obtain ⟨isConst, isVolatile, base, declarators⟩ := t
  have hbase : simpleBase? base = some name := h
  rw [uses]
  simp only [hbase]

theorem uses_of_simple?_eq_none {t : TypeExpr} (h : t.simple? = none) (isArgument : Bool) :
    t.uses isArgument = t.base.uses := by
  obtain ⟨isConst, isVolatile, base, declarators⟩ := t
  have hbase : simpleBase? base = none := h
  rw [uses]
  simp only [hbase]

/-- Where the type stands makes no difference to the names in it. -/
theorem map_name_uses (t : TypeExpr) (isArgument : Bool) :
    (t.uses isArgument).map NameUse.name = t.simpleNames := by
  rw [simpleNames]
  cases h : t.simple? with
  | some name => rw [uses_of_simple? h, uses_of_simple? h]; rfl
  | none => rw [uses_of_simple?_eq_none h, uses_of_simple?_eq_none h]

end TypeExpr

theorem TypeBase.uses_of_simpleBase? {base : TypeBase} {name : String}
    (h : TypeExpr.simpleBase? base = some name) : base.uses = [] := by
  rw [TypeBase.eq_of_simpleBase? h]
  simp [TypeBase.uses, NameSegment.allUses, NameSegment.uses]

/-! ## Assignments -/

/-- Every parameter has an argument, nothing else has one, and what is a type is its base alone. -/
structure Bindings.Assigns (b : Bindings) (params : List String) : Prop where
  isSome_iff : ∀ name, (b.find? name).isSome ↔ name ∈ params
  isBare : ∀ name t, b.find? name = some (.type t) → t.isBare = true

/-- A value is put in only for a whole template argument. -/
def Bindings.Admits (b : Bindings) (u : NameUse) : Prop :=
  ∀ text, b.find? u.name = some (.value text) → u.isArgument = true

/-- The bindings `d` have just the arguments that `b` has for the names. -/
structure Bindings.IsRestriction (b : Bindings) (names : List String) (d : Bindings) : Prop where
  find?_eq : ∀ name, d.find? name = if name ∈ names then b.find? name else none
  nodup_keys : d.keys.Nodup

namespace Bindings.IsRestriction

variable {b d : Bindings} {names names' : List String}

theorem empty (b : Bindings) : IsRestriction b [] {} :=
  ⟨fun _ => rfl, List.nodup_nil⟩

/-- Only the names that have an argument make a difference. -/
theorem congr (h : IsRestriction b names d)
    (hnames : ∀ name, (b.find? name).isSome → (name ∈ names ↔ name ∈ names')) :
    IsRestriction b names' d := by
  refine ⟨fun name => ?_, h.nodup_keys⟩
  rw [h.find?_eq]
  cases hfound : b.find? name with
  | none => rw [ite_self, ite_self]
  | some arg => simp only [hnames name (by rw [hfound]; rfl)]

/-- One more name is bound to its argument, or was bound to it before. -/
theorem bind (h : IsRestriction b names d) {param : String} {arg : TemplateArg}
    (harg : b.find? param = some arg) :
    ∃ d', d.bind param arg = (true, d') ∧ IsRestriction b (names ++ [param]) d' := by
  have hparam := h.find?_eq param
  rw [harg] at hparam
  by_cases hmem : param ∈ names
  · rw [if_pos hmem] at hparam
    refine ⟨d, by simp [Bindings.bind, hparam], h.congr fun name _ => ?_⟩
    rw [List.mem_append, List.mem_singleton, or_iff_left_of_imp]
    rintro rfl
    exact hmem
  · rw [if_neg hmem] at hparam
    refine ⟨d.insert param arg, by simp [Bindings.bind, hparam], fun name => ?_,
      OrderedMap.nodup_keys_insert h.nodup_keys⟩
    rw [OrderedMap.find?_insert, h.find?_eq]
    by_cases hname : name = param
    · simp [hname, harg]
    · simp [hname]

end Bindings.IsRestriction

/-! ## What a parameter takes -/

theorem TypeExpr.Regular.base : ∀ {t : TypeExpr}, t.Regular → t.base.Regular
  | ⟨_, _, _, _⟩, h => by
    rw [TypeExpr.Regular] at h
    exact h.1

/-- A pattern put around a bare type leaves this type when it is taken off again. -/
theorem TypeExpr.residue?_around {p r : TypeExpr} (hp : Indirection.Separated p.declarators)
    (hr : r.isBare = true) : p.residue? (p.around r) = some r := by
  obtain ⟨isConst, isVolatile, base, declarators⟩ := r
  obtain ⟨rfl, rfl, rfl⟩ := TypeExpr.isBare_iff.1 hr
  have haround : p.around ⟨false, false, base, []⟩ =
      ⟨p.isConst, p.isVolatile, base, p.declarators⟩ := by
    simp [TypeExpr.around, TypeExpr.addQualifiers, collapseRefs_of_separated hp]
  rw [haround]
  simp [TypeExpr.residue?]

/-! ## Completeness -/

section Completeness

variable {params : List String} {b : Bindings}

namespace Bindings.Assigns

theorem mem_params (hb : b.Assigns params) {name : String} {arg : TemplateArg}
    (h : b.find? name = some arg) : name ∈ params :=
  (hb.isSome_iff name).1 (by rw [h]; rfl)

theorem param?_of_find? (hb : b.Assigns params) {t : TypeExpr} {name : String} {arg : TemplateArg}
    (hname : t.simple? = some name) (h : b.find? name = some arg) :
    t.param? params = some name := by
  simp [TypeExpr.param?, hname, hb.mem_params h]

theorem param?_of_none (hb : b.Assigns params) {t : TypeExpr}
    (h : t.simple?.bind b.find? = none) : t.param? params = none := by
  cases hname : t.simple? with
  | none => simp [TypeExpr.param?, hname]
  | some name =>
    rw [hname, Option.bind_some] at h
    have hparam : name ∉ params := by
      rw [← hb.isSome_iff, h]
      exact Bool.false_ne_true
    simp [TypeExpr.param?, hname, hparam]

/-- A parameter with something around it takes back the type that was put in. -/
theorem matchParam_around (hb : b.Assigns params) {p r : TypeExpr} {name : String}
    {names : List String} {d : Bindings} (hp : Indirection.Separated p.declarators)
    (hfound : b.find? name = some (.type r)) (hd : b.IsRestriction names d) :
    ∃ d', p.matchParam name (p.around r) d = (true, d') ∧
      b.IsRestriction (names ++ [name]) d' := by
  obtain ⟨d', hbind, hd'⟩ := hd.bind hfound
  refine ⟨d', ?_, hd'⟩
  rw [TypeExpr.matchParam, TypeExpr.residue?_around hp (hb.isBare name r hfound)]
  exact hbind

/-- A bare parameter among template arguments takes back whatever was put in. -/
theorem unify_bare (hb : b.Assigns params) {p : TypeExpr} {name : String} {arg : TemplateArg}
    {names : List String} {d : Bindings} (hname : p.simple? = some name)
    (hfound : b.find? name = some arg) (hbare : p.isBare = true) (hd : b.IsRestriction names d) :
    ∃ d', (TemplateArg.type p).unify params arg d = (true, d') ∧
      b.IsRestriction (names ++ [name]) d' := by
  have hparam := hb.param?_of_find? hname hfound
  obtain ⟨d', hbind, hd'⟩ := hd.bind hfound
  refine ⟨d', ?_, hd'⟩
  rw [← hbind]
  cases arg with
  | type r =>
    rw [TemplateArg.unify, TypeExpr.unify_of_param? hparam, TypeExpr.matchParam,
      TypeExpr.residue?_of_isBare hbare]
  | value text =>
    rw [TemplateArg.unify]
    simp only [hparam]

end Bindings.Assigns

/-- Where no value is put in, a pattern matches what arises from it if its base does. -/
theorem TypeExpr.exists_unify_of_base (hb : b.Assigns params) {p : TypeExpr} {names : List String}
    {d : Bindings} (hp : p.Regular) (hadmits : ∀ u ∈ p.uses false, b.Admits u)
    (hd : b.IsRestriction names d)
    (ih : p.base.Regular → (∀ u ∈ p.base.uses, b.Admits u) →
      ∃ d', p.base.unify params (p.base.substitute b) d = (true, d') ∧
        b.IsRestriction (names ++ p.base.uses.map NameUse.name) d') :
    ∃ d', p.unify params (p.substitute b) d = (true, d') ∧
      b.IsRestriction (names ++ p.simpleNames) d' := by
  rw [TypeExpr.simpleNames]
  cases hfound : p.simple?.bind b.find? with
  | some arg =>
    obtain ⟨name, hname, harg⟩ := Option.bind_eq_some_iff.1 hfound
    rw [TypeExpr.uses_of_simple? hname] at hadmits ⊢
    cases arg with
    | value text => exact absurd (hadmits _ (.head _) text harg) (by simp)
    | type r =>
      rw [TypeExpr.substitute_of_find? hname harg,
        TypeExpr.unify_of_param? (hb.param?_of_find? hname harg)]
      exact hb.matchParam_around hp.separated harg hd
  | none =>
    have hnone := hb.param?_of_none hfound
    have hinner : ∀ u ∈ p.base.uses, b.Admits u := by
      cases hsimple : p.simple? with
      | some name => simp [TypeBase.uses_of_simpleBase? hsimple]
      | none => rwa [TypeExpr.uses_of_simple?_eq_none hsimple] at hadmits
    obtain ⟨d', hunify, hd'⟩ := ih hp.base hinner
    refine ⟨d', ?_, hd'.congr fun name hname => ?_⟩
    · rw [TypeExpr.substitute_of_none hp.base.substitute_empty hfound]
      obtain ⟨isConst, isVolatile, base, declarators⟩ := p
      rw [TypeExpr.unify]
      simpa [hnone] using hunify
    · -- A name that is the whole base has no argument here, so it need not be bound.
      cases hsimple : p.simple? with
      | none => rw [TypeExpr.uses_of_simple?_eq_none hsimple]
      | some other =>
        rw [hsimple, Option.bind_some] at hfound
        have hne : name ≠ other := by
          rintro rfl
          rw [hfound] at hname
          cases hname
        rw [TypeExpr.uses_of_simple? hsimple, TypeBase.uses_of_simpleBase? hsimple]
        simp [hne]

/-- A type among template arguments matches what arises from it if it does so elsewhere. -/
theorem TemplateArg.exists_unify_of_type (hb : b.Assigns params) {t : TypeExpr}
    {names : List String} {d : Bindings} (hadmits : ∀ u ∈ t.uses true, b.Admits u)
    (hd : b.IsRestriction names d)
    (ih : (∀ u ∈ t.uses false, b.Admits u) → ∃ d', t.unify params (t.substitute b) d = (true, d') ∧
      b.IsRestriction (names ++ t.simpleNames) d') :
    ∃ d', (TemplateArg.type t).unify params ((TemplateArg.type t).substitute b) d = (true, d') ∧
      b.IsRestriction (names ++ t.simpleNames) d' := by
  have hplain (hsub : (TemplateArg.type t).substitute b = .type (t.substitute b))
      (hinner : ∀ u ∈ t.uses false, b.Admits u) :
      ∃ d', (TemplateArg.type t).unify params ((TemplateArg.type t).substitute b) d = (true, d') ∧
        b.IsRestriction (names ++ t.simpleNames) d' := by
    rw [hsub, TemplateArg.unify]
    exact ih hinner
  cases hname : t.simple? with
  | none =>
    refine hplain (by rw [TemplateArg.substitute, hname, Option.bind_none]) ?_
    rwa [TypeExpr.uses_of_simple?_eq_none hname] at hadmits ⊢
  | some name =>
    rw [TypeExpr.uses_of_simple? hname] at hadmits
    cases harg : b.find? name with
    | none =>
      refine hplain (by rw [TemplateArg.substitute, hname, Option.bind_some, harg]) ?_
      simp [TypeExpr.uses_of_simple? hname, Bindings.Admits, harg]
    | some arg =>
      cases hbare : t.isBare with
      | false =>
        refine hplain (by simp [TemplateArg.substitute, hname, harg, hbare]) ?_
        simpa [TypeExpr.uses_of_simple? hname, hbare] using hadmits
      | true =>
        have hsub : (TemplateArg.type t).substitute b = arg := by
          simp [TemplateArg.substitute, hname, harg, hbare]
        rw [hsub, TypeExpr.simpleNames, TypeExpr.uses_of_simple? hname]
        exact hb.unify_bare hname harg hbare hd

mutual
/-- A pattern matches what arises from it, and binds the names in it to what was put in. -/
theorem TypeExpr.exists_unify_substitute (hb : b.Assigns params) :
    ∀ {p : TypeExpr} {names : List String} {d : Bindings},
    p.Regular → (∀ u ∈ p.uses false, b.Admits u) → b.IsRestriction names d →
    ∃ d', p.unify params (p.substitute b) d = (true, d') ∧
      b.IsRestriction (names ++ p.simpleNames) d'
  | ⟨_, _, _, _⟩, _, _, hp, hadmits, hd =>
    TypeExpr.exists_unify_of_base hb hp hadmits hd fun hbase hinner =>
      TypeBase.exists_unify_substitute hb hbase hinner hd

theorem TypeBase.exists_unify_substitute (hb : b.Assigns params) :
    ∀ {p : TypeBase} {names : List String} {d : Bindings},
    p.Regular → (∀ u ∈ p.uses, b.Admits u) → b.IsRestriction names d →
    ∃ d', p.unify params (p.substitute b) d = (true, d') ∧
      b.IsRestriction (names ++ p.uses.map NameUse.name) d'
  | .fundamental name, names, d, _, _, hd => by
    refine ⟨d, by simp [TypeBase.substitute, TypeBase.unify], ?_⟩
    simpa [TypeBase.uses] using hd
  | .named isGlobal segments, names, d, hp, hadmits, hd => by
    have hsegments : NameSegment.AllRegular segments := by simpa [TypeBase.Regular] using hp
    rw [TypeBase.uses] at hadmits ⊢
    obtain ⟨d', hlength, hunify, hd'⟩ :=
      NameSegment.exists_unifyAll_substituteAll hb hsegments hadmits hd
    refine ⟨d', ?_, hd'⟩
    rw [TypeBase.substitute, TypeBase.unify, if_pos hlength, hunify]

theorem NameSegment.exists_unify_substitute (hb : b.Assigns params) :
    ∀ {p : NameSegment} {names : List String} {d : Bindings}, p.Regular →
    (∀ u ∈ p.uses, b.Admits u) → b.IsRestriction names d →
    ∃ d', p.unify params (p.substitute b) d = (true, d') ∧
      b.IsRestriction (names ++ p.uses.map NameUse.name) d'
  | .plain name, names, d, _, _, hd => by
    refine ⟨d, by simp [NameSegment.substitute, NameSegment.unify], ?_⟩
    simpa [NameSegment.uses] using hd
  | .applied name args, names, d, hp, hadmits, hd => by
    have hargs : TemplateArg.AllRegular args := by simpa [NameSegment.Regular] using hp
    rw [NameSegment.uses] at hadmits ⊢
    obtain ⟨d', hlength, hunify, hd'⟩ :=
      TemplateArg.exists_unifyAll_substituteAll hb hargs hadmits hd
    refine ⟨d', ?_, hd'⟩
    rw [NameSegment.substitute, NameSegment.unify, if_pos (by simpa using hlength), hunify]

theorem TemplateArg.exists_unify_substitute (hb : b.Assigns params) :
    ∀ {p : TemplateArg} {names : List String} {d : Bindings}, p.Regular →
    (∀ u ∈ p.uses, b.Admits u) → b.IsRestriction names d →
    ∃ d', p.unify params (p.substitute b) d = (true, d') ∧
      b.IsRestriction (names ++ p.uses.map NameUse.name) d'
  | .type t, _, _, hp, hadmits, hd => by
    rw [TemplateArg.uses] at hadmits ⊢
    rw [TypeExpr.map_name_uses]
    have ht : t.Regular := by simpa [TemplateArg.Regular] using hp
    exact TemplateArg.exists_unify_of_type hb hadmits hd fun hinner =>
      TypeExpr.exists_unify_substitute hb ht hinner hd
  | .value text, names, d, hp, _, hd => by
    have htext : TemplateArg.IsInteger text := by simpa [TemplateArg.Regular] using hp
    refine ⟨d, ?_, by simpa [TemplateArg.uses] using hd⟩
    rw [TemplateArg.substitute, htext.substituteText, TemplateArg.unify,
      TemplateArg.sameValue_self]

theorem NameSegment.exists_unifyAll_substituteAll (hb : b.Assigns params) :
    ∀ {ps : List NameSegment} {names : List String} {d : Bindings}, NameSegment.AllRegular ps →
    (∀ u ∈ NameSegment.allUses ps, b.Admits u) → b.IsRestriction names d →
    ∃ d', ps.length = (NameSegment.substituteAll b ps).length ∧
      NameSegment.unifyAll params ps (NameSegment.substituteAll b ps) d = (true, d') ∧
      b.IsRestriction (names ++ (NameSegment.allUses ps).map NameUse.name) d'
  | [], names, d, _, _, hd => by
    refine ⟨d, by simp [NameSegment.substituteAll],
      by simp [NameSegment.substituteAll, NameSegment.unifyAll], ?_⟩
    simpa [NameSegment.allUses] using hd
  | p :: ps, names, d, hp, hadmits, hd => by
    obtain ⟨hhead, htail⟩ : p.Regular ∧ NameSegment.AllRegular ps := by
      simpa [NameSegment.AllRegular] using hp
    rw [NameSegment.allUses] at hadmits ⊢
    obtain ⟨hfirst, hrest⟩ := List.forall_mem_append.1 hadmits
    obtain ⟨d₁, hunify, hd₁⟩ := NameSegment.exists_unify_substitute hb hhead hfirst hd
    obtain ⟨d', hlength, hunifyAll, hd'⟩ :=
      NameSegment.exists_unifyAll_substituteAll hb htail hrest hd₁
    refine ⟨d', by simp [NameSegment.substituteAll, ← hlength], ?_, ?_⟩
    · rw [NameSegment.substituteAll, NameSegment.unifyAll, hunify]
      exact hunifyAll
    · rwa [List.map_append, ← List.append_assoc]

theorem TemplateArg.exists_unifyAll_substituteAll (hb : b.Assigns params) :
    ∀ {ps : List TemplateArg} {names : List String} {d : Bindings}, TemplateArg.AllRegular ps →
    (∀ u ∈ TemplateArg.allUses ps, b.Admits u) → b.IsRestriction names d →
    ∃ d', ps.length = (TemplateArg.substituteAll b ps).length ∧
      TemplateArg.unifyAll params ps (TemplateArg.substituteAll b ps) d = (true, d') ∧
      b.IsRestriction (names ++ (TemplateArg.allUses ps).map NameUse.name) d'
  | [], names, d, _, _, hd => by
    refine ⟨d, by simp [TemplateArg.substituteAll],
      by simp [TemplateArg.substituteAll, TemplateArg.unifyAll], ?_⟩
    simpa [TemplateArg.allUses] using hd
  | p :: ps, names, d, hp, hadmits, hd => by
    obtain ⟨hhead, htail⟩ : p.Regular ∧ TemplateArg.AllRegular ps := by
      simpa [TemplateArg.AllRegular] using hp
    rw [TemplateArg.allUses] at hadmits ⊢
    obtain ⟨hfirst, hrest⟩ := List.forall_mem_append.1 hadmits
    obtain ⟨d₁, hunify, hd₁⟩ := TemplateArg.exists_unify_substitute hb hhead hfirst hd
    obtain ⟨d', hlength, hunifyAll, hd'⟩ :=
      TemplateArg.exists_unifyAll_substituteAll hb htail hrest hd₁
    refine ⟨d', by simp [TemplateArg.substituteAll, ← hlength], ?_, ?_⟩
    · rw [TemplateArg.substituteAll, TemplateArg.unifyAll, hunify]
      exact hunifyAll
    · rwa [List.map_append, ← List.append_assoc]
end

end Completeness

/-- **Completeness of matching**: a regular pattern matches what arises from it by an assignment of
its parameters, and the match finds the assignment again, restricted to the names in the pattern. -/
theorem TypeExpr.unify_substitute {params : List String} {p : TypeExpr} {b : Bindings}
    (hp : p.Regular) (hb : b.Assigns params) (hadmits : ∀ u ∈ p.uses false, b.Admits u) :
    ∃ d, p.unify params (p.substitute b) {} = (true, d) ∧ b.IsRestriction p.simpleNames d := by
  simpa using TypeExpr.exists_unify_substitute hb hp hadmits (.empty b)

/-- A parameter in two places, once under a constant reference, one that stands for a value, and one
that does not occur. -/
theorem TypeExpr.unify_substitute_pair :
    let p : TypeExpr := .ofBase (.named false [.applied "A" [.type ⟨true, false,
      .named false [.plain "T"], [.lvalueRef]⟩, .type (.named "N"), .type (.named "T"),
      .value "0x10"]])
    let b : Bindings := ⟨[("N", .value "3"), ("U", .type (.fundamental "int")),
      ("T", .type (.ofBase (.named false [.applied "B" [.value "2"]])))]⟩
    p.Regular ∧ b.Assigns ["T", "N", "U"] ∧ (∀ u ∈ p.uses false, b.Admits u) ∧
      ∃ d, p.unify ["T", "N", "U"] (p.substitute b) {} = (true, d) ∧
        b.IsRestriction ["T", "N", "T"] d := by
  intro p b
  have hsixteen : TemplateArg.IsInteger "0x10" :=
    ⟨_, Token.isSingle_of_next (by decide) rfl, .inl rfl⟩
  have hp : p.Regular := by
    simp [p, TypeExpr.ofBase, TypeExpr.named, TypeExpr.Regular, TypeBase.Regular,
      NameSegment.AllRegular, NameSegment.Regular, TemplateArg.AllRegular, TemplateArg.Regular,
      Indirection.Separated, hsixteen]
  have hfind (name : String) : b.find? name =
      if name = "N" then some (.value "3") else if name = "U" then some (.type (.fundamental "int"))
      else if name = "T" then some (.type (.ofBase (.named false [.applied "B" [.value "2"]])))
      else none := by
    simp only [b, OrderedMap.find?, List.find?_cons, List.find?_nil, eq_comm (b := name)]
    grind
  have hb : b.Assigns ["T", "N", "U"] := by
    refine ⟨fun name => ?_, fun name t ht => ?_⟩
    · rw [hfind]
      grind
    · rw [hfind] at ht
      grind [TypeExpr.isBare, TypeExpr.fundamental, TypeExpr.ofBase]
  have huses : p.uses false = [⟨"T", false⟩, ⟨"N", true⟩, ⟨"T", true⟩] := rfl
  have hadmits : ∀ u ∈ p.uses false, b.Admits u := by
    rw [huses]
    simp [Bindings.Admits, hfind]
  exact ⟨hp, hb, hadmits, TypeExpr.unify_substitute hp hb hadmits⟩

end Bindery
