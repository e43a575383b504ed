import Bindery.Proofs.TypeExpr.Alike
import Bindery.Proofs.TypeExpr.Constness
import Bindery.Proofs.TypeExpr.Substitution

/-!
# Soundness of matching

Matching a pattern against a type finds arguments under which the pattern becomes the type, up to a
leading `::` and up to how integers are written. The types must have no reference to a reference,
which would collapse, and no value that is more than an integer. Also then there is one exception: a
parameter among template arguments takes a value as it is, without a look at the qualifiers and
declarators around the parameter. So where these are around a parameter that takes a value, and
nowhere else, the pattern does not become the type.

## Main definitions

* `Bindings.Grows`: what a match does to the bindings.
* `TypeExpr.DressesValue`: the pattern has something around a parameter that takes a value.

## Main statements

* `TypeExpr.alike_substitute_iff`: when a match is sound.
* `TypeExpr.unify_under_pointer`: a match that is not sound.
-/
namespace Bindery

/-! ## Replacing parameters -/

theorem TemplateArg.regular_of_mem {as : List TemplateArg} (h : TemplateArg.AllRegular as) :
    ∀ a ∈ as, a.Regular := by
  induction as with
  | nil => simp
  | cons a as ih =>
    rw [TemplateArg.AllRegular] at h
    exact List.forall_mem_cons.2 ⟨h.1, ih h.2⟩

theorem NameSegment.regular_of_mem {ss : List NameSegment} (h : NameSegment.AllRegular ss) :
    ∀ s ∈ ss, s.Regular := by
  induction ss with
  | nil => simp
  | cons s ss ih =>
    rw [NameSegment.AllRegular] at h
    exact List.forall_mem_cons.2 ⟨h.1, ih h.2⟩

/-- The values among the arguments of a regular base are integers. -/
theorem TypeBase.Regular.isInteger {base : TypeBase} (h : base.Regular) {text : String}
    (hmem : .value text ∈ base.args) : TemplateArg.IsInteger text := by
  cases base with
  | fundamental name => cases hmem
  | named isGlobal segments =>
    rw [TypeBase.Regular] at h
    obtain ⟨s, hs, htext⟩ := List.mem_flatMap.1 hmem
    cases s with
    | plain name => cases htext
    | applied name args =>
      have hargs := NameSegment.regular_of_mem h _ hs
      rw [NameSegment.Regular] at hargs
      simpa [TemplateArg.Regular] using TemplateArg.regular_of_mem hargs _ htext

theorem TypeBase.Regular.substitute_empty {base : TypeBase} (h : base.Regular) :
    base.substitute {} = base :=
  TypeBase.substitute_empty fun _ hmem => (h.isInteger hmem).substituteText {}

/-! ## What a parameter takes -/

theorem collapseRefs_of_separated {ds : List Indirection} (h : Indirection.Separated ds) :
    collapseRefs ds = ds := by
  induction ds using collapseRefs.induct with
  | case1 | case2 => rw [collapseRefs]
  | case3 ds ih | case4 ds ih | case5 ds ih | case6 ds ih =>
    exact absurd ⟨rfl, rfl⟩ (List.isChain_cons_cons.1 h).1
  | case7 d e ds h₁ h₂ h₃ h₄ ih =>
    rw [collapseRefs, ih (List.isChain_cons_cons.1 h).2]
    all_goals assumption

/-- What is taken off the outside of a type, put around the rest, gives the type again. -/
theorem TypeExpr.around_residue {p c r : TypeExpr} (hc : Indirection.Separated c.declarators)
    (h : p.residue? c = some r) : p.around r = c := by
  obtain ⟨isConst, isVolatile, base, declarators⟩ := c
  simp only at hc
  rw [TypeExpr.residue?] at h
  simp only at h
  generalize hk : declarators.length - p.declarators.length = k at h
  split at h
  · cases h
  · rename_i hfits
    have hcut : declarators.take k ++ p.declarators = declarators := by
      have hdrop : declarators.drop k = p.declarators := by
        by_contra hne
        exact hfits (by simp [hne])
      rw [← hdrop, List.take_append_drop]
    split at h
    · split at h
      · cases h
      · rename_i hinner
        rw [Bool.not_eq_true, Bool.or_eq_false_iff, Bool.or_eq_false_iff] at hinner
        obtain ⟨⟨hnil, hconst⟩, hvolatile⟩ := hinner
        have hnil : declarators.take k = [] := not_not.1 (decide_eq_false_iff_not.1 hnil)
        rw [hnil, List.nil_append] at hcut
        rw [← Option.some.inj h, TypeExpr.around, hnil, TypeExpr.addQualifiers]
        simp only [List.getLast?_nil, List.nil_append]
        rw [hcut, collapseRefs_of_separated hc]
        congr 1
        · cases hp : p.isConst <;> simp_all
        · cases hp : p.isVolatile <;> simp_all
    · rename_i hplain
      obtain ⟨hconst, hvolatile⟩ : p.isConst = false ∧ p.isVolatile = false := by
        simpa using hplain
      rw [← Option.some.inj h, TypeExpr.around, hconst, hvolatile, TypeExpr.addQualifiers_false]
      simp only
      rw [hcut, collapseRefs_of_separated hc]

/-! ## Bindings along a match -/

/-- What was bound stays bound, and only parameters are bound in addition. -/
structure Bindings.Grows (params : List String) (b b' : Bindings) : Prop where
  keeps : ∀ name arg, b.find? name = some arg → b'.find? name = some arg
  isParam : ∀ name arg, b'.find? name = some arg → b.find? name = some arg ∨ name ∈ params

namespace Bindings.Grows

variable {params : List String} {b b' b'' : Bindings}

theorem refl (params : List String) (b : Bindings) : Grows params b b :=
  ⟨fun _ _ h => h, fun _ _ h => .inl h⟩

theorem trans (h : Grows params b b') (h' : Grows params b' b'') : Grows params b b'' := by
  constructor
  · intro name arg hname
    exact h'.keeps name arg (h.keeps name arg hname)
  · intro name arg hname
    rcases h'.isParam name arg hname with hname | hparam
    · exact h.isParam name arg hname
    · exact .inr hparam

theorem bind {param : String} (hparam : param ∈ params) (b : Bindings) (arg : TemplateArg) :
    Grows params b (b.bind param arg).2 := by
  unfold Bindings.bind
  split
  · exact refl params b
  · rename_i hnone
    refine ⟨fun name other hname => ?_, fun name other hname => ?_⟩
    · rw [OrderedMap.find?_insert, if_neg, hname]
      rintro rfl
      rw [hnone] at hname
      cases hname
    · rw [OrderedMap.find?_insert] at hname
      split at hname
      · rename_i heq
        exact .inr (heq ▸ hparam)
      · exact .inl hname

end Bindings.Grows

/-- What was bound is kept, and nothing but parameters is bound. -/
structure Bindings.Completes (params : List String) (b d : Bindings) : Prop where
  keeps : ∀ name arg, b.find? name = some arg → d.find? name = some arg
  isParam : ∀ name arg, d.find? name = some arg → name ∈ params

theorem Bindings.Grows.completes {params : List String} {b b' d : Bindings}
    (h : Bindings.Grows params b b') (hd : Bindings.Completes params b' d) :
    Bindings.Completes params b d :=
  ⟨fun name arg hname => hd.keeps name arg (h.keeps name arg hname), hd.isParam⟩

theorem Bindings.find?_of_bind {b b' : Bindings} {param : String} {arg : TemplateArg}
    (h : b.bind param arg = (true, b')) : b'.find? param = some arg := by
  unfold Bindings.bind at h
  split at h
  · rename_i existing hfound
    rw [Prod.mk.injEq, decide_eq_true_eq] at h
    rw [← h.2, hfound, h.1]
  · rw [Prod.mk.injEq] at h
    rw [← h.2, OrderedMap.find?_insert, if_pos rfl]

theorem TypeExpr.param?_eq_some {params : List String} {t : TypeExpr} {param : String}
    (h : t.param? params = some param) : t.simple? = some param ∧ param ∈ params := by
  rw [TypeExpr.param?, Option.filter_eq_some_iff] at h
  exact ⟨h.1, by simpa using h.2⟩

theorem TypeExpr.param?_eq_none {params : List String} {t : TypeExpr} {name : String}
    (h : t.param? params = none) (hname : t.simple? = some name) : name ∉ params := by
  rw [TypeExpr.param?, hname] at h
  simpa using h

theorem TypeExpr.matchParam_grows {params : List String} {param : String} (hparam : param ∈ params)
    (p c : TypeExpr) (b : Bindings) : Bindings.Grows params b (p.matchParam param c b).2 := by
  rw [TypeExpr.matchParam]
  split
  · exact .bind hparam b _
  · exact .refl params b

section Grows

variable (params : List String)

mutual
/-- A match only adds arguments for parameters. -/
theorem TypeExpr.unify_grows : ∀ (p c : TypeExpr) (b : Bindings),
    Bindings.Grows params b (p.unify params c b).2
  | ⟨isConst, isVolatile, base, declarators⟩, c, b => by
    rw [TypeExpr.unify]
    split
    · rename_i param hparam
      exact TypeExpr.matchParam_grows (TypeExpr.param?_eq_some hparam).2 _ c b
    · split
      · exact .refl params b
      · exact TypeBase.unify_grows base c.base b

theorem TypeBase.unify_grows : ∀ (p c : TypeBase) (b : Bindings),
    Bindings.Grows params b (p.unify params c b).2
  | .fundamental _, .fundamental _, b => by
    rw [TypeBase.unify]
    exact .refl params b
  | .named _ ps, .named _ cs, b => by
    rw [TypeBase.unify]
    split
    · exact NameSegment.unifyAll_grows ps cs b
    · exact .refl params b
  | .fundamental _, .named .., b | .named .., .fundamental _, b => by
    simp only [TypeBase.unify]
    exact .refl params b

theorem NameSegment.unify_grows : ∀ (p c : NameSegment) (b : Bindings),
    Bindings.Grows params b (p.unify params c b).2
  | .plain _, .plain _, b => by
    rw [NameSegment.unify]
    exact .refl params b
  | .applied _ ps, .applied _ cs, b => by
    rw [NameSegment.unify]
    split
    · exact TemplateArg.unifyAll_grows ps cs b
    · exact .refl params b
  | .plain _, .applied .., b | .applied .., .plain _, b => by
    simp only [NameSegment.unify]
    exact .refl params b

theorem TemplateArg.unify_grows : ∀ (p c : TemplateArg) (b : Bindings),
    Bindings.Grows params b (p.unify params c b).2
  | .type p, .type c, b => by
    rw [TemplateArg.unify]
    exact TypeExpr.unify_grows p c b
  | .type p, .value c, b => by
    rw [TemplateArg.unify]
    split
    · rename_i param hparam
      exact .bind (TypeExpr.param?_eq_some hparam).2 b _
    · exact .refl params b
  | .value _, .value _, b | .value _, .type _, b => by
    simp only [TemplateArg.unify]
    exact .refl params b

theorem NameSegment.unifyAll_grows : ∀ (ps cs : List NameSegment) (b : Bindings),
    Bindings.Grows params b (NameSegment.unifyAll params ps cs b).2
  | p :: ps, c :: cs, b => by
    have hhead := NameSegment.unify_grows p c b
    rw [NameSegment.unifyAll]
    split
    · rename_i b' hb'
      rw [hb'] at hhead
      exact hhead.trans (NameSegment.unifyAll_grows ps cs b')
    · rename_i b' hb'
      rwa [hb'] at hhead
  | [], _, b | _ :: _, [], b => by
    simp only [NameSegment.unifyAll]
    exact .refl params b

theorem TemplateArg.unifyAll_grows : ∀ (ps cs : List TemplateArg) (b : Bindings),
    Bindings.Grows params b (TemplateArg.unifyAll params ps cs b).2
  | p :: ps, c :: cs, b => by
    have hhead := TemplateArg.unify_grows p c b
    rw [TemplateArg.unifyAll]
    split
    · rename_i b' hb'
      rw [hb'] at hhead
      exact hhead.trans (TemplateArg.unifyAll_grows ps cs b')
    · rename_i b' hb'
      rwa [hb'] at hhead
  | [], _, b | _ :: _, [], b => by
    simp only [TemplateArg.unifyAll]
    exact .refl params b
end

end Grows

/-! ## Soundness -/

mutual
/-- Somewhere in the pattern a parameter with qualifiers or declarators stands among template
arguments where the type has a value. -/
def TypeExpr.DressesValue (params : List String) : TypeExpr → TypeExpr → Prop
  | ⟨isConst, isVolatile, base, declarators⟩, c =>
    TypeExpr.param? params ⟨isConst, isVolatile, base, declarators⟩ = none ∧
      base.DressesValue params c.base

/-- The path of the pattern dresses a value of the other path. -/
def TypeBase.DressesValue (params : List String) : TypeBase → TypeBase → Prop
  | .named _ ps, .named _ cs => NameSegment.AnyDressesValue params ps cs
  | _, _ => False

/-- An argument of the segment dresses a value. -/
def NameSegment.DressesValue (params : List String) : NameSegment → NameSegment → Prop
  | .applied _ ps, .applied _ cs => TemplateArg.AnyDressesValue params ps cs
  | _, _ => False

/-- The argument has something around a parameter that takes a value, or dresses one inside. -/
def TemplateArg.DressesValue (params : List String) : TemplateArg → TemplateArg → Prop
  | .type p, .type c => p.DressesValue params c
  | .type p, .value _ => p.param? params ≠ none ∧ p.isBare = false
  | _, _ => False

/-- Some segment dresses a value of the segment at its place. -/
def NameSegment.AnyDressesValue (params : List String) :
    List NameSegment → List NameSegment → Prop
  | p :: ps, c :: cs => p.DressesValue params c ∨ NameSegment.AnyDressesValue params ps cs
  | _, _ => False

/-- Some argument dresses a value of the argument at its place. -/
def TemplateArg.AnyDressesValue (params : List String) :
    List TemplateArg → List TemplateArg → Prop
  | p :: ps, c :: cs => p.DressesValue params c ∨ TemplateArg.AnyDressesValue params ps cs
  | _, _ => False
end

section Soundness

variable {params : List String} {b b' : Bindings}

theorem TypeExpr.find?_of_matchParam {p c : TypeExpr} {param : String}
    (h : p.matchParam param c b = (true, b')) :
    ∃ r, p.residue? c = some r ∧ b'.find? param = some (.type r) := by
  rw [TypeExpr.matchParam] at h
  split at h
  · rename_i r hr
    exact ⟨r, hr, Bindings.find?_of_bind h⟩
  · cases h

/-- Where a parameter takes a type, the pattern becomes this type. -/
theorem TypeExpr.substitute_of_matchParam {p c : TypeExpr} {param : String}
    (hc : Indirection.Separated c.declarators) (hp : p.simple? = some param)
    (h : p.matchParam param c b = (true, b')) {d : Bindings} (hd : Bindings.Completes params b' d) :
    p.substitute d = c := by
  obtain ⟨r, hr, hfound⟩ := TypeExpr.find?_of_matchParam h
  rw [TypeExpr.substitute_of_find? hp (hd.keeps param _ hfound), TypeExpr.around_residue hc hr]

theorem TypeExpr.residue?_of_isBare {p : TypeExpr} (h : p.isBare = true) (c : TypeExpr) :
    p.residue? c = some c := by
  obtain ⟨isConst, isVolatile, base, declarators⟩ := c
  obtain ⟨hdeclarators, hconst, hvolatile⟩ := TypeExpr.isBare_iff.1 h
  simp [TypeExpr.residue?, hdeclarators, hconst, hvolatile]

variable {d : Bindings}

/-- A bare parameter among template arguments becomes the type that it takes. -/
theorem TemplateArg.substitute_of_matchParam {p c : TypeExpr} {param : String}
    (hc : Indirection.Separated c.declarators) (hp : p.simple? = some param)
    (h : p.matchParam param c b = (true, b')) (hd : Bindings.Completes params b' d) :
    (TemplateArg.type p).substitute d = .type c := by
  obtain ⟨r, hr, hfound⟩ := TypeExpr.find?_of_matchParam h
  rw [TemplateArg.substitute, hp, Option.bind_some, hd.keeps param _ hfound]
  simp only
  split
  · rename_i hbare
    rw [TypeExpr.residue?_of_isBare hbare] at hr
    rw [Option.some.inj hr]
  · rw [TypeExpr.substitute_of_matchParam hc hp h hd]

theorem TypeExpr.find?_eq_none {t : TypeExpr} (h : t.param? params = none)
    (hd : Bindings.Completes params b d) : t.simple?.bind d.find? = none := by
  cases hname : t.simple? with
  | none => rfl
  | some name =>
    rw [Option.bind_some, Option.eq_none_iff_forall_not_mem]
    intro arg harg
    exact TypeExpr.param?_eq_none h hname (hd.isParam name arg harg)

theorem TypeExpr.unify_of_param? {p : TypeExpr} {param : String}
    (h : p.param? params = some param) (c : TypeExpr) (b : Bindings) :
    p.unify params c b = p.matchParam param c b := by
  obtain ⟨isConst, isVolatile, base, declarators⟩ := p
  rw [TypeExpr.unify]
  simp only [h]

/-- A pattern among template arguments that matches a type is replaced like any other pattern. -/
theorem TemplateArg.substitute_of_unify {p c : TypeExpr} (hc : c.Regular)
    (h : p.unify params c b = (true, b')) (hd : Bindings.Completes params b' d) :
    (TemplateArg.type p).substitute d = .type (p.substitute d) := by
  cases hparam : p.param? params with
  | none => rw [TemplateArg.substitute, TypeExpr.find?_eq_none hparam hd]
  | some param =>
    have hname := (TypeExpr.param?_eq_some hparam).1
    rw [TypeExpr.unify_of_param? hparam] at h
    rw [TemplateArg.substitute_of_matchParam hc.separated hname h hd,
      TypeExpr.substitute_of_matchParam hc.separated hname h hd]

mutual
/-- The pattern becomes the type with the bindings that a match ends with, unless it dresses a
value. -/
theorem TypeExpr.alike_iff_of_unify : ∀ {p c : TypeExpr} {b b' : Bindings}, p.Regular → c.Regular →
    p.unify params c b = (true, b') → Bindings.Completes params b' d →
    ((p.substitute d).Alike c ↔ ¬p.DressesValue params c)
  | ⟨isConst, isVolatile, base, declarators⟩, ⟨isConst', isVolatile', base', declarators'⟩,
    b, b', hp, hc, h, hd => by
    obtain ⟨hbase, -⟩ : base.Regular ∧ Indirection.Separated declarators := by
      simpa [TypeExpr.Regular] using hp
    obtain ⟨hbase', hdeclarators'⟩ : base'.Regular ∧ Indirection.Separated declarators' := by
      simpa [TypeExpr.Regular] using hc
    rw [TypeExpr.unify] at h
    split at h
    · rename_i param hparam
      rw [TypeExpr.substitute_of_matchParam hdeclarators' (TypeExpr.param?_eq_some hparam).1 h hd]
      simp [TypeExpr.alike_refl, TypeExpr.DressesValue, hparam]
    · rename_i hnone
      split at h
      · cases h
      · rename_i hsame
        obtain ⟨⟨rfl, rfl⟩, rfl⟩ : (isConst = isConst' ∧ isVolatile = isVolatile') ∧
            declarators = declarators' := by simpa using hsame
        have ih := TypeBase.alike_iff_of_unify hbase hbase' h hd
        rw [TypeExpr.substitute_of_none hbase.substitute_empty (TypeExpr.find?_eq_none hnone hd)]
        simpa [TypeExpr.Alike, TypeExpr.DressesValue, hnone] using ih

theorem TypeBase.alike_iff_of_unify : ∀ {p c : TypeBase} {b b' : Bindings}, p.Regular → c.Regular →
    p.unify params c b = (true, b') → Bindings.Completes params b' d →
    ((p.substitute d).Alike c ↔ ¬p.DressesValue params c)
  | .fundamental n, .fundamental m, b, b', hp, hc, h, hd => by
    obtain ⟨hname, -⟩ : n = m ∧ b = b' := by simpa [TypeBase.unify] using h
    simp [TypeBase.substitute, TypeBase.Alike, TypeBase.DressesValue, hname]
  | .named _ ps, .named _ cs, b, b', hp, hc, h, hd => by
    have hps : NameSegment.AllRegular ps := by simpa [TypeBase.Regular] using hp
    have hcs : NameSegment.AllRegular cs := by simpa [TypeBase.Regular] using hc
    rw [TypeBase.unify] at h
    split at h
    · rename_i hlength
      have ih := NameSegment.allAlike_iff_of_unifyAll hps hcs hlength h hd
      simpa [TypeBase.substitute, TypeBase.Alike, TypeBase.DressesValue] using ih
    · cases h
  | .fundamental _, .named .., b, b', hp, hc, h, hd => by
    simp [TypeBase.unify] at h
  | .named .., .fundamental _, b, b', hp, hc, h, hd => by
    simp [TypeBase.unify] at h

theorem NameSegment.alike_iff_of_unify : ∀ {p c : NameSegment} {b b' : Bindings},
    p.Regular → c.Regular → p.unify params c b = (true, b') → Bindings.Completes params b' d →
    ((p.substitute d).Alike c ↔ ¬p.DressesValue params c)
  | .plain n, .plain m, b, b', hp, hc, h, hd => by
    obtain ⟨hname, -⟩ : n = m ∧ b = b' := by simpa [NameSegment.unify] using h
    simp [NameSegment.substitute, NameSegment.Alike, NameSegment.DressesValue, hname]
  | .applied n ps, .applied m cs, b, b', hp, hc, h, hd => by
    have hps : TemplateArg.AllRegular ps := by simpa [NameSegment.Regular] using hp
    have hcs : TemplateArg.AllRegular cs := by simpa [NameSegment.Regular] using hc
    rw [NameSegment.unify] at h
    split at h
    · rename_i hsame
      obtain ⟨rfl, hlength⟩ : n = m ∧ ps.length = cs.length := by simpa using hsame
      have ih := TemplateArg.allAlike_iff_of_unifyAll hps hcs hlength h hd
      simpa [NameSegment.substitute, NameSegment.Alike, NameSegment.DressesValue] using ih
    · cases h
  | .plain _, .applied .., b, b', hp, hc, h, hd => by
    simp [NameSegment.unify] at h
  | .applied .., .plain _, b, b', hp, hc, h, hd => by
    simp [NameSegment.unify] at h

theorem TemplateArg.alike_iff_of_unify : ∀ {p c : TemplateArg} {b b' : Bindings},
    p.Regular → c.Regular → p.unify params c b = (true, b') → Bindings.Completes params b' d →
    ((p.substitute d).Alike c ↔ ¬p.DressesValue params c)
  | .type p, .type c, b, b', hp, hc, h, hd => by
    have hp' : p.Regular := by simpa [TemplateArg.Regular] using hp
    have hc' : c.Regular := by simpa [TemplateArg.Regular] using hc
    rw [TemplateArg.unify] at h
    have ih := TypeExpr.alike_iff_of_unify hp' hc' h hd
    rw [TemplateArg.substitute_of_unify hc' h hd]
    simpa [TemplateArg.Alike, TemplateArg.DressesValue] using ih
  | .type p, .value text, b, b', hp, hc, h, hd => by
    rw [TemplateArg.unify] at h
    split at h
    · rename_i param hparam
      have hfound := hd.keeps param _ (Bindings.find?_of_bind h)
      rw [TemplateArg.substitute, (TypeExpr.param?_eq_some hparam).1, Option.bind_some, hfound]
      simp only
      split
      · rename_i hbare
        simp [TemplateArg.alike_refl, TemplateArg.DressesValue, hbare]
      · rename_i hbare
        simp [TemplateArg.Alike, TemplateArg.DressesValue, hbare, hparam]
    · cases h
  | .value text, .value text', b, b', hp, hc, h, hd => by
    have htext : TemplateArg.IsInteger text := by simpa [TemplateArg.Regular] using hp
    obtain ⟨hsame, -⟩ : TemplateArg.sameValue text text' = true ∧ b = b' := by
      simpa [TemplateArg.unify] using h
    rw [TemplateArg.substitute, htext.substituteText]
    simp [TemplateArg.Alike, TemplateArg.DressesValue, TemplateArg.sameInteger_of_sameValue hsame]
  | .value _, .type _, b, b', hp, hc, h, hd => by
    simp [TemplateArg.unify] at h

theorem NameSegment.allAlike_iff_of_unifyAll : ∀ {ps cs : List NameSegment} {b b' : Bindings},
    NameSegment.AllRegular ps → NameSegment.AllRegular cs → ps.length = cs.length →
    NameSegment.unifyAll params ps cs b = (true, b') → Bindings.Completes params b' d →
    (NameSegment.AllAlike (NameSegment.substituteAll d ps) cs ↔
      ¬NameSegment.AnyDressesValue params ps cs)
  | [], [], b, b', _, _, _, h, hd => by
    simp [NameSegment.substituteAll, NameSegment.AllAlike, NameSegment.AnyDressesValue]
  | p :: ps, c :: cs, b, b', hp, hc, hlength, h, hd => by
    obtain ⟨hp, hps⟩ : p.Regular ∧ NameSegment.AllRegular ps := by
      simpa [NameSegment.AllRegular] using hp
    obtain ⟨hc, hcs⟩ : c.Regular ∧ NameSegment.AllRegular cs := by
      simpa [NameSegment.AllRegular] using hc
    rw [NameSegment.unifyAll] at h
    split at h
    · rename_i b₁ hb₁
      have hgrows := NameSegment.unifyAll_grows params ps cs b₁
      rw [h] at hgrows
      have hhead := NameSegment.alike_iff_of_unify hp hc hb₁ (hgrows.completes hd)
      have htail := NameSegment.allAlike_iff_of_unifyAll hps hcs (Nat.succ.inj hlength) h hd
      simp [NameSegment.substituteAll, NameSegment.AllAlike, NameSegment.AnyDressesValue, hhead,
        htail]
    · cases h

theorem TemplateArg.allAlike_iff_of_unifyAll : ∀ {ps cs : List TemplateArg} {b b' : Bindings},
    TemplateArg.AllRegular ps → TemplateArg.AllRegular cs → ps.length = cs.length →
    TemplateArg.unifyAll params ps cs b = (true, b') → Bindings.Completes params b' d →
    (TemplateArg.AllAlike (TemplateArg.substituteAll d ps) cs ↔
      ¬TemplateArg.AnyDressesValue params ps cs)
  | [], [], b, b', _, _, _, h, hd => by
    simp [TemplateArg.substituteAll, TemplateArg.AllAlike, TemplateArg.AnyDressesValue]
  | p :: ps, c :: cs, b, b', hp, hc, hlength, h, hd => by
    obtain ⟨hp, hps⟩ : p.Regular ∧ TemplateArg.AllRegular ps := by
      simpa [TemplateArg.AllRegular] using hp
    obtain ⟨hc, hcs⟩ : c.Regular ∧ TemplateArg.AllRegular cs := by
      simpa [TemplateArg.AllRegular] using hc
    rw [TemplateArg.unifyAll] at h
    split at h
    · rename_i b₁ hb₁
      have hgrows := TemplateArg.unifyAll_grows params ps cs b₁
      rw [h] at hgrows
      have hhead := TemplateArg.alike_iff_of_unify hp hc hb₁ (hgrows.completes hd)
      have htail := TemplateArg.allAlike_iff_of_unifyAll hps hcs (Nat.succ.inj hlength) h hd
      simp [TemplateArg.substituteAll, TemplateArg.AllAlike, TemplateArg.AnyDressesValue, hhead,
        htail]
    · cases h
end

end Soundness

/-- **Soundness of matching**: where a pattern matches a type, the bindings that were found make the
pattern the type, up to a leading `::` and to how integers are written, unless the pattern has
qualifiers or declarators around a parameter that takes a value. -/
theorem TypeExpr.alike_substitute_iff {params : List String} {p c : TypeExpr} {b : Bindings}
    (hp : p.Regular) (hc : c.Regular) (h : p.unify params c {} = (true, b)) :
    (p.substitute b).Alike c ↔ ¬p.DressesValue params c := by
  have hgrows := TypeExpr.unify_grows params p c {}
  rw [h] at hgrows
  refine TypeExpr.alike_iff_of_unify hp hc h ⟨fun _ _ hname => hname, fun name arg hname => ?_⟩
  rcases hgrows.isParam name arg hname with hnone | hparam
  · cases hnone
  · exact hparam

/-- A constant reference to a parameter, a parameter that takes a value, and a value that is written
in another way. -/
theorem TypeExpr.alike_substitute_iff_value :
    let p : TypeExpr := .ofBase (.named false [.applied "A" [.type ⟨true, false,
      .named false [.plain "T"], [.lvalueRef]⟩, .type (.named "N"), .value "0x10"]])
    let c : TypeExpr := .ofBase (.named true [.applied "A" [.type ⟨true, false,
      .fundamental "int", [.lvalueRef]⟩, .value "3", .value "16"]])
    p.Regular ∧ c.Regular ∧ ∃ b, p.unify ["T", "N"] c {} = (true, b) ∧
      b.entries = [("T", .type (.fundamental "int")), ("N", .value "3")] ∧
      (p.substitute b).Alike c := by
  intro p c
  have hsixteen : TemplateArg.IsInteger "0x10" :=
    ⟨_, Token.isSingle_of_next (by decide) rfl, .inl rfl⟩
  have hthree : TemplateArg.IsInteger "3" := ⟨_, Token.isSingle_of_next (by decide) rfl, .inl rfl⟩
  have hdecimal : TemplateArg.IsInteger "16" :=
    ⟨_, Token.isSingle_of_next (by decide) rfl, .inl rfl⟩
  have hp : p.Regular := by
    simp [p, TypeExpr.ofBase, TypeExpr.named, TypeExpr.Regular, TypeBase.Regular,
      NameSegment.AllRegular, NameSegment.Regular, TemplateArg.AllRegular, TemplateArg.Regular,
      Indirection.Separated, hsixteen]
  have hc : c.Regular := by
    simp [c, TypeExpr.ofBase, TypeExpr.Regular, TypeBase.Regular,
      NameSegment.AllRegular, NameSegment.Regular, TemplateArg.AllRegular, TemplateArg.Regular,
      Indirection.Separated, hthree, hdecimal]
  have hunify : p.unify ["T", "N"] c {} =
      (true, ⟨[("T", .type (.fundamental "int")), ("N", .value "3")]⟩) := by cbv
  refine ⟨hp, hc, _, hunify, rfl, (alike_substitute_iff hp hc hunify).2 ?_⟩
  simp [p, c, TypeExpr.ofBase, TypeExpr.named, TypeExpr.DressesValue, TypeBase.DressesValue,
    NameSegment.AnyDressesValue, NameSegment.DressesValue, TemplateArg.AnyDressesValue,
    TemplateArg.DressesValue, TypeExpr.param?, TypeExpr.simple?, TypeExpr.simpleBase?,
    TypeExpr.isBare]

/-- A parameter under a pointer takes a value, and the pattern does not become the type. -/
theorem TypeExpr.unify_under_pointer :
    let p : TypeExpr := .ofBase (.named false [.applied "A" [.type ⟨false, false,
      .named false [.plain "T"], [.pointer false]⟩]])
    let c : TypeExpr := .ofBase (.named false [.applied "A" [.value "3"]])
    p.Regular ∧ c.Regular ∧ ∃ b, p.unify ["T"] c {} = (true, b) ∧ ¬(p.substitute b).Alike c := by
  intro p c
  have hthree : TemplateArg.IsInteger "3" := ⟨_, Token.isSingle_of_next (by decide) rfl, .inl rfl⟩
  have hunify : p.unify ["T"] c {} = (true, ⟨[("T", .value "3")]⟩) := by cbv
  refine ⟨?_, ?_, _, hunify, ?_⟩
  · simp [p, TypeExpr.ofBase, TypeExpr.Regular, TypeBase.Regular, NameSegment.AllRegular,
      NameSegment.Regular, TemplateArg.AllRegular, TemplateArg.Regular, Indirection.Separated]
  · simp [c, TypeExpr.ofBase, TypeExpr.Regular, TypeBase.Regular, NameSegment.AllRegular,
      NameSegment.Regular, TemplateArg.AllRegular, TemplateArg.Regular, Indirection.Separated,
      hthree]
  · have hbecomes : p.substitute ⟨[("T", .value "3")]⟩ = .ofBase (.named false [.applied "A"
        [.type ⟨false, false, .named false [.plain "3"], [.pointer false]⟩]]) := by cbv
    rw [hbecomes]
    simp [c, TypeExpr.ofBase, TypeExpr.Alike, TypeBase.Alike, NameSegment.AllAlike,
      NameSegment.Alike, TemplateArg.AllAlike, TemplateArg.Alike]

end Bindery
