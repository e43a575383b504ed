import Bindery.Proofs.TypeExpr.Completeness
import Bindery.Proofs.TypeExpr.Composition

/-!
# What a match determines

A match binds every parameter that is a name in the pattern, and replacing parameters depends on no
other names. So bindings that agree with those of the match on the names of the pattern make the
pattern the type again. If a pattern matches only without references on the outside and without the
qualifiers of the object, then what it becomes is the type up to these.

## Main statements

* `TypeExpr.bindsAll_of_unify`: a match binds the parameters in the pattern.
* `TypeExpr.substitute_congr`: replacing parameters depends on the names in a type.
* `TypeExpr.alike_denoted_of_unify`: what becomes of a pattern that matches without references and
  qualifiers.
-/
namespace Bindery

/-! ## Names that a match binds -/

section Bound

variable {params : List String} {b b' : Bindings}

/-- All names that are parameters have an argument. -/
def Bindings.BindsAll (params : List String) (b : Bindings) (uses : List NameUse) : Prop :=
  ∀ u ∈ uses, u.name ∈ params → (b.find? u.name).isSome = true

theorem Bindings.BindsAll.mono {uses : List NameUse} (h : b.BindsAll params uses)
    (hgrows : Bindings.Grows params b b') : b'.BindsAll params uses := by
  intro u hu hparam
  obtain ⟨arg, harg⟩ := Option.isSome_iff_exists.1 (h u hu hparam)
  rw [hgrows.keeps _ _ harg]
  rfl

mutual
/-- A match binds the parameters in the pattern. -/
theorem TypeExpr.bindsAll_of_unify : ∀ {p c : TypeExpr} {b b' : Bindings} (isArgument : Bool),
    p.unify params c b = (true, b') → b'.BindsAll params (p.uses isArgument)
  | ⟨isConst, isVolatile, base, declarators⟩, c, b, b', isArgument, h => by
    rw [TypeExpr.unify] at h
    split at h
    · rename_i param hparam
      rw [TypeExpr.uses_of_simple? (TypeExpr.param?_eq_some hparam).1]
      obtain ⟨r, -, hfound⟩ := TypeExpr.find?_of_matchParam h
      rintro u hu -
      obtain rfl := List.mem_singleton.1 hu
      rw [hfound]
      rfl
    · rename_i hnone
      split at h
      · cases h
      · cases hsimple : TypeExpr.simple? ⟨isConst, isVolatile, base, declarators⟩ with
        | some name =>
          rw [TypeExpr.uses_of_simple? hsimple]
          rintro u hu hparam
          obtain rfl := List.mem_singleton.1 hu
          exact absurd hparam (TypeExpr.param?_eq_none hnone hsimple)
        | none =>
          rw [TypeExpr.uses_of_simple?_eq_none hsimple]
          exact TypeBase.bindsAll_of_unify h

theorem TypeBase.bindsAll_of_unify : ∀ {p c : TypeBase} {b b' : Bindings},
    p.unify params c b = (true, b') → b'.BindsAll params p.uses
  | .fundamental _, _, _, _, _ => by simp [TypeBase.uses, Bindings.BindsAll]
  | .named _ ps, .named _ cs, b, b', h => by
    rw [TypeBase.unify] at h
    split at h
    · rename_i hlength
      rw [TypeBase.uses]
      exact NameSegment.bindsAll_of_unifyAll hlength h
    · cases h
  | .named .., .fundamental _, b, b', h => by simp [TypeBase.unify] at h

theorem NameSegment.bindsAll_of_unify : ∀ {p c : NameSegment} {b b' : Bindings},
    p.unify params c b = (true, b') → b'.BindsAll params p.uses
  | .plain _, _, _, _, _ => by simp [NameSegment.uses, Bindings.BindsAll]
  | .applied _ ps, .applied _ cs, b, b', h => by
    rw [NameSegment.unify] at h
    split at h
    · rename_i hsame
      rw [NameSegment.uses]
      exact TemplateArg.bindsAll_of_unifyAll (by simpa using (Bool.and_eq_true_iff.1 hsame).2) h
    · cases h
  | .applied .., .plain _, b, b', h => by simp [NameSegment.unify] at h

theorem TemplateArg.bindsAll_of_unify : ∀ {p c : TemplateArg} {b b' : Bindings},
    p.unify params c b = (true, b') → b'.BindsAll params p.uses
  | .type p, .type c, b, b', h => by
    rw [TemplateArg.unify] at h
    rw [TemplateArg.uses]
    exact TypeExpr.bindsAll_of_unify true h
  | .type p, .value text, b, b', h => by
    rw [TemplateArg.unify] at h
    split at h
    · rename_i param hparam
      rw [TemplateArg.uses, TypeExpr.uses_of_simple? (TypeExpr.param?_eq_some hparam).1]
      rintro u hu -
      obtain rfl := List.mem_singleton.1 hu
      rw [Bindings.find?_of_bind h]
      rfl
    · cases h
  | .value _, _, _, _, _ => by simp [TemplateArg.uses, Bindings.BindsAll]

theorem NameSegment.bindsAll_of_unifyAll : ∀ {ps cs : List NameSegment} {b b' : Bindings},
    ps.length = cs.length → NameSegment.unifyAll params ps cs b = (true, b') →
    b'.BindsAll params (NameSegment.allUses ps)
  | [], _, _, _, _, _ => by simp [NameSegment.allUses, Bindings.BindsAll]
  | p :: ps, c :: cs, b, b', hlength, h => by
    rw [NameSegment.unifyAll] at h
    split at h
    · rename_i b₁ hb₁
      have hgrows := NameSegment.unifyAll_grows params ps cs b₁
      rw [h] at hgrows
      rw [NameSegment.allUses]
      exact List.forall_mem_append.2 ⟨(NameSegment.bindsAll_of_unify hb₁).mono hgrows,
        NameSegment.bindsAll_of_unifyAll (Nat.succ.inj hlength) h⟩
    · cases h

theorem TemplateArg.bindsAll_of_unifyAll : ∀ {ps cs : List TemplateArg} {b b' : Bindings},
    ps.length = cs.length → TemplateArg.unifyAll params ps cs b = (true, b') →
    b'.BindsAll params (TemplateArg.allUses ps)
  | [], _, _, _, _, _ => by simp [TemplateArg.allUses, Bindings.BindsAll]
  | p :: ps, c :: cs, b, b', hlength, h => by
    rw [TemplateArg.unifyAll] at h
    split at h
    · rename_i b₁ hb₁
      have hgrows := TemplateArg.unifyAll_grows params ps cs b₁
      rw [h] at hgrows
      rw [TemplateArg.allUses]
      exact List.forall_mem_append.2 ⟨(TemplateArg.bindsAll_of_unify hb₁).mono hgrows,
        TemplateArg.bindsAll_of_unifyAll (Nat.succ.inj hlength) h⟩
    · cases h
end

end Bound

/-! ## Names that a replacement depends on -/

section Congruence

variable {b d : Bindings}

/-- The bindings have the same arguments for all of the names. -/
def Bindings.AgreeOn (b d : Bindings) (uses : List NameUse) : Prop :=
  ∀ u ∈ uses, b.find? u.name = d.find? u.name

theorem TypeExpr.substitute_of_value {t : TypeExpr} {name text : String}
    (hname : t.simple? = some name) (hvalue : b.find? name = some (.value text)) :
    t.substitute b = { t with base := .named false [.plain text] } := by
  obtain ⟨isConst, isVolatile, base, declarators⟩ := t
  have hname : TypeExpr.simpleBase? base = some name := hname
  have hsome : b.isEmpty = false := by
    rw [Bool.eq_false_iff]
    intro hempty
    rw [Bindings.eq_empty_of_isEmpty hempty] at hvalue
    cases hvalue
  rw [TypeExpr.substitute]
  simp only [hsome, Bool.false_eq_true, if_false, hname, Option.bind_some, hvalue]

mutual
/-- Replacing parameters depends on the names in a type. -/
theorem TypeExpr.substitute_congr : ∀ {t : TypeExpr} (isArgument : Bool), t.Regular →
    b.AgreeOn d (t.uses isArgument) → t.substitute b = t.substitute d
  | ⟨isConst, isVolatile, base, declarators⟩, isArgument, ht, h => by
    have hbase : base.Regular := ht.base
    cases hsimple : TypeExpr.simple? ⟨isConst, isVolatile, base, declarators⟩ with
    | none =>
      rw [TypeExpr.uses_of_simple?_eq_none hsimple] at h
      rw [TypeExpr.substitute_of_none hbase.substitute_empty (by rw [hsimple]; rfl),
        TypeExpr.substitute_of_none hbase.substitute_empty (by rw [hsimple]; rfl),
        TypeBase.substitute_congr hbase h]
    | some name =>
      rw [TypeExpr.uses_of_simple? hsimple] at h
      have hsame : b.find? name = d.find? name := h _ (.head _)
      cases hfound : d.find? name with
      | none =>
        rw [TypeExpr.substitute_of_unbound hsimple (hsame.trans hfound),
          TypeExpr.substitute_of_unbound hsimple hfound]
      | some arg =>
        cases arg with
        | type r =>
          rw [TypeExpr.substitute_of_find? hsimple (hsame.trans hfound),
            TypeExpr.substitute_of_find? hsimple hfound]
        | value text =>
          rw [TypeExpr.substitute_of_value hsimple (hsame.trans hfound),
            TypeExpr.substitute_of_value hsimple hfound]

theorem TypeBase.substitute_congr : ∀ {base : TypeBase}, base.Regular → b.AgreeOn d base.uses →
    base.substitute b = base.substitute d
  | .fundamental _, _, _ => by simp only [TypeBase.substitute]
  | .named _ segments, ht, h => by
    rw [TypeBase.Regular] at ht
    rw [TypeBase.uses] at h
    rw [TypeBase.substitute, TypeBase.substitute, NameSegment.substituteAll_congr ht h]

theorem NameSegment.substitute_congr : ∀ {s : NameSegment}, s.Regular → b.AgreeOn d s.uses →
    s.substitute b = s.substitute d
  | .plain _, _, _ => by simp only [NameSegment.substitute]
  | .applied _ args, ht, h => by
    rw [NameSegment.Regular] at ht
    rw [NameSegment.uses] at h
    rw [NameSegment.substitute, NameSegment.substitute, TemplateArg.substituteAll_congr ht h]

theorem TemplateArg.substitute_congr : ∀ {a : TemplateArg}, a.Regular → b.AgreeOn d a.uses →
    a.substitute b = a.substitute d
  | .type t, ht, h => by
    rw [TemplateArg.Regular] at ht
    rw [TemplateArg.uses] at h
    have hfound : t.simple?.bind b.find? = t.simple?.bind d.find? := by
      cases hsimple : t.simple? with
      | none => rfl
      | some name =>
        rw [TypeExpr.uses_of_simple? hsimple] at h
        exact h _ (.head _)
    rw [TemplateArg.substitute, TemplateArg.substitute, hfound, TypeExpr.substitute_congr true ht h]
  | .value text, ht, _ => by
    rw [TemplateArg.Regular] at ht
    rw [TemplateArg.substitute, TemplateArg.substitute, ht.substituteText, ht.substituteText]

theorem NameSegment.substituteAll_congr : ∀ {ss : List NameSegment}, NameSegment.AllRegular ss →
    b.AgreeOn d (NameSegment.allUses ss) →
    NameSegment.substituteAll b ss = NameSegment.substituteAll d ss
  | [], _, _ => by simp only [NameSegment.substituteAll]
  | s :: ss, ht, h => by
    rw [NameSegment.AllRegular] at ht
    rw [NameSegment.allUses] at h
    obtain ⟨hs, hss⟩ := List.forall_mem_append.1 h
    rw [NameSegment.substituteAll, NameSegment.substituteAll, NameSegment.substitute_congr ht.1 hs,
      NameSegment.substituteAll_congr ht.2 hss]

theorem TemplateArg.substituteAll_congr : ∀ {as : List TemplateArg}, TemplateArg.AllRegular as →
    b.AgreeOn d (TemplateArg.allUses as) →
    TemplateArg.substituteAll b as = TemplateArg.substituteAll d as
  | [], _, _ => by simp only [TemplateArg.substituteAll]
  | a :: as, ht, h => by
    rw [TemplateArg.AllRegular] at ht
    rw [TemplateArg.allUses] at h
    obtain ⟨ha, has⟩ := List.forall_mem_append.1 h
    rw [TemplateArg.substituteAll, TemplateArg.substituteAll, TemplateArg.substitute_congr ht.1 ha,
      TemplateArg.substituteAll_congr ht.2 has]
end

end Congruence

/-! ## Without references and qualifiers -/

/-- References behind a pointer do not collapse with those in front of it. -/
theorem collapseRefs_append_pointer (front : List Indirection) (k : Bool)
    (refs : List Indirection) : collapseRefs (front ++ .pointer k :: refs) =
      collapseRefs front ++ .pointer k :: collapseRefs refs := by
  induction front with
  | nil => rw [List.nil_append, collapseRefs_cons, pushDeclarator_of_isRef_eq_false rfl,
      collapseRefs, List.nil_append]
  | cons d front ih =>
    rw [List.cons_append, collapseRefs_cons, ih, collapseRefs_cons]
    generalize collapseRefs front = ds
    cases ds with
    | nil => simp [pushDeclarator, Indirection.isRef]
    | cons e ds => exact pushDeclarator_append (List.cons_ne_nil e ds) _

theorem isRef_of_mem_collapseRefs {refs : List Indirection} (h : ∀ d ∈ refs, d.isRef = true) :
    ∀ d ∈ collapseRefs refs, d.isRef = true := by
  have hnone : refs.filter (!·.isRef) = [] := List.filter_eq_nil_iff.2 fun d hd => by simp [h d hd]
  rw [← filter_collapseRefs, List.filter_eq_nil_iff] at hnone
  exact fun d hd => by simpa using hnone d hd

namespace TypeExpr

/-- The declarators of a type are references, or there is an outermost pointer. -/
theorem refs_or_pointer (t : TypeExpr) : (∀ d ∈ t.declarators, d.isRef = true) ∨
    ∃ front k refs, t.declarators = front ++ .pointer k :: refs ∧ ∀ d ∈ refs, d.isRef = true := by
  induction t.declarators using List.reverseRecOn with
  | nil => simp
  | append_singleton ds d ih =>
    cases hd : d.isRef with
    | true =>
      have hlast : ∀ e ∈ [d], e.isRef = true := by simp [hd]
      rcases ih with h | ⟨front, k, refs, rfl, hrefs⟩
      · exact .inl (List.forall_mem_append.2 ⟨h, hlast⟩)
      · exact .inr ⟨front, k, refs ++ [d], by simp, List.forall_mem_append.2 ⟨hrefs, hlast⟩⟩
    | false =>
      cases d with
      | pointer k => exact .inr ⟨ds, k, [], rfl, by simp⟩
      | lvalueRef | rvalueRef => cases hd

theorem denoted_of_refs {t : TypeExpr} (h : ∀ d ∈ t.declarators, d.isRef = true) :
    t.denoted = ⟨false, false, t.base, []⟩ := by
  have hnone : t.objectDeclarators = [] := by
    rw [objectDeclarators, List.reverse_eq_nil_iff, List.dropWhile_eq_nil_iff]
    exact fun d hd => h d (List.mem_reverse.1 hd)
  rw [denoted, hnone]
  rfl

theorem denoted_of_pointer {t : TypeExpr} {front refs : List Indirection} {k : Bool}
    (h : t.declarators = front ++ .pointer k :: refs) (hrefs : ∀ d ∈ refs, d.isRef = true) :
    t.denoted = { t with declarators := front ++ [.pointer false] } := by
  have hobject : t.objectDeclarators = front ++ [.pointer k] := by
    rw [objectDeclarators, h, List.reverse_append, List.reverse_cons, List.append_assoc,
      List.dropWhile_append_of_pos fun d hd => hrefs d (List.mem_reverse.1 hd)]
    simp [Indirection.isRef]
  rw [denoted, hobject]
  simp

theorem base_denoted (t : TypeExpr) : t.denoted.base = t.base := by
  rcases t.refs_or_pointer with h | ⟨front, k, refs, h, hrefs⟩
  · rw [denoted_of_refs h]
  · rw [denoted_of_pointer h hrefs]

theorem simple?_denoted (t : TypeExpr) : t.denoted.simple? = t.simple? := by
  rw [simple?, base_denoted, simple?]

/-- Without references and qualifiers, a type has the same names. -/
theorem uses_denoted (t : TypeExpr) : t.denoted.uses false = t.uses false := by
  cases h : t.simple? with
  | some name => rw [uses_of_simple? (t.simple?_denoted.trans h), uses_of_simple? h]; rfl
  | none =>
    rw [uses_of_simple?_eq_none (t.simple?_denoted.trans h), uses_of_simple?_eq_none h,
      base_denoted]

theorem denoted_base (t : TypeExpr) (base : TypeBase) :
    ({ t with base } : TypeExpr).denoted = { t.denoted with base } := by
  rcases t.refs_or_pointer with h | ⟨front, k, refs, h, hrefs⟩
  · rw [denoted_of_refs h]
    exact denoted_of_refs h
  · rw [denoted_of_pointer h hrefs]
    exact denoted_of_pointer h hrefs

theorem dressesValue_iff {params : List String} {p c : TypeExpr} : p.DressesValue params c ↔
    p.param? params = none ∧ p.base.DressesValue params c.base := by
  obtain ⟨isConst, isVolatile, base, declarators⟩ := p
  rw [DressesValue]

theorem separated_denoted {t : TypeExpr} (h : Indirection.Separated t.declarators) :
    Indirection.Separated t.denoted.declarators := by
  rcases t.refs_or_pointer with hall | ⟨front, k, refs, hds, hrefs⟩
  · rw [denoted_of_refs hall]
    exact List.isChain_nil
  · rw [hds] at h
    rw [denoted_of_pointer hds hrefs]
    have hfront := (List.isChain_append.1 h).1
    refine List.isChain_append.2 ⟨hfront, List.isChain_singleton _, ?_⟩
    rintro d - e he
    obtain rfl : Indirection.pointer false = e := by simpa using he
    simp [Indirection.isRef]

theorem Regular.denoted {t : TypeExpr} (h : t.Regular) : t.denoted.Regular := by
  have hbase : t.denoted.base.Regular := by
    rw [base_denoted]
    exact h.base
  have hseparated := separated_denoted h.separated
  generalize t.denoted = s at hbase hseparated
  obtain ⟨isConst, isVolatile, base, declarators⟩ := s
  rw [Regular]
  exact ⟨hbase, hseparated⟩

/-- What is taken off without references and qualifiers, put around the rest, gives the type again
up to these. -/
theorem denoted_around_residue {p c r : TypeExpr} (hc : Indirection.Separated c.declarators)
    (h : p.denoted.residue? c.denoted = some r) : (p.around r).denoted = c.denoted := by
  rcases p.refs_or_pointer with hp | ⟨front, k, refs, hp, hrefs⟩
  · -- Nothing is taken off, and what is put around is looked through again.
    rw [denoted_of_refs hp, residue?_of_isBare rfl] at h
    obtain rfl := Option.some.inj h
    have hrefs := isRef_of_mem_collapseRefs hp
    rcases c.refs_or_pointer with hall | ⟨front, k, refs, hds, hall⟩
    · have hdeclarators : (p.around c.denoted).declarators = collapseRefs p.declarators := by
        rw [denoted_of_refs hall, around, addQualifiers_nil rfl]
        rfl
      rw [denoted_of_refs (by rwa [hdeclarators]), base_around, base_denoted, denoted_of_refs hall]
    · rw [hds] at hc
      have hfront := collapseRefs_of_separated (List.isChain_append.1 hc).1
      rw [denoted_of_pointer hds hall, around, addQualifiers_pointer rfl]
      simp only [List.append_assoc, List.singleton_append]
      rw [collapseRefs_append_pointer, hfront]
      exact denoted_of_pointer rfl hrefs
  · have haround := around_residue (separated_denoted hc) h
    rw [denoted_of_pointer hp hrefs] at haround
    rw [← haround]
    have hpointer : (p.around r).declarators =
        collapseRefs ((r.addQualifiers p.isConst p.isVolatile).declarators ++ front) ++
          .pointer k :: collapseRefs refs := by
      rw [around, hp, ← List.append_assoc, collapseRefs_append_pointer]
    rw [denoted_of_pointer hpointer (isRef_of_mem_collapseRefs hrefs), around, around,
      ← List.append_assoc, collapseRefs_concat_pointer]

variable {params : List String} {p c : TypeExpr} {b b' d : Bindings}

/-- If a pattern matches without references and qualifiers, then it becomes the type up to these. -/
theorem alike_denoted_of_unify (hp : p.Regular) (hc : c.Regular)
    (h : p.denoted.unify params c.denoted b = (true, b')) (hd : Bindings.Completes params b' d)
    (hvalue : ¬ p.DressesValue params c) : (p.substitute d).denoted.Alike c.denoted := by
  cases hparam : p.denoted.param? params with
  | some param =>
    rw [unify_of_param? hparam] at h
    obtain ⟨r, hr, hfound⟩ := find?_of_matchParam h
    have hname := (param?_eq_some hparam).1
    rw [simple?_denoted] at hname
    rw [substitute_of_find? hname (hd.keeps param _ hfound), denoted_around_residue hc.separated hr]
    exact alike_refl _
  | none =>
    have hsimple := find?_eq_none hparam hd
    have hbase : p.denoted.base.substitute {} = p.denoted.base := hp.denoted.base.substitute_empty
    have hsame : (p.substitute d).denoted = p.denoted.substitute d := by
      rw [substitute_of_none hbase hsimple, base_denoted]
      rw [base_denoted] at hbase
      rw [simple?_denoted] at hsimple
      rw [substitute_of_none hbase hsimple, denoted_base]
    rw [dressesValue_iff, ← base_denoted p, ← base_denoted c] at hvalue
    rw [hsame, alike_iff_of_unify hp.denoted hc.denoted h hd, dressesValue_iff]
    rw [param?, ← simple?_denoted, ← param?] at hvalue
    exact hvalue

end TypeExpr
end Bindery
