import Bindery.TypeExpr.Unification

/-!
# Arguments that denote the same

Matching without parameters compares: it binds nothing, every type matches itself, two types match
in either order or in none, and a type that matches another one matches what that one matches. So
denoting the same is an equivalence of arguments, and it makes no difference which of two arguments
is taken as the pattern.

## Main statements

* `TemplateArg.denoteSame_self`, `TemplateArg.denoteSame_comm`, `TemplateArg.denoteSame_trans`.
-/
namespace Bindery

theorem TypeExpr.param?_nil (t : TypeExpr) : t.param? [] = none := by
  simp [TypeExpr.param?]

theorem TemplateArg.sameValue_self (p : String) : TemplateArg.sameValue p p = true := by
  simp [TemplateArg.sameValue]

theorem TemplateArg.sameValue_comm (p c : String) :
    TemplateArg.sameValue p c = TemplateArg.sameValue c p := by
  rw [Bool.eq_iff_iff]
  simp only [TemplateArg.sameValue, Bool.or_eq_true, decide_eq_true_eq, Bool.and_eq_true]
  constructor
  · rintro (rfl | ⟨hsome, heq⟩)
    · exact .inl rfl
    · exact .inr ⟨heq ▸ hsome, heq.symm⟩
  · rintro (rfl | ⟨hsome, heq⟩)
    · exact .inl rfl
    · exact .inr ⟨heq ▸ hsome, heq.symm⟩

mutual
/-- A type matches itself. -/
theorem TypeExpr.unify_self : ∀ (t : TypeExpr) (b : Bindings), t.unify [] t b = (true, b)
  | ⟨isConst, isVolatile, base, declarators⟩, b => by
      simp [TypeExpr.unify, TypeExpr.param?_nil, TypeBase.unify_self base b]

/-- A base matches itself. -/
theorem TypeBase.unify_self : ∀ (base : TypeBase) (b : Bindings),
    base.unify [] base b = (true, b)
  | .fundamental name, b => by simp [TypeBase.unify]
  | .named isGlobal segments, b => by
      simp [TypeBase.unify, NameSegment.unifyAll_self segments b]

/-- A segment matches itself. -/
theorem NameSegment.unify_self : ∀ (s : NameSegment) (b : Bindings), s.unify [] s b = (true, b)
  | .plain name, b => by simp [NameSegment.unify]
  | .applied name args, b => by simp [NameSegment.unify, TemplateArg.unifyAll_self args b]

/-- An argument matches itself. -/
theorem TemplateArg.unify_self : ∀ (a : TemplateArg) (b : Bindings), a.unify [] a b = (true, b)
  | .type t, b => by simp [TemplateArg.unify, TypeExpr.unify_self t b]
  | .value text, b => by simp [TemplateArg.unify, TemplateArg.sameValue_self]

/-- A path matches itself. -/
theorem NameSegment.unifyAll_self : ∀ (ss : List NameSegment) (b : Bindings),
    NameSegment.unifyAll [] ss ss b = (true, b)
  | [], b => by simp [NameSegment.unifyAll]
  | s :: ss, b => by
      simp [NameSegment.unifyAll, NameSegment.unify_self s b, NameSegment.unifyAll_self ss b]

/-- A list of arguments matches itself. -/
theorem TemplateArg.unifyAll_self : ∀ (as : List TemplateArg) (b : Bindings),
    TemplateArg.unifyAll [] as as b = (true, b)
  | [], b => by simp [TemplateArg.unifyAll]
  | a :: as, b => by
      simp [TemplateArg.unifyAll, TemplateArg.unify_self a b, TemplateArg.unifyAll_self as b]
end

mutual
/-- Two types match in either order or in none, and nothing is bound. -/
theorem TypeExpr.unify_comm : ∀ (s t : TypeExpr) (b : Bindings),
    ∃ r, s.unify [] t b = (r, b) ∧ t.unify [] s b = (r, b)
  | ⟨isConst, isVolatile, base, declarators⟩, ⟨isConst', isVolatile', base', declarators'⟩, b => by
      simp only [TypeExpr.unify, TypeExpr.param?_nil]
      by_cases h : isConst = isConst' ∧ isVolatile = isVolatile' ∧ declarators = declarators'
      · obtain ⟨rfl, rfl, rfl⟩ := h
        simpa using TypeBase.unify_comm base base' b
      · refine ⟨false, ?_, ?_⟩
        · rw [if_pos]
          grind
        · rw [if_pos]
          grind

/-- Two bases match in either order or in none. -/
theorem TypeBase.unify_comm : ∀ (p c : TypeBase) (b : Bindings),
    ∃ r, p.unify [] c b = (r, b) ∧ c.unify [] p b = (r, b)
  | .fundamental n, .fundamental m, b =>
      ⟨n = m, by simp [TypeBase.unify], by simp [TypeBase.unify, eq_comm]⟩
  | .named _ ps, .named _ cs, b => by
      simp only [TypeBase.unify]
      by_cases h : ps.length = cs.length
      · simpa [h] using NameSegment.unifyAll_comm ps cs b
      · exact ⟨false, by simp [h], by simp [Ne.symm h]⟩
  | .fundamental _, .named .., b => ⟨false, by simp [TypeBase.unify], by simp [TypeBase.unify]⟩
  | .named .., .fundamental _, b => ⟨false, by simp [TypeBase.unify], by simp [TypeBase.unify]⟩

/-- Two segments match in either order or in none. -/
theorem NameSegment.unify_comm : ∀ (p c : NameSegment) (b : Bindings),
    ∃ r, p.unify [] c b = (r, b) ∧ c.unify [] p b = (r, b)
  | .plain n, .plain m, b =>
      ⟨n = m, by simp [NameSegment.unify], by simp [NameSegment.unify, eq_comm]⟩
  | .applied n ps, .applied m cs, b => by
      simp only [NameSegment.unify]
      by_cases h : n = m ∧ ps.length = cs.length
      · simpa [h] using TemplateArg.unifyAll_comm ps cs b
      · refine ⟨false, ?_, ?_⟩
        · rw [if_neg]
          grind
        · rw [if_neg]
          grind
  | .plain _, .applied .., b => ⟨false, by simp [NameSegment.unify], by simp [NameSegment.unify]⟩
  | .applied .., .plain _, b => ⟨false, by simp [NameSegment.unify], by simp [NameSegment.unify]⟩

/-- Two arguments match in either order or in none. -/
theorem TemplateArg.unify_comm : ∀ (p c : TemplateArg) (b : Bindings),
    ∃ r, p.unify [] c b = (r, b) ∧ c.unify [] p b = (r, b)
  | .type p, .type c, b => by
      simpa [TemplateArg.unify] using TypeExpr.unify_comm p c b
  | .value p, .value c, b =>
      ⟨TemplateArg.sameValue p c, by simp [TemplateArg.unify],
        by simp [TemplateArg.unify, TemplateArg.sameValue_comm p c]⟩
  | .type p, .value c, b =>
      ⟨false, by simp [TemplateArg.unify, TypeExpr.param?_nil], by simp [TemplateArg.unify]⟩
  | .value p, .type c, b =>
      ⟨false, by simp [TemplateArg.unify], by simp [TemplateArg.unify, TypeExpr.param?_nil]⟩

/-- Two paths match in either order or in none. -/
theorem NameSegment.unifyAll_comm : ∀ (ps cs : List NameSegment) (b : Bindings),
    ∃ r, NameSegment.unifyAll [] ps cs b = (r, b) ∧ NameSegment.unifyAll [] cs ps b = (r, b)
  | [], cs, b => ⟨true, by simp [NameSegment.unifyAll], by cases cs <;> simp [NameSegment.unifyAll]⟩
  | p :: ps, [], b => ⟨true, by simp [NameSegment.unifyAll], by simp [NameSegment.unifyAll]⟩
  | p :: ps, c :: cs, b => by
      obtain ⟨r, hpc, hcp⟩ := NameSegment.unify_comm p c b
      obtain ⟨q, hps, hcs⟩ := NameSegment.unifyAll_comm ps cs b
      simp only [NameSegment.unifyAll, hpc, hcp]
      cases r with
      | true => exact ⟨q, hps, hcs⟩
      | false => exact ⟨false, rfl, rfl⟩

/-- Two lists of arguments match in either order or in none. -/
theorem TemplateArg.unifyAll_comm : ∀ (ps cs : List TemplateArg) (b : Bindings),
    ∃ r, TemplateArg.unifyAll [] ps cs b = (r, b) ∧ TemplateArg.unifyAll [] cs ps b = (r, b)
  | [], cs, b => ⟨true, by simp [TemplateArg.unifyAll], by cases cs <;> simp [TemplateArg.unifyAll]⟩
  | p :: ps, [], b => ⟨true, by simp [TemplateArg.unifyAll], by simp [TemplateArg.unifyAll]⟩
  | p :: ps, c :: cs, b => by
      obtain ⟨r, hpc, hcp⟩ := TemplateArg.unify_comm p c b
      obtain ⟨q, hps, hcs⟩ := TemplateArg.unifyAll_comm ps cs b
      simp only [TemplateArg.unifyAll, hpc, hcp]
      cases r with
      | true => exact ⟨q, hps, hcs⟩
      | false => exact ⟨false, rfl, rfl⟩
end

theorem TemplateArg.sameValue_trans {p q r : String} (hpq : TemplateArg.sameValue p q = true)
    (hqr : TemplateArg.sameValue q r = true) : TemplateArg.sameValue p r = true := by
  simp only [TemplateArg.sameValue, Bool.or_eq_true, decide_eq_true_eq, Bool.and_eq_true] at *
  rcases hpq with rfl | ⟨hsome, hpq⟩
  · exact hqr
  · rcases hqr with rfl | ⟨-, hqr⟩
    · exact .inr ⟨hsome, hpq⟩
    · exact .inr ⟨hsome, hpq.trans hqr⟩

/-- Lists match when their heads do and their tails do. -/
theorem TemplateArg.unifyAll_cons (p c : TemplateArg) (ps cs : List TemplateArg) (b : Bindings) :
    (TemplateArg.unifyAll [] (p :: ps) (c :: cs) b).1 =
      ((p.unify [] c b).1 && (TemplateArg.unifyAll [] ps cs b).1) := by
  obtain ⟨r, hpc, -⟩ := TemplateArg.unify_comm p c b
  rw [TemplateArg.unifyAll, hpc]
  cases r <;> rfl

/-- Paths match when their heads do and their tails do. -/
theorem NameSegment.unifyAll_cons (p c : NameSegment) (ps cs : List NameSegment) (b : Bindings) :
    (NameSegment.unifyAll [] (p :: ps) (c :: cs) b).1 =
      ((p.unify [] c b).1 && (NameSegment.unifyAll [] ps cs b).1) := by
  obtain ⟨r, hpc, -⟩ := NameSegment.unify_comm p c b
  rw [NameSegment.unifyAll, hpc]
  cases r <;> rfl

mutual
/-- A type that matches another one matches what that one matches. -/
theorem TypeExpr.unify_trans : ∀ (s t u : TypeExpr) (b : Bindings), (s.unify [] t b).1 = true →
    (t.unify [] u b).1 = true → (s.unify [] u b).1 = true
  | ⟨isConst, isVolatile, base, declarators⟩, ⟨isConst', isVolatile', base', declarators'⟩,
      ⟨isConst'', isVolatile'', base'', declarators''⟩, b => by
    simp only [TypeExpr.unify, TypeExpr.param?_nil]
    intro hst htu
    split at hst
    · cases hst
    · next hfirst =>
      split at htu
      · cases htu
      · next hsecond =>
        simp only [Bool.or_eq_true, decide_eq_true_eq, not_or, ne_eq,
          Decidable.not_not] at hfirst hsecond
        obtain ⟨⟨rfl, rfl⟩, rfl⟩ := hfirst
        obtain ⟨⟨rfl, rfl⟩, rfl⟩ := hsecond
        simpa using TypeBase.unify_trans base base' base'' b hst htu

/-- The same of bases. -/
theorem TypeBase.unify_trans : ∀ (p q r : TypeBase) (b : Bindings), (p.unify [] q b).1 = true →
    (q.unify [] r b).1 = true → (p.unify [] r b).1 = true
  | .fundamental n, .fundamental m, .fundamental l, b => by
    simp only [TypeBase.unify, decide_eq_true_eq]
    exact Eq.trans
  | .named _ ps, .named _ qs, .named _ rs, b => by
    simp only [TypeBase.unify]
    intro hpq hqr
    split at hpq
    · next hlen =>
      split at hqr
      · next hlen' =>
        rw [if_pos (hlen.trans hlen')]
        exact NameSegment.unifyAll_trans ps qs rs b hlen hlen' hpq hqr
      · cases hqr
    · cases hpq
  | .fundamental _, .named .., _, b => by simp [TypeBase.unify]
  | .named .., .fundamental _, _, b => by simp [TypeBase.unify]
  | .fundamental _, .fundamental _, .named .., b => by simp [TypeBase.unify]
  | .named .., .named .., .fundamental _, b => by simp [TypeBase.unify]

/-- The same of segments. -/
theorem NameSegment.unify_trans : ∀ (p q r : NameSegment) (b : Bindings),
    (p.unify [] q b).1 = true → (q.unify [] r b).1 = true → (p.unify [] r b).1 = true
  | .plain n, .plain m, .plain l, b => by
    simp only [NameSegment.unify, decide_eq_true_eq]
    exact Eq.trans
  | .applied n ps, .applied m qs, .applied l rs, b => by
    simp only [NameSegment.unify, Bool.and_eq_true, decide_eq_true_eq]
    intro hpq hqr
    split at hpq
    · next hsame =>
      split at hqr
      · next hsame' =>
        obtain ⟨rfl, hlen⟩ := hsame
        obtain ⟨rfl, hlen'⟩ := hsame'
        rw [if_pos ⟨rfl, hlen.trans hlen'⟩]
        exact TemplateArg.unifyAll_trans ps qs rs b hlen hlen' hpq hqr
      · cases hqr
    · cases hpq
  | .plain _, .applied .., _, b => by simp [NameSegment.unify]
  | .applied .., .plain _, _, b => by simp [NameSegment.unify]
  | .plain _, .plain _, .applied .., b => by simp [NameSegment.unify]
  | .applied .., .applied .., .plain _, b => by simp [NameSegment.unify]

/-- The same of arguments. -/
theorem TemplateArg.unify_trans : ∀ (p q r : TemplateArg) (b : Bindings),
    (p.unify [] q b).1 = true → (q.unify [] r b).1 = true → (p.unify [] r b).1 = true
  | .type p, .type q, .type r, b => by
    simpa [TemplateArg.unify] using TypeExpr.unify_trans p q r b
  | .value p, .value q, .value r, b => by
    simpa [TemplateArg.unify] using TemplateArg.sameValue_trans
  | .type _, .value _, _, b => by simp [TemplateArg.unify, TypeExpr.param?_nil]
  | .value _, .type _, _, b => by simp [TemplateArg.unify]
  | .type _, .type _, .value _, b => by simp [TemplateArg.unify, TypeExpr.param?_nil]
  | .value _, .value _, .type _, b => by simp [TemplateArg.unify]

/-- The same of paths of one length. -/
theorem NameSegment.unifyAll_trans : ∀ (ps qs rs : List NameSegment) (b : Bindings),
    ps.length = qs.length → qs.length = rs.length →
    (NameSegment.unifyAll [] ps qs b).1 = true → (NameSegment.unifyAll [] qs rs b).1 = true →
    (NameSegment.unifyAll [] ps rs b).1 = true
  | [], _, _, b => fun _ _ _ _ => by simp [NameSegment.unifyAll]
  | p :: ps, q :: qs, r :: rs, b => by
    simp only [NameSegment.unifyAll_cons, Bool.and_eq_true, List.length_cons,
      Nat.add_right_cancel_iff]
    rintro hlen hlen' ⟨hpq, hpsqs⟩ ⟨hqr, hqsrs⟩
    exact ⟨NameSegment.unify_trans p q r b hpq hqr,
      NameSegment.unifyAll_trans ps qs rs b hlen hlen' hpsqs hqsrs⟩
  | p :: ps, [], _, b => by simp
  | p :: ps, q :: qs, [], b => by simp

/-- The same of lists of arguments of one length. -/
theorem TemplateArg.unifyAll_trans : ∀ (ps qs rs : List TemplateArg) (b : Bindings),
    ps.length = qs.length → qs.length = rs.length →
    (TemplateArg.unifyAll [] ps qs b).1 = true → (TemplateArg.unifyAll [] qs rs b).1 = true →
    (TemplateArg.unifyAll [] ps rs b).1 = true
  | [], _, _, b => fun _ _ _ _ => by simp [TemplateArg.unifyAll]
  | p :: ps, q :: qs, r :: rs, b => by
    simp only [TemplateArg.unifyAll_cons, Bool.and_eq_true, List.length_cons,
      Nat.add_right_cancel_iff]
    rintro hlen hlen' ⟨hpq, hpsqs⟩ ⟨hqr, hqsrs⟩
    exact ⟨TemplateArg.unify_trans p q r b hpq hqr,
      TemplateArg.unifyAll_trans ps qs rs b hlen hlen' hpsqs hqsrs⟩
  | p :: ps, [], _, b => by simp
  | p :: ps, q :: qs, [], b => by simp
end

namespace TemplateArg

theorem denoteSame_cons (a b : TemplateArg) (as bs : List TemplateArg) :
    denoteSame (a :: as) (b :: bs) = ((a.unify [] b {}).1 && denoteSame as bs) := by
  simp only [denoteSame, List.zip_cons_cons, List.all_cons, List.length_cons,
    Nat.add_right_cancel_iff]
  exact Bool.and_left_comm _ _ _

/-- Arguments denote the same as themselves. -/
theorem denoteSame_self (as : List TemplateArg) : denoteSame as as = true := by
  induction as with
  | nil => rfl
  | cons a as ih => rw [denoteSame_cons, unify_self, ih]; rfl

/-- It makes no difference which of two lists is compared with which. -/
theorem denoteSame_comm (as bs : List TemplateArg) : denoteSame as bs = denoteSame bs as := by
  induction as generalizing bs with
  | nil => cases bs <;> rfl
  | cons a as ih =>
      cases bs with
      | nil => rfl
      | cons b bs =>
          obtain ⟨r, hab, hba⟩ := unify_comm a b {}
          rw [denoteSame_cons, denoteSame_cons, hab, hba, ih bs]

/-- Arguments that denote the same as others denote the same as whatever these do. -/
theorem denoteSame_trans {as bs cs : List TemplateArg} (hab : denoteSame as bs = true)
    (hbc : denoteSame bs cs = true) : denoteSame as cs = true := by
  induction as generalizing bs cs with
  | nil =>
    cases bs with
    | nil => exact hbc
    | cons b bs => cases hab
  | cons a as ih =>
    cases bs with
    | nil => cases hab
    | cons b bs =>
      cases cs with
      | nil => cases hbc
      | cons c cs =>
        rw [denoteSame_cons, Bool.and_eq_true] at hab hbc ⊢
        exact ⟨unify_trans a b c {} hab.1 hbc.1, ih hab.2 hbc.2⟩

end TemplateArg
end Bindery
