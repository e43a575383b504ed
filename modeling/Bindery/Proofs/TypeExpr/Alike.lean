import Bindery.Proofs.TypeExpr.Pieces
import Bindery.TypeExpr.Unification

/-!
# Types that are alike

A type is alike to another one if the two are equal up to a leading `::` on names and up to how
integers are written. For types that have no other values than integers this is what one means by
the same type, as far as it can be seen without knowing what names stand for.

## Main definitions

* `TypeExpr.Regular`: no reference to a reference, and no value but integers.
* `TypeExpr.Alike`: equality up to a leading `::` and to how integers are written.

## Main statements

* `TemplateArg.IsInteger.substituteText`: replacing parameters leaves an integer as it is.
-/
namespace Bindery

/-- An integer literal, with or without a sign. -/
def TemplateArg.IsInteger (text : String) : Prop :=
  ∃ digits, Token.IsSingle .intNumber digits ∧
    (text = digits ∨ text = "-" ++ digits ∨ text = "+" ++ digits)

/-- Two values are the same text, or the same integer. -/
def TemplateArg.SameInteger (text text' : String) : Prop :=
  text = text' ∨ ∃ n, (TemplateArg.value text).integer? = some n ∧
    (TemplateArg.value text').integer? = some n

mutual
/-- No reference follows a reference in the type, and all its values are integer literals. -/
def TypeExpr.Regular : TypeExpr → Prop
  | ⟨_, _, base, declarators⟩ => base.Regular ∧ Indirection.Separated declarators

/-- The segments of the base are regular. -/
def TypeBase.Regular : TypeBase → Prop
  | .fundamental _ => True
  | .named _ segments => NameSegment.AllRegular segments

/-- The arguments of the segment are regular. -/
def NameSegment.Regular : NameSegment → Prop
  | .plain _ => True
  | .applied _ args => TemplateArg.AllRegular args

/-- A regular type, or an integer literal. -/
def TemplateArg.Regular : TemplateArg → Prop
  | .type t => t.Regular
  | .value text => TemplateArg.IsInteger text

/-- All segments are regular. -/
def NameSegment.AllRegular : List NameSegment → Prop
  | [] => True
  | s :: ss => s.Regular ∧ NameSegment.AllRegular ss

/-- All arguments are regular. -/
def TemplateArg.AllRegular : List TemplateArg → Prop
  | [] => True
  | a :: as => a.Regular ∧ TemplateArg.AllRegular as
end

theorem TypeExpr.Regular.separated : ∀ {t : TypeExpr}, t.Regular →
    Indirection.Separated t.declarators
  | ⟨_, _, _, _⟩, h => by
    rw [TypeExpr.Regular] at h
    exact h.2

mutual
/-- The types are equal up to a leading `::` on names and up to how integers are written. -/
def TypeExpr.Alike : TypeExpr → TypeExpr → Prop
  | ⟨isConst, isVolatile, base, declarators⟩, ⟨isConst', isVolatile', base', declarators'⟩ =>
    isConst = isConst' ∧ isVolatile = isVolatile' ∧ declarators = declarators' ∧ base.Alike base'

/-- The same fundamental type, or alike paths. -/
def TypeBase.Alike : TypeBase → TypeBase → Prop
  | .fundamental n, .fundamental m => n = m
  | .named _ ss, .named _ ts => NameSegment.AllAlike ss ts
  | _, _ => False

/-- The same name, with alike arguments or without any. -/
def NameSegment.Alike : NameSegment → NameSegment → Prop
  | .plain n, .plain m => n = m
  | .applied n as, .applied m bs => n = m ∧ TemplateArg.AllAlike as bs
  | _, _ => False

/-- Alike types, or values that are the same integer. -/
def TemplateArg.Alike : TemplateArg → TemplateArg → Prop
  | .type s, .type t => s.Alike t
  | .value x, .value y => TemplateArg.SameInteger x y
  | _, _ => False

/-- The segments are alike in order. -/
def NameSegment.AllAlike : List NameSegment → List NameSegment → Prop
  | [], [] => True
  | s :: ss, t :: ts => s.Alike t ∧ NameSegment.AllAlike ss ts
  | _, _ => False

/-- The arguments are alike in order. -/
def TemplateArg.AllAlike : List TemplateArg → List TemplateArg → Prop
  | [], [] => True
  | a :: as, b :: bs => a.Alike b ∧ TemplateArg.AllAlike as bs
  | _, _ => False
end

mutual
theorem TypeExpr.alike_refl : ∀ t : TypeExpr, t.Alike t
  | ⟨_, _, base, _⟩ => by simp [TypeExpr.Alike, base.alike_refl]

theorem TypeBase.alike_refl : ∀ base : TypeBase, base.Alike base
  | .fundamental _ => by simp [TypeBase.Alike]
  | .named _ segments => by simp [TypeBase.Alike, NameSegment.allAlike_refl segments]

theorem NameSegment.alike_refl : ∀ s : NameSegment, s.Alike s
  | .plain _ => by simp [NameSegment.Alike]
  | .applied _ args => by simp [NameSegment.Alike, TemplateArg.allAlike_refl args]

theorem TemplateArg.alike_refl : ∀ a : TemplateArg, a.Alike a
  | .type t => by simp [TemplateArg.Alike, t.alike_refl]
  | .value _ => by simp [TemplateArg.Alike, TemplateArg.SameInteger]

theorem NameSegment.allAlike_refl : ∀ ss : List NameSegment, NameSegment.AllAlike ss ss
  | [] => by simp [NameSegment.AllAlike]
  | s :: ss => by simp [NameSegment.AllAlike, s.alike_refl, NameSegment.allAlike_refl ss]

theorem TemplateArg.allAlike_refl : ∀ as : List TemplateArg, TemplateArg.AllAlike as as
  | [] => by simp [TemplateArg.AllAlike]
  | a :: as => by simp [TemplateArg.AllAlike, a.alike_refl, TemplateArg.allAlike_refl as]
end

theorem TemplateArg.sameInteger_of_sameValue {p c : String}
    (h : TemplateArg.sameValue p c = true) : TemplateArg.SameInteger p c := by
  simp only [sameValue, Bool.or_eq_true, decide_eq_true_eq, Bool.and_eq_true] at h
  rcases h with rfl | ⟨hsome, heq⟩
  · exact .inl rfl
  · obtain ⟨n, hn⟩ := Option.isSome_iff_exists.1 hsome
    exact .inr ⟨n, hn, heq ▸ hn⟩

/-! ## Integers -/

theorem Token.pieces_plus (cs : List Char) :
    Token.pieces ('+' :: cs) = ⟨.plus, "+"⟩ :: Token.pieces cs :=
  Token.pieces_append (w := ['+']) (by decide) rfl

/-- An integer is made of a number and perhaps a sign. -/
theorem TemplateArg.IsInteger.exists_pieces {text : String} (h : TemplateArg.IsInteger text) :
    ∃ digits, piecesOf text = [⟨.intNumber, digits⟩] ∧ text = digits ∨
      piecesOf text = [⟨.minus, "-"⟩, ⟨.intNumber, digits⟩] ∧ text = "-" ++ digits ∨
      piecesOf text = [⟨.plus, "+"⟩, ⟨.intNumber, digits⟩] ∧ text = "+" ++ digits := by
  obtain ⟨digits, hdigits, htext⟩ := h
  have hpieces := hdigits.pieces_integer (Pattern.stops_nil _)
  rw [List.append_nil, Token.pieces_nil] at hpieces
  refine ⟨digits, ?_⟩
  rcases htext with rfl | rfl | rfl
  · exact .inl ⟨hpieces, rfl⟩
  · obtain ⟨c, cs, hcs, hc⟩ := hdigits.exists_digit
    have harrow : Pattern.Stops (· = '>') digits.toList := by
      rw [hcs]
      refine Pattern.stops_cons (decide_eq_false ?_)
      rintro rfl
      exact absurd hc (by decide)
    have hlist : ("-" ++ digits).toList = '-' :: digits.toList := by simp
    refine .inr (.inl ⟨?_, rfl⟩)
    rw [piecesOf_eq, hlist, Token.pieces_minus harrow, hpieces]
  · have hlist : ("+" ++ digits).toList = '+' :: digits.toList := by simp
    refine .inr (.inr ⟨?_, rfl⟩)
    rw [piecesOf_eq, hlist, Token.pieces_plus, hpieces]

/-- An integer has no parameters, and is spelled as it was. -/
theorem TemplateArg.IsInteger.substituteText {text : String} (h : TemplateArg.IsInteger text)
    (b : Bindings) : TemplateArg.substituteText b text = text := by
  have hminus : TemplateArg.needsBlank true .minus .intNumber = false := by decide
  have hplus : TemplateArg.needsBlank true .plus .intNumber = false := by decide
  obtain ⟨digits, ⟨hpieces, htext⟩ | ⟨hpieces, htext⟩ | ⟨hpieces, htext⟩⟩ := h.exists_pieces
  all_goals
    rw [TemplateArg.substituteText, hpieces, htext]
    simp [TemplateArg.spell, TemplateArg.spellBehind, hminus, hplus]

end Bindery
