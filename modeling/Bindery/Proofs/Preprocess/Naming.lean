import Bindery.Proofs.Preprocess.InStep
import Bindery.Proofs.Preprocess.Nesting

/-!
# Names of macros in conditions

The stream and the conditions read macros in different ways: in the stream a name is replaced by its
expansion, in a condition it stands for a number that is looked up. The number is that of the
expansion when the macro is a single integer. Where every macro that a condition uses stands for
the number that its expansion has in parentheses, the condition says the same with all the names
replaced. It is only that a name behind another word, which makes a condition malformed, turns into
the operand of a call. A macro that stands for the name of another one does not have the number of
its expansion.

## Main definitions

* `Condition.marks`: which pieces of a condition are uses of macros.
* `Condition.replaceNames`: a condition with the uses replaced by their expansions.
* `Condition.Faithful`: a macro that stands for the number of its expansion.

## Main statements

* `Condition.evaluate?_replaceNames`: replacing the uses of faithful macros changes no condition.
* `Condition.faithful_of_integer`: a macro that is a single integer is faithful.
-/
namespace Bindery.Condition

variable {table : MacroTable} {name digits : String} {value : Int64} {kept : ℕ} {p : Piece}
  {pieces : List Piece}

/-! ## Replacing names -/

/-- What the name stands for in the stream, without blanks and comments. -/
def expansion (table : MacroTable) (name : String) : List Piece :=
  (table.expand name).filter fun p => !p.kind.isTrivia

/-- The piece is the name of a macro, and neither a call nor the operand of a `defined` test. Of the
operand, `kept` pieces are still to come. -/
def isUse (table : MacroTable) (kept : ℕ) (p : Piece) (rest : List Piece) : Bool :=
  kept = 0 && p.text ≠ "defined" && p.kind.isWord && table.contains p.text &&
    !startsWith .lParen rest

/-- The pieces, each with whether it is the use of a macro. -/
def marks (table : MacroTable) : ℕ → List Piece → List (Piece × Bool)
  | _, [] => []
  | kept, p :: rest =>
    (p, isUse table kept p rest) ::
      marks table (if p.text = "defined" then operandLength rest else kept - 1) rest

/-- A piece, or the expansion of the macro in parentheses where the piece is the use of one. -/
def replacement (table : MacroTable) (marked : Piece × Bool) : List Piece :=
  if marked.2 then opening :: (expansion table marked.1.text ++ [closing]) else [marked.1]

/-- The pieces with the uses of macros replaced by their expansions in parentheses. -/
def replaceNames (table : MacroTable) (pieces : List Piece) : List Piece :=
  (marks table 0 pieces).flatMap (replacement table)

/-- In a condition the name stands for the number that its expansion has in parentheses. -/
structure Faithful (table : MacroTable) (name : String) : Prop where
  closes : balanced 0 (expansion table name) = true
  reads : expression table ((expansion table name).length + 2) (expansion table name ++ [closing]) =
    some (nameValue table name, [closing])

theorem Faithful.denotes (h : Faithful table name) :
    Denotes table (expansion table name) (nameValue table name) :=
  denotes_of_expression h.closes h.reads

theorem flatMap_marks_of_use {rest : List Piece} (h : isUse table kept p rest = true) :
    (marks table kept (p :: rest)).flatMap (replacement table) =
      opening :: (expansion table p.text ++ closing ::
        (marks table (kept - 1) rest).flatMap (replacement table)) := by
  have htext : p.text ≠ "defined" := by
    intro htext
    simp [isUse, htext] at h
  simp [marks, replacement, h, htext]

theorem flatMap_marks_of_keep {rest : List Piece} (h : isUse table kept p rest = false) :
    (marks table kept (p :: rest)).flatMap (replacement table) =
      p :: (marks table (if p.text = "defined" then operandLength rest else kept - 1) rest).flatMap
        (replacement table) := by
  simp [marks, replacement, h]

theorem isUse_eq_false_of_pos {rest : List Piece} (h : 0 < kept) :
    isUse table kept p rest = false := by
  simp [isUse, Nat.ne_of_gt h]

theorem operandLength_eq (pieces : List Piece) :
    operandLength pieces = 1 ∨ operandLength pieces = 2 := by
  rw [operandLength]
  split
  · exact .inr rfl
  · exact .inl rfl

/-- The operand of a `defined` test is kept. -/
theorem take_operandLength (pieces : List Piece) : pieces.take (operandLength pieces) <+:
    (marks table (operandLength pieces) pieces).flatMap (replacement table) := by
  rcases pieces with _ | ⟨p, rest⟩
  · rw [List.take_nil]
    exact List.nil_prefix
  obtain hlength | hlength := operandLength_eq (p :: rest)
  · rw [hlength, flatMap_marks_of_keep (isUse_eq_false_of_pos Nat.one_pos)]
    simp
  · rw [hlength, flatMap_marks_of_keep (isUse_eq_false_of_pos Nat.two_pos), List.take_succ_cons,
      List.prefix_cons_inj]
    rcases rest with _ | ⟨q, rest⟩
    · exact List.nil_prefix
    · have hkept : 0 < if p.text = "defined" then operandLength (q :: rest) else 2 - 1 := by
        split
        · obtain h | h := operandLength_eq (q :: rest) <;> omega
        · exact Nat.one_pos
      rw [flatMap_marks_of_keep (isUse_eq_false_of_pos hkept)]
      simp

/-- Replacing the uses of faithful macros spells the condition. -/
theorem spelled_marks {tolerated : Prop}
    (hfaithful : ∀ p, (p, true) ∈ marks table kept pieces → Faithful table p.text)
    (htolerated : ∀ p q, p.kind.isWord = true →
      [(p, false), (q, true)] <:+: marks table kept pieces → tolerated) :
    Spelled table [] tolerated pieces ((marks table kept pieces).flatMap (replacement table)) := by
  induction pieces generalizing kept with
  | nil => exact .nil
  | cons p pieces ih =>
    have hrest := ih (fun q hq => hfaithful q (.tail _ hq)) fun q r hword hpair =>
      htolerated q r hword (hpair.trans (List.suffix_cons _ _).isInfix)
    cases huse : isUse table kept p pieces with
    | true =>
      rw [flatMap_marks_of_use huse]
      have hmark : (p, true) ∈ marks table kept (p :: pieces) := by
        rw [marks, huse]
        exact .head _
      simp only [isUse, Bool.and_eq_true, decide_eq_true_eq, Bool.not_eq_true'] at huse
      obtain ⟨⟨⟨⟨-, htext⟩, hword⟩, -⟩, hcall⟩ := huse
      rw [if_neg htext] at hrest
      exact .group hword htext hcall (hfaithful p hmark).denotes hrest
    | false =>
      rw [flatMap_marks_of_keep huse]
      refine .keep (fun hword hcall => ?_) (fun htext => ?_) (fun _ => .inl rfl) hrest
      · rcases pieces with _ | ⟨q, rest⟩
        · cases hcall
        cases huse' : isUse table (if p.text = "defined" then operandLength (q :: rest)
          else kept - 1) q rest with
        | true =>
          right
          refine htolerated p q hword ?_
          rw [marks, marks, huse, huse']
          exact (List.prefix_append [(p, false), (q, true)] _).isInfix
        | false =>
          rw [flatMap_marks_of_keep huse'] at hcall
          exact .inl hcall
      · rw [if_pos htext]
        exact take_operandLength pieces

/-! ## Faithful macros -/

/-- The name of a macro that is a single integer stands for that integer. -/
theorem nameValue_of_integer (htrue : name ≠ "true") (hfalse : name ≠ "false")
    (h : table.find? name = some [⟨.intNumber, digits⟩]) (hvalue : literal? digits = some value) :
    nameValue table name = value := by
  rw [nameValue, if_neg htrue, if_neg hfalse, h]
  simp [hvalue]

/-- An integer in parentheses. -/
theorem expression_integer (hvalue : literal? digits = some value) (depth : ℕ) :
    expression table (depth + 1) [⟨.intNumber, digits⟩, closing] = some (value, [closing]) := by
  rw [expression_succ]
  refine foldr_level_of_stop ?_ (by rintro p ⟨⟩; exact .inr (.inr rfl))
  rw [unary_of_none rfl, primary_of_int rfl, hvalue]
  rfl

/-- A macro that is a single integer is faithful. -/
theorem faithful_of_integer (htrue : name ≠ "true") (hfalse : name ≠ "false")
    (h : table.find? name = some [⟨.intNumber, digits⟩]) (hvalue : literal? digits = some value) :
    Faithful table name := by
  have hexpansion : expansion table name = [⟨.intNumber, digits⟩] := by
    rw [expansion, MacroTable.expand_of_some h]
    rfl
  constructor
  · rw [hexpansion]
    rfl
  · rw [hexpansion, nameValue_of_integer htrue hfalse h hvalue]
    exact expression_integer hvalue _

/-- **Names in conditions**: if every macro that a condition uses stands for the number of its
expansion, then the condition with the names replaced by the expansions in parentheses has the same
truth, or it is malformed with a name behind another word, which then is a call. -/
theorem evaluate?_replaceNames (table : MacroTable) (pieces : List Piece)
    (hfaithful : ∀ p, (p, true) ∈ marks table 0 pieces → Faithful table p.text) :
    evaluate? table (replaceNames table pieces) = evaluate? table pieces ∨
      evaluate? table pieces = none ∧ ∃ p q, p.kind.isWord = true ∧
        [(p, false), (q, true)] <:+: marks table 0 pieces :=
  (spelled_marks hfaithful fun p q hword hpair => ⟨p, q, hword, hpair⟩).evaluate?

/-- A comparison of two integers next to a `defined` test. -/
theorem evaluate?_replaceNames_comparison :
    let table : MacroTable := ⟨[("LOW", [⟨.intNumber, "3"⟩]), ("HIGH", [⟨.intNumber, "0x10"⟩])]⟩
    let pieces : List Piece := [⟨.ident, "LOW"⟩, ⟨.lAngle, "<"⟩, ⟨.ident, "HIGH"⟩,
      ⟨.ampAmp, "&&"⟩, ⟨.ident, "defined"⟩, ⟨.lParen, "("⟩, ⟨.ident, "LOW"⟩, ⟨.rParen, ")"⟩]
    let replaced : List Piece := [⟨.lParen, "("⟩, ⟨.intNumber, "3"⟩, ⟨.rParen, ")"⟩,
      ⟨.lAngle, "<"⟩, ⟨.lParen, "("⟩, ⟨.intNumber, "0x10"⟩, ⟨.rParen, ")"⟩,
      ⟨.ampAmp, "&&"⟩, ⟨.ident, "defined"⟩, ⟨.lParen, "("⟩, ⟨.ident, "LOW"⟩, ⟨.rParen, ")"⟩]
    (∀ p, (p, true) ∈ marks table 0 pieces → Faithful table p.text) ∧
      replaceNames table pieces = replaced ∧ evaluate? table pieces = some true ∧
      evaluate? table replaced = some true := by
  intro table pieces replaced
  have hlow : literal? "3" = some 3 := by decide +kernel
  have hhigh : literal? "0x10" = some 16 := by decide +kernel
  have hfaithful : ∀ p, (p, true) ∈ marks table 0 pieces → Faithful table p.text := by
    have hmarks : marks table 0 pieces = [(⟨.ident, "LOW"⟩, true), (⟨.lAngle, "<"⟩, false),
        (⟨.ident, "HIGH"⟩, true), (⟨.ampAmp, "&&"⟩, false), (⟨.ident, "defined"⟩, false),
        (⟨.lParen, "("⟩, false), (⟨.ident, "LOW"⟩, false), (⟨.rParen, ")"⟩, false)] := by
      decide +kernel
    intro p hp
    rw [hmarks] at hp
    obtain rfl | rfl : p = ⟨.ident, "LOW"⟩ ∨ p = ⟨.ident, "HIGH"⟩ := by simpa using hp
    · exact faithful_of_integer (by decide) (by decide) rfl hlow
    · exact faithful_of_integer (by decide) (by decide) rfl hhigh
  have hreplaced : replaceNames table pieces = replaced := by decide +kernel
  have htruth : evaluate? table pieces = some true := by decide +kernel
  refine ⟨hfaithful, hreplaced, htruth, ?_⟩
  obtain hsame | ⟨hnone, -⟩ := evaluate?_replaceNames table pieces hfaithful
  · rw [← hreplaced, hsame, htruth]
  · cases htruth.symm.trans hnone

/-- A macro that stands for the name of another one counts as zero in a condition. -/
theorem evaluate?_replaceNames_chain :
    let table : MacroTable := ⟨[("A", [⟨.ident, "B"⟩]), ("B", [⟨.intNumber, "1"⟩])]⟩
    table.Acyclic ∧ replaceNames table [⟨.ident, "A"⟩] =
        [⟨.lParen, "("⟩, ⟨.intNumber, "1"⟩, ⟨.rParen, ")"⟩] ∧
      evaluate? table (replaceNames table [⟨.ident, "A"⟩]) = some true ∧
      evaluate? table [⟨.ident, "A"⟩] = some false := by
  intro table
  refine ⟨MacroTable.acyclic_of_rank (fun name => if name = "A" then 1 else 0)
    (by decide +kernel), ?_, ?_, ?_⟩
  · decide +kernel
  · decide +kernel
  · decide +kernel

end Bindery.Condition
