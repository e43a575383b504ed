import Bindery.Proofs.Numeral
import Bindery.Proofs.Preprocess.Reading

/-!
# What conditions evaluate to

A condition is a tree of tests, literals and operators. Its value is a signed 64-bit number in
arithmetic that wraps around, and it is written with the usual precedences, operators of one
precedence from the left, and parentheses around any part. Every written form of a tree is
evaluated to the truth of its value.

The levels of the reader hand over to each other at the right token: what is read so far is a
value in hand at the level of its last operator, and the reader goes on with it exactly as if it
had read the value as a single operand.

## Main definitions

* `Condition.Expr`: trees, and `Expr.value`, their values.
* `Condition.Written`: the token lists that a tree is written with at a level of precedence.
* `Condition.resume`: how a level goes on with a value in hand.

## Main statements

* `Condition.Written.readAt_eq`: a level reads what is written for it.
* `Condition.evaluate?_written`: evaluating a written tree.
-/
namespace Bindery.Condition

/-! ## Trees and values -/

/-- The number in the signed 64-bit range with the same last 64 bits. -/
def wrap (n : Int) : Int := n.bmod UInt64.size

/-- 1 for what holds and 0 for what does not. -/
def truthValue (p : Prop) [Decidable p] : Int := if p then 1 else 0

/-- The operators between two operands. -/
inductive BinaryOperator where
  | or | and | equal | unequal | less | atMost | greater | atLeast | add | subtract
deriving DecidableEq

namespace BinaryOperator

/-- How close an operator binds its operands, from 0 for a disjunction to 4 for a sum. -/
def precedence : BinaryOperator → ℕ
  | or => 0
  | and => 1
  | equal | unequal => 2
  | less | atMost | greater | atLeast => 3
  | add | subtract => 4

/-- What an operator makes of two numbers. -/
def apply : BinaryOperator → Int → Int → Int
  | or, a, b => truthValue (a ≠ 0 ∨ b ≠ 0)
  | and, a, b => truthValue (a ≠ 0 ∧ b ≠ 0)
  | equal, a, b => truthValue (a = b)
  | unequal, a, b => truthValue (a ≠ b)
  | less, a, b => truthValue (a < b)
  | atMost, a, b => truthValue (a ≤ b)
  | greater, a, b => truthValue (b < a)
  | atLeast, a, b => truthValue (b ≤ a)
  | add, a, b => wrap (a + b)
  | subtract, a, b => wrap (a - b)

/-- The tokens of an operator. All but the conjunction are read character by character. -/
def pieces : BinaryOperator → List Piece
  | or => [⟨.pipe, "|"⟩, ⟨.pipe, "|"⟩]
  | and => [⟨.ampAmp, "&&"⟩]
  | equal => [⟨.eq, "="⟩, ⟨.eq, "="⟩]
  | unequal => [⟨.bang, "!"⟩, ⟨.eq, "="⟩]
  | less => [⟨.lAngle, "<"⟩]
  | atMost => [⟨.lAngle, "<"⟩, ⟨.eq, "="⟩]
  | greater => [⟨.rAngle, ">"⟩]
  | atLeast => [⟨.rAngle, ">"⟩, ⟨.eq, "="⟩]
  | add => [⟨.plus, "+"⟩]
  | subtract => [⟨.minus, "-"⟩]

end BinaryOperator

/-- A condition. -/
inductive Expr where
  /-- A decimal literal in the signed 64-bit range. -/
  | literal (n : ℕ) (fits : (n : Int) ≤ Numeral.maxInt64)
  /-- Whether a macro is defined. -/
  | defined (name : String)
  | truth (b : Bool)
  | not (e : Expr)
  | neg (e : Expr)
  | binary (op : BinaryOperator) (l r : Expr)

/-- The value of a condition. -/
def Expr.value (table : MacroTable) : Expr → Int
  | literal n _ => n
  | defined name => truthValue (table.contains name = true)
  | truth b => truthValue (b = true)
  | not e => truthValue (e.value table = 0)
  | neg e => wrap (-e.value table)
  | binary op l r => op.apply (l.value table) (r.value table)

/-! ## Written forms -/

/-- The texts of a decimal literal: its digits without a leading zero, with separators between
them, and suffix letters behind them. -/
def IsDecimal (n : ℕ) (text : String) : Prop :=
  ∃ digits suffix, text.toList = digits ++ suffix ∧
    digits.filter (· ≠ '\'') = Nat.toDigits 10 n ∧ ∀ c ∈ suffix, c ∈ ['u', 'U', 'l', 'L']

theorem isDecimal_repr (n : ℕ) : IsDecimal n n.repr := by
  refine ⟨Nat.toDigits 10 n, [], by simp, ?_, by simp⟩
  rw [List.filter_eq_self]
  intro c hc
  have hdigit : c.isDigit = true := Nat.isDigit_of_mem_toDigits (by decide) (by decide) hc
  have hne : c ≠ '\'' := by
    rintro rfl
    cases hdigit
  simpa using hne

/-- The level of operands, which every operator keeps together. -/
def operandLevel : ℕ := 5

/-- The token lists that a condition is written with where operators of a lower precedence than
the level need parentheses. The operand behind an operator is one level closer, so that operators
of one precedence are taken from the left. -/
inductive Written : ℕ → Expr → List Piece → Prop
  | literal {n : ℕ} {fits : (n : Int) ≤ Numeral.maxInt64} {text : String} (h : IsDecimal n text) :
      Written operandLevel (.literal n fits) [⟨.intNumber, text⟩]
  | defined (name : Piece) (h : name.kind.isWord = true) :
      Written operandLevel (.defined name.text) [⟨.ident, "defined"⟩, name]
  | definedGroup (name : Piece) (h : name.kind.isWord = true) :
      Written operandLevel (.defined name.text)
        [⟨.ident, "defined"⟩, ⟨.lParen, "("⟩, name, ⟨.rParen, ")"⟩]
  | truth (b : Bool) :
      Written operandLevel (.truth b) [⟨.ident, if b then "true" else "false"⟩]
  | group {e : Expr} {ps : List Piece} (h : Written 0 e ps) :
      Written operandLevel e (⟨.lParen, "("⟩ :: (ps ++ [⟨.rParen, ")"⟩]))
  | not {e : Expr} {ps : List Piece} (h : Written operandLevel e ps) :
      Written operandLevel (.not e) (⟨.bang, "!"⟩ :: ps)
  | neg {e : Expr} {ps : List Piece} (h : Written operandLevel e ps) :
      Written operandLevel (.neg e) (⟨.minus, "-"⟩ :: ps)
  | binary (op : BinaryOperator) {l r : Expr} {ps qs : List Piece}
      (hl : Written op.precedence l ps) (hr : Written (op.precedence + 1) r qs) :
      Written op.precedence (.binary op l r) (ps ++ (op.pieces ++ qs))
  | looser {k : ℕ} {e : Expr} {ps : List Piece} (h : Written (k + 1) e ps) : Written k e ps

variable {table : MacroTable} {depth k : ℕ} {e : Expr} {ps rest : List Piece} {value : Int64}
  {op : BinaryOperator} {symbols : List OperatorSymbol}

theorem Written.loosen {j : ℕ} (h : Written j e ps) (hk : k ≤ j) : Written k e ps := by
  induction hk with
  | refl => exact h
  | step _ ih => exact ih h.looser

theorem BinaryOperator.precedence_lt (op : BinaryOperator) : op.precedence < operandLevel := by
  cases op <;> decide

/-- Every condition can be written, if need be with parentheses around all its parts. -/
theorem exists_written (e : Expr) : ∃ ps, Written operandLevel e ps := by
  induction e with
  | literal n fits => exact ⟨_, .literal (isDecimal_repr n)⟩
  | defined name => exact ⟨_, .defined ⟨.ident, name⟩ rfl⟩
  | truth b => exact ⟨_, .truth b⟩
  | not e ih => exact ih.imp' _ fun _ h => h.not
  | neg e ih => exact ih.imp' _ fun _ h => h.neg
  | binary op l r ihl ihr =>
    obtain ⟨ps, hl⟩ := ihl
    obtain ⟨qs, hr⟩ := ihr
    have hbinary := Written.binary op (hl.loosen op.precedence_lt.le)
      (hr.loosen op.precedence_lt)
    exact ⟨_, (hbinary.loosen (Nat.zero_le _)).group⟩

/-- No written form starts with an equality sign, so a comparison ends where its operand starts. -/
theorem Written.startsWith_eq_false (h : Written k e ps) (rest : List Piece) :
    startsWith .eq (ps ++ rest) = false := by
  induction h generalizing rest with
  | literal | defined | definedGroup | truth | group | not | neg => rfl
  | binary _ hl hr ihl ihr =>
    rw [List.append_assoc]
    exact ihl _
  | looser h ih => exact ih rest

/-! ## Machine numbers -/

theorem toInt_ofBool (p : Prop) [Decidable p] : (ofBool (decide p)).toInt = truthValue p := by
  by_cases h : p <;> simp [ofBool, truthValue, h]

theorem toInt_eq_zero_iff {a : Int64} : a.toInt = 0 ↔ a = 0 := by
  rw [← Int64.toInt_inj, Int64.toInt_zero]

/-- What an operator makes of two machine numbers. -/
def BinaryOperator.compute : BinaryOperator → Int64 → Int64 → Int64
  | or => fun a b => ofBool (a ≠ 0 || b ≠ 0)
  | and => fun a b => ofBool (a ≠ 0 && b ≠ 0)
  | equal => fun a b => ofBool (a = b)
  | unequal => fun a b => ofBool (a ≠ b)
  | less => fun a b => ofBool (a < b)
  | atMost => fun a b => ofBool (a ≤ b)
  | greater => fun a b => ofBool (b < a)
  | atLeast => fun a b => ofBool (b ≤ a)
  | add => (· + ·)
  | subtract => (· - ·)

theorem BinaryOperator.toInt_compute (op : BinaryOperator) (a b : Int64) :
    (op.compute a b).toInt = op.apply a.toInt b.toInt := by
  cases op with
  | or => simp only [compute, apply, ne_eq, toInt_eq_zero_iff, ← toInt_ofBool, Bool.decide_or]
  | and => simp only [compute, apply, ne_eq, toInt_eq_zero_iff, ← toInt_ofBool, Bool.decide_and]
  | equal => simp only [compute, apply, Int64.toInt_inj, ← toInt_ofBool]
  | unequal => simp only [compute, apply, ne_eq, Int64.toInt_inj, ← toInt_ofBool]
  | less => simp only [compute, apply, ← Int64.lt_iff_toInt_lt, ← toInt_ofBool]
  | atMost => simp only [compute, apply, ← Int64.le_iff_toInt_le, ← toInt_ofBool]
  | greater => simp only [compute, apply, ← Int64.lt_iff_toInt_lt, ← toInt_ofBool]
  | atLeast => simp only [compute, apply, ← Int64.le_iff_toInt_le, ← toInt_ofBool]
  | add => exact Int64.toInt_add a b
  | subtract => exact Int64.toInt_sub a b

/-- The value of a condition as a machine number. -/
def Expr.compute (table : MacroTable) : Expr → Int64
  | literal n _ => Int64.ofInt n
  | defined name => ofBool (table.contains name)
  | truth b => ofBool b
  | not e => ofBool (e.compute table = 0)
  | neg e => -e.compute table
  | binary op l r => op.compute (l.compute table) (r.compute table)

theorem Expr.toInt_compute (table : MacroTable) (e : Expr) :
    (e.compute table).toInt = e.value table := by
  induction e with
  | literal n fits =>
    rw [Numeral.maxInt64] at fits
    rw [compute, value, Int64.toInt_ofInt_of_le] <;> omega
  | defined name => simpa [compute, value] using toInt_ofBool (table.contains name = true)
  | truth b => simpa [compute, value] using toInt_ofBool (b = true)
  | not e ih => rw [compute, toInt_ofBool, value]; simp only [← ih, toInt_eq_zero_iff]
  | neg e ih => rw [compute, Int64.toInt_neg, ih, value, wrap]
  | binary op l r ihl ihr => rw [compute, op.toInt_compute, ihl, ihr, value]

theorem literal?_of_isDecimal {n : ℕ} {text : String} (fits : (n : Int) ≤ Numeral.maxInt64)
    (h : IsDecimal n text) : literal? text = some (Int64.ofInt n) := by
  obtain ⟨digits, suffix, htext, hdigits, hsuffix⟩ := h
  have hdrop : Numeral.dropSuffix (fun c => c = 'u' || c = 'U' || c = 'l' || c = 'L')
      (digits ++ suffix) = digits := by
    refine Numeral.dropSuffix_append (fun c hc => ?_) fun c hc => by
      simpa [or_assoc] using hsuffix c hc
    -- What is no separator is a digit, and neither is a suffix letter.
    by_cases htick : c = '\''
    · rw [htick]
      rfl
    · have hmem : c ∈ Nat.toDigits 10 n := hdigits ▸ List.mem_filter.2 ⟨hc, by simpa using htick⟩
      have hdigit : c.isDigit = true := Nat.isDigit_of_mem_toDigits (by decide) (by decide) hmem
      by_contra hletter
      simp only [Bool.not_eq_false, Bool.or_eq_true, decide_eq_true_eq] at hletter
      obtain ((rfl | rfl) | rfl) | rfl := hletter <;> cases hdigit
  rw [literal?, htext, hdrop, Numeral.magnitude?_of_digits hdigits fits, Option.map_some]

/-! ## Levels -/

/-- The reader of what is written at a level, with parentheses nested at most `depth` deep. -/
def readAt (table : MacroTable) (depth k : ℕ) : Reader :=
  (levels.drop k).foldr (fun symbols => level (bySymbol symbols))
    (unary table (expression table depth))

theorem readAt_zero : readAt table depth 0 = expression table (depth + 1) :=
  (expression_succ table depth).symm

theorem readAt_operandLevel :
    readAt table depth operandLevel = unary table (expression table depth) := rfl

theorem readAt_shortens : Shortens (readAt table depth k) :=
  (unary_shortens (expression_shortens depth)).foldr_level

theorem mem_drop_of_getElem? (h : levels[k]? = some symbols) : symbols ∈ levels.drop k := by
  obtain ⟨hk, rfl⟩ := List.getElem?_eq_some_iff.1 h
  rw [List.drop_eq_getElem_cons hk]
  exact .head _

theorem readAt_of_getElem? (h : levels[k]? = some symbols) :
    readAt table depth k = level (bySymbol symbols) (readAt table depth (k + 1)) := by
  obtain ⟨hk, rfl⟩ := List.getElem?_eq_some_iff.1 h
  rw [readAt, List.drop_eq_getElem_cons hk]
  rfl

theorem readAt_succ_of_getElem? (h : levels[k]? = none) :
    readAt table depth (k + 1) = readAt table depth k := by
  rw [List.getElem?_eq_none_iff] at h
  rw [readAt, readAt, List.drop_eq_nil_of_le h, List.drop_eq_nil_of_le (Nat.le_succ_of_le h)]

/-- How the reader of a level goes on behind a value that it has read. -/
def resume (table : MacroTable) (depth k : ℕ) (value : Int64) : Reader := fun rest =>
  match levels[k]? with
  | some symbols => chain (readAt table depth (k + 1)) (bySymbol symbols) value rest
  | none => some (value, rest)

/-- Neither an operator of the level or closer nor a parenthesis stands in front. -/
structure Stops (k : ℕ) (rest : List Piece) : Prop where
  noCall : startsWith .lParen rest = false
  noOperator : ∀ symbols ∈ levels.drop k, bySymbol symbols rest = none

theorem Stops.closer (h : Stops k rest) : Stops (k + 1) rest where
  noCall := h.noCall
  noOperator symbols hmem :=
    h.noOperator symbols ((List.drop_subset_drop_left levels (Nat.le_succ k)) hmem)

theorem stops_of_rParen {p : Piece} (h : p.kind = .rParen) : Stops k (p :: rest) where
  noCall := by simp [h]
  noOperator _ _ := bySymbol_eq_none fun q hq => by
    obtain rfl : p = q := Option.some.inj hq
    exact .inr (.inr h)

theorem stops_nil : Stops k [] where
  noCall := rfl
  noOperator _ _ := bySymbol_eq_none fun _ hq => by cases hq

theorem resume_of_stops (h : Stops k rest) :
    resume table depth k value rest = some (value, rest) := by
  rw [resume]
  cases hsymbols : levels[k]? with
  | none => rfl
  | some symbols => exact chain_of_none (h.noOperator symbols (mem_drop_of_getElem? hsymbols))

/-- An operand of a level is the first value in hand of the level. -/
theorem readAt_eq_resume (h : readAt table depth (k + 1) ps = some (value, rest)) :
    readAt table depth k ps = resume table depth k value rest := by
  rw [resume]
  cases hsymbols : levels[k]? with
  | none => rw [← readAt_succ_of_getElem? hsymbols, h]
  | some symbols => rw [readAt_of_getElem? hsymbols, level_eq, h, Option.bind_some]

/-! ## Operators -/

/-- The level of an operator has it, and it ends where its operand starts. -/
theorem bySymbol_pieces (op : BinaryOperator) (h : startsWith .eq rest = false) :
    ∃ symbols, levels[op.precedence]? = some symbols ∧
      bySymbol symbols (op.pieces ++ rest) = some (op.compute, rest) := by
  have hne : behind? [.eq] rest = none := by
    cases rest with
    | nil => rfl
    | cons p rest => exact if_neg (of_decide_eq_false h)
  refine ⟨_, List.getElem?_eq_getElem op.precedence_lt, ?_⟩
  cases op with
  | less | greater =>
    -- The symbol with an equality sign comes first in the level, and does not fit here.
    simp [BinaryOperator.precedence, BinaryOperator.pieces, BinaryOperator.compute, levels,
      bySymbol, behind?, hne]
  | _ => rfl

/-- No closer level has the operator. -/
theorem stops_pieces (op : BinaryOperator) (rest : List Piece) :
    Stops (op.precedence + 1) (op.pieces ++ rest) where
  noCall := by cases op <;> rfl
  noOperator := by
    cases op <;> simp [levels, BinaryOperator.precedence, BinaryOperator.pieces, bySymbol, behind?]

/-- Behind an operator the level reads one operand and goes on with both combined. -/
theorem resume_pieces {r : Int64} {behind : List Piece} (h : startsWith .eq behind = false)
    (hread : readAt table depth (op.precedence + 1) behind = some (r, rest)) :
    resume table depth op.precedence value (op.pieces ++ behind) =
      resume table depth op.precedence (op.compute value r) rest := by
  obtain ⟨symbols, hsymbols, hop⟩ := bySymbol_pieces op h
  have hlength := length_of_bySymbol hop
  simp only [resume, hsymbols]
  rw [chain_of_some readAt_shortens hop hlength, hread, Option.bind_some]

/-! ## Written forms are read -/

/-- A reader of a level that gets a written form of the level has its value in hand. -/
theorem Written.readAt_eq (h : Written k e ps) (hdepth : ps.length ≤ depth)
    (hstops : Stops (k + 1) rest) :
    readAt table depth k (ps ++ rest) = resume table depth k (e.compute table) rest := by
  induction h generalizing depth rest with
  | @literal n fits text hdecimal =>
    rw [readAt_operandLevel, List.singleton_append, unary_of_none rfl, primary_of_int rfl,
      literal?_of_isDecimal fits hdecimal]
    rfl
  | defined name hword =>
    have hparen : name.kind ≠ .lParen := ne_of_isWord hword rfl
    rw [readAt_operandLevel, List.cons_append, unary_of_none rfl,
      primary_of_defined (by decide) (by decide) rfl, List.singleton_append,
      definedTest_of_ne hparen]
    rfl
  | definedGroup => rfl
  | truth b =>
    rw [readAt_operandLevel, List.singleton_append, unary_of_none rfl,
      primary_of_word rfl (by cases b <;> decide), hstops.noCall]
    cases b <;> rfl
  | @group e ps h ih =>
    obtain _ | depth := depth
    · simp at hdepth
    have hlength : ps.length ≤ depth := by
      simp only [List.length_cons, List.length_append, List.length_nil] at hdepth
      omega
    have hstop : Stops 1 (⟨.rParen, ")"⟩ :: rest) := stops_of_rParen rfl
    have hinner := ih hlength hstop
    rw [resume_of_stops (stops_of_rParen rfl), readAt_zero] at hinner
    rw [readAt_operandLevel, List.cons_append, unary_of_none rfl, primary_of_group rfl,
      List.append_assoc, List.singleton_append, hinner]
    rfl
  | @not e ps h ih =>
    have hoperand := ih (Nat.le_of_succ_le hdepth) hstops
    rw [readAt_operandLevel] at hoperand ⊢
    rw [List.cons_append, unary_of_some rfl, hoperand]
    rfl
  | @neg e ps h ih =>
    have hoperand := ih (Nat.le_of_succ_le hdepth) hstops
    rw [readAt_operandLevel] at hoperand ⊢
    rw [List.cons_append, unary_of_some rfl, hoperand]
    rfl
  | @binary op l r ps qs hl hr ihl ihr =>
    simp only [List.length_append] at hdepth
    -- The left operand stops at the operator, the right one where the whole does.
    have hqs : qs.length ≤ depth := by omega
    have hright := ihr hqs hstops.closer
    rw [resume_of_stops hstops] at hright
    rw [List.append_assoc, List.append_assoc, ihl (by omega) (stops_pieces op _),
      resume_pieces (hr.startsWith_eq_false rest) hright]
    rfl
  | looser h ih =>
    have hcloser := ih hdepth hstops.closer
    rw [resume_of_stops hstops] at hcloser
    exact readAt_eq_resume hcloser

/-- **Conditions are evaluated as they are written**: every condition has written forms, and each
of them is accepted and evaluated to whether the value of the condition is different from zero. -/
theorem evaluate?_written (table : MacroTable) (e : Expr) :
    (∃ ps, Written 0 e ps) ∧
      ∀ ps, Written 0 e ps → evaluate? table ps = some (decide (e.value table ≠ 0)) := by
  refine ⟨(exists_written e).imp fun ps h => h.loosen (Nat.zero_le _), fun ps h => ?_⟩
  have hread : readAt table ps.length 0 (ps ++ []) = _ := h.readAt_eq (Nat.le_refl _) stops_nil
  rw [List.append_nil, readAt_zero, resume_of_stops stops_nil] at hread
  rw [evaluate?, hread]
  simp only [← Expr.toInt_compute, ne_eq, toInt_eq_zero_iff]

/-- The tokens of `!defined A || 1 - 2 - 3 == -4 && (true)`. -/
def mixedPieces : List Piece :=
  [⟨.bang, "!"⟩, ⟨.ident, "defined"⟩, ⟨.ident, "A"⟩, ⟨.pipe, "|"⟩, ⟨.pipe, "|"⟩,
    ⟨.intNumber, "1"⟩, ⟨.minus, "-"⟩, ⟨.intNumber, "2"⟩, ⟨.minus, "-"⟩, ⟨.intNumber, "3"⟩,
    ⟨.eq, "="⟩, ⟨.eq, "="⟩, ⟨.minus, "-"⟩, ⟨.intNumber, "4"⟩, ⟨.ampAmp, "&&"⟩,
    ⟨.lParen, "("⟩, ⟨.ident, "true"⟩, ⟨.rParen, ")"⟩]

/-- What `mixedPieces` is a written form of: the differences are taken from the left, and the
conjunction binds closer than the disjunction. -/
def mixedExpr : Expr :=
  .binary .or (.not (.defined "A"))
    (.binary .and
      (.binary .equal
        (.binary .subtract
          (.binary .subtract (.literal 1 (by decide)) (.literal 2 (by decide)))
          (.literal 3 (by decide)))
        (.neg (.literal 4 (by decide))))
      (.truth true))

/-- A condition with operators of all levels but one, where the macro of its test is defined. -/
theorem evaluate?_written_mixed :
    Written 0 mixedExpr mixedPieces ∧ mixedExpr.value ⟨[("A", [])]⟩ = 1 ∧
      evaluate? ⟨[("A", [])]⟩ mixedPieces = some true := by
  have hdecimal (n : ℕ) (fits : (n : Int) ≤ Numeral.maxInt64) :
      Written operandLevel (.literal n fits) [⟨.intNumber, n.repr⟩] := .literal (isDecimal_repr n)
  have hdifference := Written.binary .subtract
    (.binary .subtract ((hdecimal 1 (by decide)).loosen (by decide)) (hdecimal 2 (by decide)))
    (hdecimal 3 (by decide))
  have hequality := Written.binary .equal hdifference.looser.looser
    ((hdecimal 4 (by decide)).neg.loosen (by decide))
  have hgroup := (((Written.truth true).loosen (Nat.zero_le _)).group).loosen
    (show 2 ≤ operandLevel by decide)
  have htest := (Written.defined ⟨.ident, "A"⟩ rfl).not
  have hwritten : Written 0 mixedExpr mixedPieces :=
    .binary .or (htest.loosen (by decide))
      (.binary .and hequality.looser hgroup)
  exact ⟨hwritten, by decide, (evaluate?_written _ mixedExpr).2 mixedPieces hwritten⟩

end Bindery.Condition
