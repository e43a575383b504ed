import Bindery.Preprocess.MacroTable
import Mathlib.Data.List.Chain
import Mathlib.Tactic.Ring

/-!
# Values as arithmetic

A value argument may be an arithmetic expression over integers and parameters. Its tokens come from
a tree, and the tree is grouped by the usual precedence: a product binds closer than a sum, sums and
products are read from the left, a sign binds closest. Different trees can have the same tokens, but
only one of them is grouped like this. Reading the tokens from the left with the sum and the product
so far gives the number that they stand for, so all grouped trees with the same tokens agree on it.

A tree that arises by putting trees in the place of names need not be grouped. Unless a sum has come
under a sign, into a product or behind a minus, there is a grouped tree with the same tokens.

## Main definitions

* `ValueExpr`: arithmetic expressions.
* `ValueExpr.pieces`, `ValueExpr.value`: their tokens, and the number that they stand for.
* `ValueExpr.Grouped`: the trees that tokens are read as.
* `ValueExpr.replace`: putting expressions in the place of names.

## Main statements

* `ValueExpr.value_eq_of_pieces_eq`: the tokens determine the number.
* `ValueExpr.exists_grouped_replace`: when names can be replaced without parentheses.
-/
namespace Bindery

/-- An operator between two values. -/
inductive Operator where
  | add
  | sub
  | mul
deriving DecidableEq

namespace Operator

/-- The token of an operator. -/
def piece : Operator → Piece
  | add => ⟨.plus, "+"⟩
  | sub => ⟨.minus, "-"⟩
  | mul => ⟨.star, "*"⟩

/-- What an operator makes of two numbers. -/
def apply : Operator → Int → Int → Int
  | add => (· + ·)
  | sub => (· - ·)
  | mul => (· * ·)

/-- How close an operator binds. -/
def level : Operator → Nat
  | add => 0
  | sub => 0
  | mul => 1

theorem level_lt_two (op : Operator) : op.level < 2 := by cases op <;> decide

end Operator

/-- An arithmetic expression over integers and names. -/
inductive ValueExpr where
  | literal (digits : String)
  | name (name : String)
  | neg (e : ValueExpr)
  | bin (op : Operator) (l r : ValueExpr)
  | paren (e : ValueExpr)

namespace ValueExpr

variable {e l r : ValueExpr} {op : Operator} {f : String → ValueExpr}

/-- The tokens of an expression. -/
def pieces : ValueExpr → List Piece
  | literal digits => [⟨.intNumber, digits⟩]
  | name x => [⟨.ident, x⟩]
  | neg e => ⟨.minus, "-"⟩ :: e.pieces
  | bin op l r => l.pieces ++ op.piece :: r.pieces
  | paren e => ⟨.lParen, "("⟩ :: (e.pieces ++ [⟨.rParen, ")"⟩])

/-- The number that an expression stands for where literals and names stand for numbers. -/
def value (readLiteral env : String → Int) : ValueExpr → Int
  | literal digits => readLiteral digits
  | name x => env x
  | neg e => -e.value readLiteral env
  | bin op l r => op.apply (l.value readLiteral env) (r.value readLiteral env)
  | paren e => e.value readLiteral env

/-- How close the parts of an expression are bound: 0 for a sum and 1 for a product. -/
def level : ValueExpr → Nat
  | bin op _ _ => op.level
  | _ => 2

/-- Precedence groups the tokens of the expression like the expression: what is left of an operator
is bound at least as close as by the operator, and what is right of it or under a sign closer. -/
def Grouped : ValueExpr → Prop
  | literal _ | name _ => True
  | neg e => e.Grouped ∧ 2 ≤ e.level
  | bin op l r => l.Grouped ∧ op.level ≤ l.level ∧ r.Grouped ∧ op.level < r.level
  | paren e => e.Grouped

instance instDecidableGrouped : (e : ValueExpr) → Decidable e.Grouped
  | literal _ | name _ => isTrue trivial
  | neg e => @instDecidableAnd _ _ (instDecidableGrouped e) (Nat.decLe 2 e.level)
  | bin op l r =>
    @instDecidableAnd _ _ (instDecidableGrouped l) <|
      @instDecidableAnd _ _ (Nat.decLe op.level l.level) <|
        @instDecidableAnd _ _ (instDecidableGrouped r) (Nat.decLt op.level r.level)
  | paren e => instDecidableGrouped e

/-- No sum stands under a sign, in a product or behind a minus. -/
def Tight : ValueExpr → Prop
  | literal _ | name _ => True
  | neg e => e.Tight ∧ 1 ≤ e.level
  | bin op l r => l.Tight ∧ op.level ≤ l.level ∧ r.Tight ∧ (op = .add ∨ 1 ≤ r.level)
  | paren e => e.Tight

theorem Grouped.tight (h : e.Grouped) : e.Tight := by
  induction e with
  | literal | name => trivial
  | neg e ih =>
    obtain ⟨hgrouped, hlevel⟩ := h
    exact ⟨ih hgrouped, by omega⟩
  | bin op l r ihl ihr =>
    obtain ⟨hl, hlevel, hr, hlt⟩ := h
    exact ⟨ihl hl, hlevel, ihr hr, .inr (by omega)⟩
  | paren e ih => exact ih h

/-! ## Reading from the left -/

/-- The number that tokens stand for, read from the left. `sum` is what was added up in the open
parenthesis, and `product` is what was multiplied up behind it, to which a token in the place of an
operand is a factor; `outer` has the same of the parentheses around it. -/
def read (readLiteral env : String → Int) :
    (operand : Bool) → List Piece → (outer : List (Int × Int)) → (sum product : Int) → Option Int
  | false, [], [], sum, product => some (sum + product)
  | _, [], _, _, _ => none
  | true, p :: ps, outer, sum, product =>
    match p.kind with
    | .intNumber => read readLiteral env false ps outer sum (product * readLiteral p.text)
    | .ident => read readLiteral env false ps outer sum (product * env p.text)
    | .minus => read readLiteral env true ps outer sum (-product)
    | .lParen => read readLiteral env true ps ((sum, product) :: outer) 0 1
    | _ => none
  | false, p :: ps, outer, sum, product =>
    match p.kind, outer with
    | .plus, _ => read readLiteral env true ps outer (sum + product) 1
    | .minus, _ => read readLiteral env true ps outer (sum + product) (-1)
    | .star, _ => read readLiteral env true ps outer sum product
    | .rParen, (outerSum, outerProduct) :: outer =>
      read readLiteral env false ps outer outerSum (outerProduct * (sum + product))
    | _, _ => none

/-- Behind the tokens of an expression its number has been added or multiplied. A sum can only be
read where no factor waits for it, and what is no sum is only multiplied. -/
theorem read_pieces (readLiteral env : String → Int) (h : e.Tight) (ps : List Piece)
    (outer : List (Int × Int)) (sum product : Int) (hproduct : product = 1 ∨ 1 ≤ e.level) :
    ∃ sum' product', read readLiteral env true (e.pieces ++ ps) outer sum product =
        read readLiteral env false ps outer sum' product' ∧
      sum' + product' = sum + product * e.value readLiteral env ∧ (1 ≤ e.level → sum' = sum) := by
  induction e generalizing ps outer sum product with
  | literal digits => exact ⟨_, _, rfl, rfl, fun _ => rfl⟩
  | name x => exact ⟨_, _, rfl, rfl, fun _ => rfl⟩
  | neg e ih =>
    obtain ⟨sum', product', hread, htotal, hsum⟩ := ih h.1 ps outer sum (-product) (.inr h.2)
    refine ⟨sum', product', hread, ?_, fun _ => hsum h.2⟩
    rw [htotal, value]
    ring
  | paren e ih =>
    obtain ⟨sum', product', hread, htotal, -⟩ :=
      ih h (⟨.rParen, ")"⟩ :: ps) ((sum, product) :: outer) 0 1 (.inl rfl)
    refine ⟨sum, product * (sum' + product'), ?_, ?_, fun _ => rfl⟩
    · rw [pieces, List.cons_append, List.append_assoc]
      exact hread
    · rw [htotal, value]
      ring
  | bin op l r ihl ihr =>
    obtain ⟨hl, hlevel, hr, htight⟩ := h
    have hleft : product = 1 ∨ 1 ≤ l.level := hproduct.imp_right (·.trans hlevel)
    obtain ⟨sum₁, product₁, hread₁, htotal₁, hsum₁⟩ :=
      ihl hl (op.piece :: (r.pieces ++ ps)) outer sum product hleft
    rw [pieces, List.append_assoc, List.cons_append, hread₁]
    -- A sum is read where `product` is 1, so what its left operand leaves is added up; a product
    -- leaves `sum` alone, and its right operand is one more factor.
    cases op with
    | add =>
      obtain rfl : product = 1 := hproduct.resolve_right (Nat.not_succ_le_zero 0)
      obtain ⟨sum', product', hread, htotal, -⟩ := ihr hr ps outer (sum₁ + product₁) 1 (.inl rfl)
      refine ⟨sum', product', hread, ?_, fun hlevel => absurd hlevel (Nat.not_succ_le_zero 0)⟩
      rw [htotal, htotal₁, value, Operator.apply]
      ring
    | sub =>
      obtain rfl : product = 1 := hproduct.resolve_right (Nat.not_succ_le_zero 0)
      have hright := htight.resolve_left (by simp)
      obtain ⟨sum', product', hread, htotal, -⟩ :=
        ihr hr ps outer (sum₁ + product₁) (-1) (.inr hright)
      refine ⟨sum', product', hread, ?_, fun hlevel => absurd hlevel (Nat.not_succ_le_zero 0)⟩
      rw [htotal, htotal₁, value, Operator.apply]
      ring
    | mul =>
      have hright := htight.resolve_left (by simp)
      obtain rfl : sum₁ = sum := hsum₁ hlevel
      obtain ⟨sum', product', hread, htotal, hsum⟩ := ihr hr ps outer sum₁ product₁ (.inr hright)
      refine ⟨sum', product', hread, ?_, fun _ => hsum hright⟩
      rw [htotal, Int.add_left_cancel htotal₁, value, Operator.apply]
      ring

theorem Tight.read_eq (h : e.Tight) (readLiteral env : String → Int) :
    read readLiteral env true e.pieces [] 0 1 = some (e.value readLiteral env) := by
  obtain ⟨sum, product, hread, htotal, -⟩ :=
    read_pieces readLiteral env h [] [] 0 1 (.inl rfl)
  rw [List.append_nil] at hread
  rw [hread, read, htotal, zero_add, one_mul]

/-- The tokens determine the number. -/
theorem value_eq_of_pieces_eq {e' : ValueExpr} (h : e.Tight) (h' : e'.Tight)
    (hpieces : e.pieces = e'.pieces) (readLiteral env : String → Int) :
    e.value readLiteral env = e'.value readLiteral env := by
  have hread := h.read_eq readLiteral env
  rw [hpieces, h'.read_eq] at hread
  exact (Option.some.inj hread).symm

/-! ## Grouping -/

/-- A sign in front of a product belongs to its first factor. -/
theorem Grouped.exists_neg (h : e.Grouped) (hlevel : 1 ≤ e.level) :
    ∃ e' : ValueExpr, e'.Grouped ∧ e'.pieces = (neg e).pieces ∧ 1 ≤ e'.level := by
  induction e with
  | literal | name | neg | paren => exact ⟨neg _, ⟨h, le_rfl⟩, rfl, one_le_two⟩
  | bin op l r ihl _ =>
    obtain ⟨hl, hleft, hr, hright⟩ := h
    -- `-(l * r)` has the tokens of `(-l) * r`.
    obtain ⟨l', hl', hpieces, hlevel'⟩ := ihl hl (hlevel.trans hleft)
    have hop : op.level = 1 := by cases op <;> simp_all [level, Operator.level]
    refine ⟨bin op l' r, ⟨hl', hop ▸ hlevel', hr, hright⟩, ?_, hlevel⟩
    simp only [pieces, hpieces, List.cons_append]

/-- What stands behind an operator may be bound as close as by the operator, unless it is a sum
behind a minus: the operator then belongs to its first operand. -/
theorem Grouped.exists_bin (hl : l.Grouped) (hr : r.Grouped) (hleft : op.level ≤ l.level)
    (hright : op.level ≤ r.level) (hsub : op = .add ∨ 1 ≤ r.level) :
    ∃ e' : ValueExpr, e'.Grouped ∧ e'.pieces = (bin op l r).pieces ∧ op.level ≤ e'.level := by
  induction r with
  | literal | name | neg | paren =>
    exact ⟨bin op l _, ⟨hl, hleft, hr, op.level_lt_two⟩, rfl, le_rfl⟩
  | bin op' r₁ r₂ ih _ =>
    by_cases hlt : op.level < (bin op' r₁ r₂).level
    · exact ⟨bin op l (bin op' r₁ r₂), ⟨hl, hleft, hr, hlt⟩, rfl, le_rfl⟩
    · -- `l op (r₁ op' r₂)` has the tokens of `(l op r₁) op' r₂`.
      obtain ⟨hr₁, hlevel₁, hr₂, hlevel₂⟩ := hr
      rw [level] at hright hsub hlt
      obtain ⟨e', he', hpieces, hlevel⟩ := ih hr₁ (by omega) (hsub.imp_right (by omega))
      refine ⟨bin op' e' r₂, ⟨he', by omega, hr₂, hlevel₂⟩, ?_, hright⟩
      simp only [pieces, hpieces, List.append_assoc, List.cons_append]

/-- A tight expression has the tokens of a grouped one, which is a sum only if it is one. -/
theorem Tight.exists_grouped (h : e.Tight) :
    ∃ e' : ValueExpr, e'.Grouped ∧ e'.pieces = e.pieces ∧ min 1 e.level ≤ e'.level := by
  induction e with
  | literal digits => exact ⟨literal digits, trivial, rfl, Nat.min_le_right _ _⟩
  | name x => exact ⟨.name x, trivial, rfl, Nat.min_le_right _ _⟩
  | neg e ih =>
    obtain ⟨e₁, he₁, hpieces₁, hlevel₁⟩ := ih h.1
    have hone : 1 ≤ e₁.level := by simpa [h.2] using hlevel₁
    obtain ⟨e', he', hpieces, hlevel⟩ := he₁.exists_neg hone
    exact ⟨e', he', by rw [hpieces, pieces, pieces, hpieces₁], by omega⟩
  | bin op l r ihl ihr =>
    obtain ⟨hl, hleft, hr, htight⟩ := h
    obtain ⟨l', hl', hpiecesl, hlevell⟩ := ihl hl
    obtain ⟨r', hr', hpiecesr, hlevelr⟩ := ihr hr
    have hop := op.level_lt_two
    have hsub : op = .add ∨ 1 ≤ r'.level := by
      refine htight.imp_right fun hone => ?_
      simpa [hone] using hlevelr
    have hright : op.level ≤ r'.level := by
      rcases hsub with rfl | hone
      · exact Nat.zero_le _
      · omega
    obtain ⟨e', he', hpieces, hlevel⟩ := hl'.exists_bin hr' (by omega) hright hsub
    refine ⟨e', he', by rw [hpieces, pieces, pieces, hpiecesl, hpiecesr], ?_⟩
    exact (Nat.min_le_right _ _).trans hlevel
  | paren e ih =>
    obtain ⟨e', he', hpieces, -⟩ := ih h
    exact ⟨paren e', he', by rw [pieces, pieces, hpieces], by simp [level]⟩

/-! ## Replacing names -/

/-- The names in an expression. -/
def names : ValueExpr → List String
  | literal _ => []
  | name x => [x]
  | neg e => e.names
  | bin _ l r => l.names ++ r.names
  | paren e => e.names

/-- The expression with an expression in the place of each name. -/
def replace (f : String → ValueExpr) : ValueExpr → ValueExpr
  | literal digits => literal digits
  | name x => f x
  | neg e => neg (e.replace f)
  | bin op l r => bin op (l.replace f) (r.replace f)
  | paren e => paren (e.replace f)

/-- The name that the expression is, if it is one. -/
def name? : ValueExpr → Option String
  | name x => some x
  | _ => none

/-- The names under a sign, that are factors or that stand behind a minus. -/
def exposed : ValueExpr → List String
  | literal _ | name _ => []
  | neg e => e.name?.toList ++ e.exposed
  | bin op l r =>
    (if op = .mul then l.name?.toList else []) ++ (if op = .add then [] else r.name?.toList) ++
      (l.exposed ++ r.exposed)
  | paren e => e.exposed

/-- The tokens that stand for a token when names are replaced. -/
def splice (f : String → ValueExpr) (p : Piece) : List Piece :=
  if p.kind = .ident then (f p.text).pieces else [p]

/-- Names are replaced token by token. -/
theorem pieces_replace (f : String → ValueExpr) (e : ValueExpr) :
    (e.replace f).pieces = e.pieces.flatMap (splice f) := by
  induction e with
  | literal | name => simp [replace, pieces, splice]
  | neg e ih => simp [replace, pieces, splice, ih]
  | bin op l r ihl ihr => cases op <;> simp [replace, pieces, splice, ihl, ihr, Operator.piece]
  | paren e ih => simp [replace, pieces, splice, ih]

/-- With each name standing for the number of the expression in its place, the number is the
same. -/
theorem value_replace (readLiteral env : String → Int) (f : String → ValueExpr) (e : ValueExpr) :
    (e.replace f).value readLiteral env =
      e.value readLiteral fun name => (f name).value readLiteral env := by
  induction e with
  | literal | name => rfl
  | neg e ih => rw [replace, value, value, ih]
  | bin op l r ihl ihr => rw [replace, value, value, ihl, ihr]
  | paren e ih => rw [replace, value, value, ih]

theorem one_le_level_replace (h : 1 ≤ e.level)
    (hf : ∀ name ∈ e.name?, 1 ≤ (f name).level) : 1 ≤ (e.replace f).level := by
  cases e with
  | name x => exact hf x rfl
  | literal | neg | paren => exact one_le_two
  | bin op l r => exact h

/-- If no sum is put in an exposed place, none ends up there. -/
theorem Grouped.tight_replace (he : e.Grouped) (hf : ∀ name ∈ e.names, (f name).Grouped)
    (hexposed : ∀ name ∈ e.exposed, 1 ≤ (f name).level) : (e.replace f).Tight := by
  induction e with
  | literal => trivial
  | name x => exact (hf x List.mem_cons_self).tight
  | paren e ih => exact ih he hf hexposed
  | neg e ih =>
    obtain ⟨hgrouped, hlevel⟩ := he
    rw [exposed, List.forall_mem_append] at hexposed
    obtain ⟨hname, hinside⟩ := hexposed
    refine ⟨ih hgrouped hf hinside, ?_⟩
    apply one_le_level_replace (by omega)
    intro name h
    exact hname name (Option.mem_toList.2 h)
  | bin op l r ihl ihr =>
    obtain ⟨hl, hleft, hr, hright⟩ := he
    rw [names, List.forall_mem_append] at hf
    rw [exposed, List.forall_mem_append, List.forall_mem_append, List.forall_mem_append] at hexposed
    obtain ⟨⟨hfactor, hbehind⟩, hinl, hinr⟩ := hexposed
    refine ⟨ihl hl hf.1 hinl, ?_, ihr hr hf.2 hinr, ?_⟩
    · cases op with
      | add | sub => exact Nat.zero_le _
      | mul =>
        apply one_le_level_replace hleft
        intro name h
        exact hfactor name (Option.mem_toList.2 h)
    · by_cases hop : op = .add
      · exact .inl hop
      · right
        rw [if_neg hop] at hbehind
        apply one_le_level_replace (by omega)
        intro name h
        exact hbehind name (Option.mem_toList.2 h)

/-- Where no sum is put in an exposed place, the tokens are those of a grouped expression. -/
theorem exists_grouped_replace (he : e.Grouped) (hf : ∀ name ∈ e.names, (f name).Grouped)
    (hexposed : ∀ name ∈ e.exposed, 1 ≤ (f name).level) :
    ∃ e' : ValueExpr, e'.Grouped ∧ e'.pieces = (e.replace f).pieces ∧
      ∀ readLiteral env : String → Int, e'.value readLiteral env =
        e.value readLiteral fun name => (f name).value readLiteral env := by
  have htight := he.tight_replace hf hexposed
  obtain ⟨e', he', hpieces, -⟩ := htight.exists_grouped
  refine ⟨e', he', hpieces, fun readLiteral env => ?_⟩
  rw [value_eq_of_pieces_eq he'.tight htight hpieces, value_replace]

end ValueExpr
end Bindery
