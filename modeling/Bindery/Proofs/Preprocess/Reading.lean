import Bindery.Preprocess.Condition
import Mathlib.Data.List.Basic

/-!
# Reading conditions

A condition is read by readers that call each other, level by level. The operators of a level are
given by the symbols that they are written with, an operand by its first piece. What each reader
leaves is shorter than what it gets.

## Main definitions

* `Condition.OperatorSymbol`, `levels`: the operators by their symbols.
* `Condition.Shortens`: a reader leaves less than it gets.

## Main statements

* `Condition.expression_succ`: an expression is read by the levels, one on top of the other.
* `Condition.expression_shortens`: what an expression leaves.
-/
namespace Bindery.Condition

/-- The kinds of the pieces that an operator is written with, and what it computes. -/
structure OperatorSymbol where
  kinds : List TokenKind
  compute : Int64 → Int64 → Int64
  ne_nil : kinds ≠ [] := by decide
  /-- Operators are not written with words and parentheses. -/
  plain : ∀ kind ∈ kinds, kind.isWord = false ∧ kind ≠ .lParen ∧ kind ≠ .rParen := by decide

/-- The pieces start with a piece of the kind. -/
def startsWith (kind : TokenKind) : List Piece → Bool
  | [] => false
  | p :: _ => p.kind = kind

@[simp] theorem startsWith_nil (kind : TokenKind) : startsWith kind [] = false := rfl

@[simp] theorem startsWith_cons (kind : TokenKind) (p : Piece) (rest : List Piece) :
    startsWith kind (p :: rest) = decide (p.kind = kind) := rfl

variable {table : MacroTable} {inner inner' R R' : Reader} {op : Operator} {p : Piece}
  {ps qs rest behind tail : List Piece} {value : Int64} {f : Int64 → Int64 → Int64}
  {symbols : List OperatorSymbol}

theorem exists_of_startsWith {kind : TokenKind} (h : startsWith kind ps = true) :
    ∃ p rest, ps = p :: rest ∧ p.kind = kind := by
  cases ps with
  | nil => cases h
  | cons p rest => exact ⟨p, rest, rfl, of_decide_eq_true h⟩

theorem ne_of_isWord {kind kind' : TokenKind} (h : kind.isWord = true) (h' : kind'.isWord = false) :
    kind ≠ kind' := by
  rintro rfl
  cases h.symm.trans h'

/-! ## Operators by their symbols -/

/-- The pieces behind pieces of the given kinds. -/
def behind? : List TokenKind → List Piece → Option (List Piece)
  | [], ps => some ps
  | _ :: _, [] => none
  | kind :: kinds, p :: ps => if p.kind = kind then behind? kinds ps else none

/-- The operator that is written with the first of the symbols that fits. -/
def bySymbol (symbols : List OperatorSymbol) : Operator := fun ps =>
  symbols.findSome? fun s => (behind? s.kinds ps).map fun rest => (s.compute, rest)

/-- The symbols of the levels, the loosest first. -/
def levels : List (List OperatorSymbol) :=
  [[.mk [.pipe, .pipe] (fun a b => ofBool (a ≠ 0 || b ≠ 0))],
   [.mk [.ampAmp] (fun a b => ofBool (a ≠ 0 && b ≠ 0))],
   [.mk [.eq, .eq] (fun a b => ofBool (a = b)), .mk [.bang, .eq] (fun a b => ofBool (a ≠ b))],
   [.mk [.lAngle, .eq] (fun a b => ofBool (a ≤ b)), .mk [.lAngle] (fun a b => ofBool (a < b)),
    .mk [.rAngle, .eq] (fun a b => ofBool (b ≤ a)), .mk [.rAngle] (fun a b => ofBool (b < a))],
   [.mk [.plus] (· + ·), .mk [.minus] (· - ·)]]

theorem additive_eq : additive = bySymbol [.mk [.plus] (· + ·), .mk [.minus] (· - ·)] := by
  funext ps
  rcases ps with _ | ⟨⟨kind, text⟩, rest⟩
  · rfl
  · rw [additive.eq_def]
    split <;> simp_all [bySymbol, behind?]

theorem relational_eq : relational = bySymbol
    [.mk [.lAngle, .eq] (fun a b => ofBool (a ≤ b)), .mk [.lAngle] (fun a b => ofBool (a < b)),
      .mk [.rAngle, .eq] (fun a b => ofBool (b ≤ a)),
      .mk [.rAngle] (fun a b => ofBool (b < a))] := by
  funext ps
  rcases ps with _ | ⟨⟨kind, text⟩, rest⟩
  · rfl
  by_cases hl : kind = .lAngle
  · subst hl
    rcases rest with _ | ⟨⟨kind', text'⟩, rest⟩
    · rfl
    · by_cases heq : kind' = .eq
      · subst heq
        rfl
      · simp [relational, bySymbol, behind?, heq]
  · by_cases hr : kind = .rAngle
    · subst hr
      rcases rest with _ | ⟨⟨kind', text'⟩, rest⟩
      · rfl
      · by_cases heq : kind' = .eq
        · subst heq
          rfl
        · simp [relational, bySymbol, behind?, heq]
    · simp [relational, bySymbol, behind?, hl, hr]

theorem equality_eq : equality = bySymbol
    [.mk [.eq, .eq] (fun a b => ofBool (a = b)), .mk [.bang, .eq] (fun a b => ofBool (a ≠ b))] := by
  funext ps
  rcases ps with _ | ⟨⟨kind, text⟩, _ | ⟨⟨kind', text'⟩, rest⟩⟩
  · rfl
  · simp [equality, bySymbol, behind?]
  · by_cases heq : kind' = .eq
    · subst heq
      by_cases hl : kind = .eq
      · subst hl
        rfl
      · by_cases hr : kind = .bang
        · subst hr
          rfl
        · simp [equality, bySymbol, behind?, hl, hr]
    · simp [equality, bySymbol, behind?, heq]

theorem conjunction_eq :
    conjunction = bySymbol [.mk [.ampAmp] (fun a b => ofBool (a ≠ 0 && b ≠ 0))] := by
  funext ps
  rcases ps with _ | ⟨⟨kind, text⟩, rest⟩
  · rfl
  · rw [conjunction.eq_def]
    split <;> simp_all [bySymbol, behind?]

theorem disjunction_eq :
    disjunction = bySymbol [.mk [.pipe, .pipe] (fun a b => ofBool (a ≠ 0 || b ≠ 0))] := by
  funext ps
  rcases ps with _ | ⟨⟨kind, text⟩, _ | ⟨⟨kind', text'⟩, rest⟩⟩
  · rfl
  · simp [disjunction, bySymbol, behind?]
  · by_cases hl : kind = .pipe
    · by_cases hr : kind' = .pipe
      · subst hl hr
        rfl
      · simp [disjunction, bySymbol, behind?, hr]
    · simp [disjunction, bySymbol, behind?, hl]

theorem expression_succ (table : MacroTable) (depth : ℕ) :
    expression table (depth + 1) =
      levels.foldr (fun symbols => level (bySymbol symbols))
        (unary table (expression table depth)) := by
  simp only [expression, levels, List.foldr_cons, List.foldr_nil, additive_eq, relational_eq,
    equality_eq, conjunction_eq, disjunction_eq]

/-- No operator starts with a word or a parenthesis. -/
theorem bySymbol_eq_none
    (h : ∀ p ∈ ps.head?, p.kind.isWord = true ∨ p.kind = .lParen ∨ p.kind = .rParen) :
    bySymbol symbols ps = none := by
  rw [bySymbol, List.findSome?_eq_none_iff]
  intro s _
  rw [Option.map_eq_none_iff]
  cases hk : s.kinds with
  | nil => exact absurd hk s.ne_nil
  | cons kind kinds =>
    cases ps with
    | nil => rfl
    | cons p ps =>
      obtain ⟨hword, hopen, hclose⟩ := s.plain kind (by rw [hk]; exact .head _)
      obtain hp | hp | hp := h p rfl
      · exact if_neg (ne_of_isWord hp hword)
      · exact if_neg (hp ▸ hopen.symm)
      · exact if_neg (hp ▸ hclose.symm)

/-! ## Operands -/

/-- A word in front of a parenthesis makes a call of it, and stands for its value otherwise. -/
theorem primary_of_word (hword : p.kind.isWord = true) (htext : p.text ≠ "defined") :
    primary table inner (p :: rest) =
      if startsWith .lParen rest then some (0, skipGroup 0 rest)
      else some (nameValue table p.text, rest) := by
  have hint : p.kind ≠ .intNumber := ne_of_isWord hword rfl
  have hparen : p.kind ≠ .lParen := ne_of_isWord hword rfl
  simp only [primary, htext, hword, if_false, if_true]
  rcases rest with _ | ⟨⟨kind, text⟩, rest⟩
  · rfl
  · by_cases h : kind = .lParen
    · subst h
      rfl
    · simp [h]

theorem primary_of_defined (hint : p.kind ≠ .intNumber) (hparen : p.kind ≠ .lParen)
    (htext : p.text = "defined") : primary table inner (p :: rest) = definedTest table rest := by
  simp only [primary, htext, if_true]

theorem definedTest_of_ne (hparen : p.kind ≠ .lParen) :
    definedTest table (p :: rest) = some (ofBool (table.contains p.text), rest) := by
  obtain ⟨kind, text⟩ := p
  simp [definedTest, show kind ≠ .lParen from hparen]

theorem definedTest_single (hparen : p.kind = .lParen) : definedTest table [p] = none := by
  obtain ⟨kind, text⟩ := p
  obtain rfl : kind = .lParen := hparen
  rfl

theorem definedTest_group (hparen : p.kind = .lParen) (name : Piece) :
    definedTest table (p :: name :: rest) = if startsWith .rParen rest then
      some (ofBool (table.contains name.text), rest.tail) else none := by
  obtain ⟨kind, text⟩ := p
  obtain rfl : kind = .lParen := hparen
  rcases rest with _ | ⟨⟨kind, text⟩, rest⟩
  · rfl
  · by_cases h : kind = .rParen
    · subst h
      rfl
    · simp [definedTest, h]

theorem primary_of_group (hparen : p.kind = .lParen) : primary table inner (p :: rest) =
    (inner rest).bind fun r =>
      if startsWith .rParen r.2 then some (r.1, r.2.tail) else none := by
  simp only [primary, hparen]
  rcases inner rest with _ | ⟨value, _ | ⟨⟨kind, text⟩, rest⟩⟩
  · rfl
  · rfl
  · by_cases h : kind = .rParen
    · subst h
      rfl
    · simp [h]

theorem primary_of_int (hint : p.kind = .intNumber) : primary table inner (p :: rest) =
    (literal? p.text).map fun value => (value, rest) := by
  simp only [primary, hint]

theorem primary_of_other (hint : p.kind ≠ .intNumber) (hparen : p.kind ≠ .lParen)
    (htext : p.text ≠ "defined") (hword : p.kind.isWord = false) :
    primary table inner (p :: rest) = none := by
  simp only [primary, htext, hword, if_false, Bool.false_eq_true]

/-- What a sign in front of an operand computes. -/
def sign? : TokenKind → Option (Int64 → Int64)
  | .bang => some fun value => ofBool (value = 0)
  | .minus => some fun value => -value
  | _ => none

theorem not_isWord_of_sign? {kind : TokenKind} {sign : Int64 → Int64} (h : sign? kind = some sign) :
    kind.isWord = false := by
  rw [sign?.eq_def] at h
  split at h
  · rfl
  · rfl
  · cases h

theorem unary_of_some {sign : Int64 → Int64} (h : sign? p.kind = some sign) :
    unary table inner (p :: rest) =
      (unary table inner rest).bind fun r => some (sign r.1, r.2) := by
  obtain ⟨kind, text⟩ := p
  rw [sign?.eq_def] at h
  split at h
  · rename_i heq
    obtain rfl : kind = .bang := heq
    cases h
    rw [unary, Option.map_eq_bind]
    rfl
  · rename_i heq
    obtain rfl : kind = .minus := heq
    cases h
    rw [unary, Option.map_eq_bind]
    rfl
  · cases h

theorem unary_of_none (h : sign? p.kind = none) :
    unary table inner (p :: rest) = primary table inner (p :: rest) := by
  obtain ⟨kind, text⟩ := p
  rw [unary.eq_def]
  split
  · rename_i heq
    cases heq
    cases h
  · rename_i heq
    cases heq
    cases h
  · rfl

/-! ## Readers leave less than they get -/

/-- What the reader leaves is shorter than what it gets. -/
def Shortens (R : Reader) : Prop :=
  ∀ ps value rest, R ps = some (value, rest) → rest.length < ps.length

theorem length_of_behind? {kinds : List TokenKind} (h : behind? kinds ps = some rest) :
    rest.length + kinds.length = ps.length := by
  induction kinds generalizing ps with
  | nil =>
    cases h
    rfl
  | cons kind kinds ih =>
    cases ps with
    | nil => cases h
    | cons p ps =>
      rw [behind?, Option.ite_none_right_eq_some] at h
      have hrest := ih h.2
      simp only [List.length_cons]
      omega

theorem length_of_bySymbol (h : bySymbol symbols ps = some (f, rest)) :
    rest.length < ps.length := by
  obtain ⟨s, -, hbehind⟩ := List.exists_of_findSome?_eq_some h
  obtain ⟨rest', hbehind, heq⟩ := Option.map_eq_some_iff.1 hbehind
  cases heq
  have hlength := length_of_behind? hbehind
  have hkinds := List.length_pos_of_ne_nil s.ne_nil
  omega

theorem chain_of_none (h : op ps = none) : chain R op value ps = some (value, ps) := by
  rw [chain, h]

theorem chain_of_some (hR : Shortens R) (h : op ps = some (f, behind))
    (hlength : behind.length < ps.length) :
    chain R op value ps =
      (R behind).bind fun r => chain R op (f value r.1) r.2 := by
  rw [chain, h]
  cases hread : R behind with
  | none => simp [hread]
  | some result =>
    obtain ⟨operand, rest⟩ := result
    have hrest := hR _ _ _ hread
    simp only [hread, Option.bind_some]
    rw [if_pos (by omega)]

theorem level_eq : level op R ps = (R ps).bind fun r => chain R op r.1 r.2 := by
  rw [level]
  cases R ps <;> rfl

/-- An operand with no operator behind it is an expression of every level. -/
theorem foldr_level_of_stop {list : List (List OperatorSymbol)}
    (h : R ps = some (value, rest))
    (hstop : ∀ p ∈ rest.head?, p.kind.isWord = true ∨ p.kind = .lParen ∨ p.kind = .rParen) :
    list.foldr (fun symbols => level (bySymbol symbols)) R ps = some (value, rest) := by
  induction list with
  | nil => exact h
  | cons symbols list ih =>
    rw [List.foldr_cons, level_eq, ih, Option.bind_some, chain_of_none (bySymbol_eq_none hstop)]

theorem length_of_chain {value' : Int64} (h : chain R op value ps = some (value', rest)) :
    rest.length ≤ ps.length := by
  fun_induction chain R op value ps with
  | case1 =>
    cases h
    exact Nat.le_refl _
  | case2 => cases h
  | case3 _ _ _ _ _ _ _ _ hless ih => exact Nat.le_trans (ih h) (Nat.le_of_lt hless)
  | case4 => cases h

theorem Shortens.level (hR : Shortens R) : Shortens (level op R) := by
  intro ps value rest h
  rw [Condition.level] at h
  split at h
  · cases h
  · rename_i hread
    exact Nat.lt_of_le_of_lt (length_of_chain h) (hR _ _ _ hread)

theorem length_skipGroup (depth : ℕ) (ps : List Piece) :
    (skipGroup depth ps).length ≤ ps.length := by
  fun_induction skipGroup depth ps <;> simp only [List.length_cons, List.length_nil] <;> omega

theorem definedTest_shortens : Shortens (definedTest table) := by
  intro ps value rest h
  rw [definedTest.eq_def] at h
  split at h <;> cases h <;> simp only [List.length_cons] <;> omega

theorem primary_shortens (h : Shortens inner) : Shortens (primary table inner) := by
  intro ps value rest hread
  rcases ps with _ | ⟨p, ps⟩
  · cases hread
  rw [List.length_cons]
  by_cases hint : p.kind = .intNumber
  · rw [primary_of_int hint, Option.map_eq_some_iff] at hread
    obtain ⟨_, -, heq⟩ := hread
    cases heq
    exact Nat.lt_succ_self _
  by_cases hparen : p.kind = .lParen
  · rw [primary_of_group hparen, Option.bind_eq_some_iff] at hread
    obtain ⟨⟨value', rest'⟩, hinner, hread⟩ := hread
    have hlength := h _ _ _ hinner
    rw [Option.ite_none_right_eq_some] at hread
    cases hread.2
    rw [List.length_tail]
    exact Nat.lt_succ_of_le (Nat.le_trans (Nat.sub_le _ _) (Nat.le_of_lt hlength))
  by_cases htext : p.text = "defined"
  · rw [primary_of_defined hint hparen htext] at hread
    exact Nat.lt_succ_of_lt (definedTest_shortens _ _ _ hread)
  by_cases hword : p.kind.isWord = true
  · rw [primary_of_word hword htext] at hread
    split at hread <;> cases hread
    · exact Nat.lt_succ_of_le (length_skipGroup _ _)
    · exact Nat.lt_succ_self _
  · rw [primary_of_other hint hparen htext (by simpa using hword)] at hread
    cases hread

theorem unary_shortens (h : Shortens inner) : Shortens (unary table inner) := by
  intro ps value rest hread
  induction ps generalizing value rest with
  | nil => exact primary_shortens h _ _ _ hread
  | cons p ps ih =>
    cases hsign : sign? p.kind with
    | none =>
      rw [unary_of_none hsign] at hread
      exact primary_shortens h _ _ _ hread
    | some sign =>
      rw [unary_of_some hsign, Option.bind_eq_some_iff] at hread
      obtain ⟨⟨value', rest'⟩, hread, heq⟩ := hread
      cases heq
      exact Nat.lt_succ_of_lt (ih _ _ hread)

theorem Shortens.foldr_level {list : List (List OperatorSymbol)} (hR : Shortens R) :
    Shortens (list.foldr (fun symbols => Condition.level (bySymbol symbols)) R) := by
  induction list with
  | nil => exact hR
  | cons symbols list ih => exact ih.level

theorem expression_shortens (depth : ℕ) : Shortens (expression table depth) := by
  induction depth with
  | zero => simp [Shortens, expression]
  | succ depth ih =>
    rw [expression_succ]
    exact (unary_shortens ih).foldr_level

end Bindery.Condition
