import Bindery.Proofs.Preprocess.Reading

/-!
# Conditions that are read in step

A list of pieces may spell another one: words stand there as groups in parentheses that have their
values, and more pieces may stand behind the end. Two such lists are read in step. The readers
compute the same numbers and leave lists of which one spells the other, until the first one comes to
its end or to a word behind a word, which in the second one is a call. In particular what stands
behind a closing parenthesis makes no difference to the reading of what stands in front of it.

## Main definitions

* `Condition.Denotes`: pieces that are read as a number wherever they stand in parentheses.
* `Condition.Spelled`: a list of pieces that spells another one.
* `Condition.Agree`: results of two readers that are in step.

## Main statements

* `Condition.expression_inStep`: lists of which one spells the other are read in step.
* `Condition.denotes_of_expression`: reading the pieces of a group tells what the group denotes.
-/
namespace Bindery.Condition

variable {table : MacroTable} {inner R R' : Reader} {p : Piece} {ps qs rest tail : List Piece}
  {symbols : List OperatorSymbol}

/-! ## Spellings -/

/-- The piece that opens a group. -/
def opening : Piece := ⟨.lParen, "("⟩

/-- The piece that closes a group. -/
def closing : Piece := ⟨.rParen, ")"⟩

/-- Each group that is opened in the pieces is closed there, with `depth` groups open in front. -/
def balanced (depth : ℕ) : List Piece → Bool
  | [] => depth = 0
  | p :: rest =>
    if p.kind = .lParen then balanced (depth + 1) rest
    else if p.kind = .rParen then depth ≠ 0 && balanced (depth - 1) rest
    else balanced depth rest

/-- The pieces of a group that is read as the number, whatever stands behind the group. -/
structure Denotes (table : MacroTable) (inside : List Piece) (value : Int64) : Prop where
  reads : ∀ depth rest, (inside ++ closing :: rest).length < depth →
    expression table depth (inside ++ closing :: rest) = some (value, closing :: rest)
  closes : balanced 0 inside = true

/-- How many pieces behind `defined` are its operand, or lead to it. -/
def operandLength (ps : List Piece) : ℕ := if startsWith .lParen ps then 2 else 1

/-- The second list spells the first one, and goes on with the tail: some words stand there as
groups that denote their values, and everything else is the same. Names that are tested are the
same. A word stands in front of a group that spells another word only if this is tolerated. -/
inductive Spelled (table : MacroTable) (tail : List Piece) (tolerated : Prop) :
    List Piece → List Piece → Prop where
  | nil : Spelled table tail tolerated [] tail
  | keep {p : Piece} {ps qs : List Piece}
      (hcall : p.kind.isWord = true → startsWith .lParen qs = true →
        startsWith .lParen ps = true ∨ tolerated)
      (htest : p.text = "defined" → ps.take (operandLength ps) <+: qs)
      (hlast : ps = [] → tail = [] ∨ p.kind = .rParen)
      (h : Spelled table tail tolerated ps qs) :
      Spelled table tail tolerated (p :: ps) (p :: qs)
  | group {p : Piece} {ps inside qs : List Piece} (hword : p.kind.isWord = true)
      (htext : p.text ≠ "defined") (hcall : startsWith .lParen ps = false)
      (hinside : Denotes table inside (nameValue table p.text))
      (h : Spelled table tail tolerated ps qs) :
      Spelled table tail tolerated (p :: ps) (opening :: (inside ++ closing :: qs))

/-- The readers of the two lists are in step no more: the first one is at the end, or in front of a
word, which is no operator. -/
def Stuck (tail : List Piece) : List Piece → Prop
  | [] => tail ≠ []
  | p :: _ => p.kind.isWord = true

/-- Results of readers that are in step, or that need no longer be. -/
inductive Agree (table : MacroTable) (tail : List Piece) (tolerated : Prop) :
    Option (Int64 × List Piece) → Option (Int64 × List Piece) → Prop where
  | reads (value : Int64) {ps qs : List Piece} (h : Spelled table tail tolerated ps qs) :
      Agree table tail tolerated (some (value, ps)) (some (value, qs))
  | fails : Agree table tail tolerated none none
  | stuck {result result' : Option (Int64 × List Piece)} (htolerated : tolerated)
      (h : ∀ value rest, result = some (value, rest) → Stuck tail rest) :
      Agree table tail tolerated result result'

/-- The readers agree on lists below the lengths of which one spells the other. -/
def InStep (table : MacroTable) (tail : List Piece) (tolerated : Prop) (n n' : ℕ) (R R' : Reader) :
    Prop :=
  ∀ ps qs, ps.length < n → qs.length < n' → Spelled table tail tolerated ps qs →
    Agree table tail tolerated (R ps) (R' qs)

variable {tolerated : Prop} {n n' : ℕ}

/-- A piece that is the same in both lists. -/
theorem Spelled.of_cons (h : Spelled table tail tolerated (p :: ps) (p :: qs)) :
    Spelled table tail tolerated ps qs := by
  cases h with
  | keep _ _ _ h => exact h
  | group hword => cases hword

/-- A piece that is no word is the same in both lists. -/
theorem Spelled.exists_of_not_isWord (h : Spelled table tail tolerated (p :: ps) qs)
    (hword : p.kind.isWord = false) :
    ∃ qs', qs = p :: qs' ∧ Spelled table tail tolerated ps qs' := by
  cases h with
  | keep _ _ _ h => exact ⟨_, rfl, h⟩
  | group hword' => cases hword.symm.trans hword'

/-- What is a call only in the second list stops the first one. -/
theorem Spelled.stuck_of_call (h : Spelled table tail tolerated ps qs)
    (hps : startsWith .lParen ps = false) (hqs : startsWith .lParen qs = true) : Stuck tail ps := by
  cases h with
  | nil =>
    rintro rfl
    cases hqs
  | keep => exact absurd hqs (by simpa using hps)
  | group hword => exact hword

theorem skipGroup_cons (depth : ℕ) (p : Piece) (rest : List Piece) :
    skipGroup depth (p :: rest) =
      if p.kind = .lParen then skipGroup (depth + 1) rest
      else if p.kind = .rParen then if depth ≤ 1 then rest else skipGroup (depth - 1) rest
      else skipGroup depth rest := by
  rw [skipGroup]
  split <;> simp_all

theorem skipGroup_of_balanced {depth : ℕ} (h : balanced depth ps = true) (k : ℕ) :
    skipGroup (depth + (k + 1)) (ps ++ rest) = skipGroup (k + 1) rest := by
  fun_induction balanced depth ps with
  | case1 depth =>
    obtain rfl : depth = 0 := by simpa using h
    rw [List.nil_append, Nat.zero_add]
  | case2 depth p ps hopen ih =>
    rw [List.cons_append, skipGroup_cons, if_pos hopen, ← ih h]
    congr 1
    omega
  | case3 depth p ps hopen hclose ih =>
    rw [Bool.and_eq_true, decide_eq_true_eq] at h
    rw [List.cons_append, skipGroup_cons, if_neg hopen, if_pos hclose, if_neg (by omega), ← ih h.2]
    congr 1
    omega
  | case4 depth p ps hopen hclose ih =>
    rw [List.cons_append, skipGroup_cons, if_neg hopen, if_neg hclose, ih h]

theorem skipGroup_group {inside : List Piece} (h : balanced 0 inside = true) (k : ℕ)
    (rest : List Piece) :
    skipGroup (k + 1) (opening :: (inside ++ closing :: rest)) = skipGroup (k + 1) rest := by
  have hskip : skipGroup (0 + (k + 1 + 1)) (inside ++ closing :: rest) =
      skipGroup (k + 1 + 1) (closing :: rest) := skipGroup_of_balanced h (k + 1)
  rw [Nat.zero_add] at hskip
  rw [skipGroup_cons, if_pos (by rfl), hskip, skipGroup_cons, if_neg (by decide), if_pos (by rfl),
    if_neg (by omega), Nat.add_sub_cancel]

/-- What stands behind a group is spelled by what stands behind its spelling, unless the group is
not closed. -/
theorem Spelled.skipGroup (h : Spelled table tail tolerated ps qs) (k : ℕ) :
    Spelled table tail tolerated (skipGroup (k + 1) ps) (skipGroup (k + 1) qs) ∨
      tail ≠ [] ∧ Condition.skipGroup (k + 1) ps = [] := by
  induction h generalizing k with
  | nil =>
    rcases eq_or_ne tail [] with rfl | hne
    · exact .inl .nil
    · exact .inr ⟨hne, rfl⟩
  | @keep p ps qs _ _ _ h ih =>
    rw [skipGroup_cons, skipGroup_cons]
    by_cases hopen : p.kind = .lParen
    · simpa only [if_pos hopen] using ih (k + 1)
    by_cases hclose : p.kind = .rParen
    · simp only [if_neg hopen, if_pos hclose]
      cases k with
      | zero => exact .inl h
      | succ k => exact ih k
    · simpa only [if_neg hopen, if_neg hclose] using ih k
  | group hword _ _ hinside _ ih =>
    rw [skipGroup_cons, if_neg (ne_of_isWord hword rfl), if_neg (ne_of_isWord hword rfl),
      skipGroup_group hinside.closes]
    exact ih k

/-! ## Operators of spelled lists -/

theorem Spelled.behind? {kinds : List TokenKind} (h : Spelled table tail tolerated ps qs)
    (hkinds : ∀ kind ∈ kinds, kind.isWord = false ∧ kind ≠ .lParen ∧ kind ≠ .rParen)
    (hend : ps = [] → kinds = [] ∨ tail = []) :
    Option.Rel (Spelled table tail tolerated) (behind? kinds ps) (behind? kinds qs) := by
  induction kinds generalizing ps qs with
  | nil => exact .some h
  | cons kind kinds ih =>
    obtain ⟨hkind, hkinds⟩ := List.forall_mem_cons.1 hkinds
    cases h with
    | nil =>
      obtain rfl : tail = [] := (hend rfl).resolve_left (List.cons_ne_nil _ _)
      exact .none
    | keep _ _ hlast h =>
      rw [Condition.behind?, Condition.behind?]
      split
      · rename_i heq
        refine ih h hkinds fun hnil => .inr ((hlast hnil).resolve_right fun hclose => ?_)
        exact hkind.2.2 (heq.symm.trans hclose)
      · exact .none
    | group hword =>
      rw [Condition.behind?, Condition.behind?, if_neg (ne_of_isWord hword hkind.1),
        if_neg (show opening.kind ≠ kind from hkind.2.1.symm)]
      exact .none

theorem Spelled.bySymbol (h : Spelled table tail tolerated ps qs) (hend : ps = [] → tail = []) :
    Option.Rel (fun a b => a.1 = b.1 ∧ Spelled table tail tolerated a.2 b.2)
      (bySymbol symbols ps) (bySymbol symbols qs) := by
  induction symbols with
  | nil => exact .none
  | cons s symbols ih =>
    have hbehind := h.behind? s.plain fun hnil => .inr (hend hnil)
    simp only [Condition.bySymbol, List.findSome?_cons]
    generalize Condition.behind? s.kinds ps = first, Condition.behind? s.kinds qs = second
      at hbehind
    cases hbehind with
    | some h => exact .some ⟨rfl, h⟩
    | none => exact ih

/-- No operator stands where the readers are in step no more. -/
theorem Stuck.bySymbol (h : Stuck tail ps) : bySymbol symbols ps = none := by
  refine bySymbol_eq_none fun p hp => .inl ?_
  obtain ⟨rest, rfl⟩ := List.head?_eq_some_iff.1 hp
  exact h

theorem Stuck.chain (h : Stuck tail ps) (value : Int64) : ∀ value' rest,
      chain R (Condition.bySymbol symbols) value ps = some (value', rest) → Stuck tail rest := by
  rw [chain_of_none h.bySymbol]
  rintro _ _ ⟨⟩
  exact h

/-! ## Readers in step -/

/-- Readers are in step if their next parts are. -/
theorem Agree.bind {result result' : Option (Int64 × List Piece)}
    {next next' : Int64 × List Piece → Option (Int64 × List Piece)}
    (h : Agree table tail tolerated result result')
    (hreads : ∀ value ps qs, result = some (value, ps) → result' = some (value, qs) →
      Spelled table tail tolerated ps qs →
      Agree table tail tolerated (next (value, ps)) (next' (value, qs)))
    (hstuck : ∀ value rest, Stuck tail rest → ∀ value' rest',
      next (value, rest) = some (value', rest') → Stuck tail rest') :
    Agree table tail tolerated (result.bind next) (result'.bind next') := by
  cases h with
  | reads value h => exact hreads value _ _ rfl rfl h
  | fails => exact .fails
  | stuck htolerated h =>
    refine .stuck htolerated fun value' rest' hresult => ?_
    obtain ⟨⟨value, rest⟩, hresult, hnext⟩ := Option.bind_eq_some_iff.1 hresult
    exact hstuck value rest (h _ _ hresult) value' rest' hnext

section InStep
variable (hend : tail = [] ∨ tolerated)
include hend

/-- Where one list is at its end, the other one is, or the readers need not be in step. -/
theorem Spelled.eq_nil_or (h : Spelled table tail tolerated [] qs) :
    tail = [] ∧ qs = [] ∨ tolerated ∧ Stuck tail [] := by
  rcases eq_or_ne tail [] with rfl | hne
  · cases h
    exact .inl ⟨rfl, rfl⟩
  · exact .inr ⟨hend.resolve_left hne, hne⟩

/-- A reader that fails at the end is in step there with what fails. -/
theorem Spelled.agree_of_nil (h : Spelled table tail tolerated [] qs) (hR : R [] = none) :
    Agree table tail tolerated none (R qs) := by
  obtain ⟨-, rfl⟩ | ⟨htolerated, -⟩ := h.eq_nil_or hend
  · rw [hR]
    exact .fails
  · exact .stuck htolerated (by rintro _ _ ⟨⟩)

/-- A closing parenthesis stands in front of both lists, or of none. -/
theorem Spelled.closed (h : Spelled table tail tolerated ps qs) (value : Int64) :
    Agree table tail tolerated (if startsWith .rParen ps then some (value, ps.tail) else none)
      (if startsWith .rParen qs then some (value, qs.tail) else none) := by
  rcases ps with _ | ⟨p, ps⟩
  · exact h.agree_of_nil hend
      (R := fun qs => if startsWith .rParen qs then some (value, qs.tail) else none) rfl
  · cases h with
    | keep _ _ _ h =>
      simp only [startsWith_cons, decide_eq_true_eq, List.tail_cons]
      split
      · exact .reads value h
      · exact .fails
    | group hword =>
      have hne : p.kind ≠ .rParen := ne_of_isWord hword rfl
      simp only [startsWith_cons, decide_eq_true_eq, if_neg hne]
      exact .fails

/-- The operators in front of both lists are the same, or there is none in front of the first one
and the readers need not be in step. -/
theorem Spelled.bySymbol_or (h : Spelled table tail tolerated ps qs) :
    Option.Rel (fun a b => a.1 = b.1 ∧ Spelled table tail tolerated a.2 b.2)
      (Condition.bySymbol symbols ps) (Condition.bySymbol symbols qs) ∨
    tolerated ∧ Stuck tail ps := by
  rcases ps with _ | ⟨p, ps⟩
  · obtain ⟨htail, -⟩ | hstuck := h.eq_nil_or hend
    · exact .inl (h.bySymbol fun _ => htail)
    · exact .inr hstuck
  · exact .inl (h.bySymbol (by rintro ⟨⟩))

theorem InStep.chain (hR : Shortens R) (hR' : Shortens R')
    (h : InStep table tail tolerated n n' R R') (hps : ps.length < n) (hqs : qs.length < n')
    (hspelled : Spelled table tail tolerated ps qs) (value : Int64) :
    Agree table tail tolerated (chain R (bySymbol symbols) value ps)
      (chain R' (bySymbol symbols) value qs) := by
  induction hlen : ps.length using Nat.strongRecOn generalizing ps qs value with
  | _ len ih =>
    subst hlen
    obtain hops | ⟨htolerated, hstuck⟩ := hspelled.bySymbol_or hend
    · generalize hfirst : bySymbol symbols ps = first, hsecond : bySymbol symbols qs = second
        at hops
      cases hops with
      | none =>
        rw [chain_of_none hfirst, chain_of_none hsecond]
        exact .reads value hspelled
      | @some a b hops =>
        obtain ⟨f, behind⟩ := a
        obtain ⟨g, behind'⟩ := b
        obtain ⟨rfl, hbehind⟩ : f = g ∧ Spelled table tail tolerated behind behind' := hops
        have hlt := length_of_bySymbol hfirst
        have hlt' := length_of_bySymbol hsecond
        rw [chain_of_some hR hfirst hlt, chain_of_some hR' hsecond hlt']
        refine (h behind behind' (by omega) (by omega) hbehind).bind ?_ ?_
        · intro operand rest rest' hread hread' hrest
          have hshort := hR _ _ _ hread
          have hshort' := hR' _ _ _ hread'
          exact ih _ (by omega) (by omega) (by omega) hrest _ rfl
        · intro operand rest hrest
          exact hrest.chain _
    · exact .stuck htolerated (hstuck.chain value)

theorem InStep.level (hR : Shortens R) (hR' : Shortens R')
    (h : InStep table tail tolerated n n' R R') :
    InStep table tail tolerated n n' (level (bySymbol symbols) R)
      (level (bySymbol symbols) R') := by
  intro ps qs hps hqs hspelled
  rw [level_eq, level_eq]
  refine (h ps qs hps hqs hspelled).bind ?_ ?_
  · intro value rest rest' hread hread' hrest
    have hshort := hR _ _ _ hread
    have hshort' := hR' _ _ _ hread'
    exact h.chain hend hR hR' (by omega) (by omega) hrest value
  · intro value rest hrest
    exact hrest.chain value

theorem Spelled.definedTest (h : Spelled table tail tolerated ps qs)
    (htest : ps.take (operandLength ps) <+: qs) :
    Agree table tail tolerated (definedTest table ps) (definedTest table qs) := by
  rcases ps with _ | ⟨p, ps⟩
  · exact h.agree_of_nil hend rfl
  by_cases hparen : p.kind = .lParen
  · rw [operandLength, startsWith_cons, if_pos (by simpa using hparen)] at htest
    obtain ⟨qs, rfl⟩ := htest
    rcases ps with _ | ⟨name, ps⟩
    · simp only [List.take_succ_cons, List.take_nil, List.cons_append, List.nil_append] at h ⊢
      rw [definedTest_single hparen]
      exact h.of_cons.agree_of_nil hend (R := fun qs => Condition.definedTest table (p :: qs))
        (definedTest_single hparen)
    · simp only [List.take_succ_cons, List.take_zero, List.cons_append, List.nil_append] at h ⊢
      rw [definedTest_group hparen, definedTest_group hparen]
      exact h.of_cons.of_cons.closed hend _
  · rw [operandLength, startsWith_cons, if_neg (by simpa using hparen)] at htest
    obtain ⟨qs, rfl⟩ := htest
    simp only [List.take_succ_cons, List.take_zero, List.cons_append, List.nil_append] at h ⊢
    rw [definedTest_of_ne hparen, definedTest_of_ne hparen]
    exact .reads _ h.of_cons

/-- What stands behind a word makes a call of it in both lists, or in none, or in the second one
alone, where the readers need not be in step. -/
theorem Spelled.calls (h : Spelled table tail tolerated ps qs)
    (hcall : startsWith .lParen qs = true → startsWith .lParen ps = true ∨ tolerated)
    (value : Int64) :
    Agree table tail tolerated
      (if startsWith .lParen ps then some (0, Condition.skipGroup 0 ps) else some (value, ps))
      (if startsWith .lParen qs then some (0, Condition.skipGroup 0 qs) else some (value, qs)) := by
  cases hps : startsWith .lParen ps with
  | true =>
    obtain ⟨o, ps, rfl, hopen⟩ := exists_of_startsWith hps
    obtain ⟨qs, rfl, hrest⟩ := h.exists_of_not_isWord (by rw [hopen]; rfl)
    simp only [startsWith_cons, hopen, decide_true, if_true, skipGroup_cons, Nat.zero_add]
    obtain hskip | ⟨hne, hskip⟩ := hrest.skipGroup 0
    · exact .reads 0 hskip
    · refine .stuck (hend.resolve_left hne) ?_
      rw [hskip]
      rintro _ _ ⟨⟩
      exact hne
  | false =>
    cases hqs : startsWith .lParen qs with
    | true =>
      refine .stuck ((hcall hqs).resolve_left (by simp [hps])) ?_
      rintro _ _ ⟨⟩
      exact h.stuck_of_call hps hqs
    | false => exact .reads _ h

theorem InStep.primary (h : InStep table tail tolerated n n' (expression table n)
      (expression table n')) :
    InStep table tail tolerated (n + 1) (n' + 1) (primary table (expression table n))
      (primary table (expression table n')) := by
  intro ps qs hps hqs hspelled
  cases hspelled with
  | nil =>
    exact Spelled.nil.agree_of_nil hend rfl
  | @group p ps inside qs hword htext hcall hinside hspelled =>
    have hvalue := hinside.reads n' qs (by simpa using hqs)
    rw [primary_of_word hword htext, if_neg (by simp [hcall]), primary_of_group rfl, hvalue]
    exact .reads _ hspelled
  | @keep p ps qs hcall htest hlast hspelled =>
    rw [List.length_cons] at hps hqs
    by_cases hint : p.kind = .intNumber
    · rw [primary_of_int hint, primary_of_int hint]
      cases literal? p.text with
      | none => exact .fails
      | some value => exact .reads value hspelled
    by_cases hparen : p.kind = .lParen
    · rw [primary_of_group hparen, primary_of_group hparen]
      refine (h ps qs (by omega) (by omega) hspelled).bind ?_ ?_
      · intro value rest rest' _ _ hrest
        exact hrest.closed hend value
      · intro value rest hrest value' rest' hclose
        rcases rest with _ | ⟨p, rest⟩
        · cases hclose
        · have hne : p.kind ≠ .rParen := ne_of_isWord hrest rfl
          simp [hne] at hclose
    by_cases htext : p.text = "defined"
    · rw [primary_of_defined hint hparen htext, primary_of_defined hint hparen htext]
      exact hspelled.definedTest hend (htest htext)
    cases hword : p.kind.isWord with
    | false =>
      rw [primary_of_other hint hparen htext hword, primary_of_other hint hparen htext hword]
      exact .fails
    | true =>
      rw [primary_of_word hword htext, primary_of_word hword htext]
      exact hspelled.calls hend (hcall hword) _

theorem InStep.unary (h : InStep table tail tolerated n n' (expression table n)
      (expression table n')) :
    InStep table tail tolerated (n + 1) (n' + 1) (unary table (expression table n))
      (unary table (expression table n')) := by
  intro ps qs hps hqs hspelled
  have hprimary := InStep.primary hend h ps qs hps hqs hspelled
  induction ps generalizing qs with
  | nil => exact hspelled.agree_of_nil hend rfl
  | cons p ps ih =>
    cases hsign : sign? p.kind with
    | none =>
      have hsame : Condition.unary table (expression table n') qs =
          Condition.primary table (expression table n') qs := by
        cases hspelled with
        | keep => exact unary_of_none hsign
        | group => exact unary_of_none rfl
      rw [unary_of_none hsign, hsame]
      exact hprimary
    | some sign =>
      obtain ⟨qs, rfl, hrest⟩ := hspelled.exists_of_not_isWord (not_isWord_of_sign? hsign)
      rw [List.length_cons] at hps hqs
      rw [unary_of_some hsign, unary_of_some hsign]
      refine (ih qs (by omega) (by omega) hrest
        (InStep.primary hend h ps qs (by omega) (by omega) hrest)).bind ?_ ?_
      · exact fun value _ _ _ _ hrest => .reads _ hrest
      · rintro value rest hrest _ _ ⟨⟩
        exact hrest

theorem InStep.foldr_level {list : List (List OperatorSymbol)} (hR : Shortens R)
    (hR' : Shortens R') (h : InStep table tail tolerated n n' R R') :
    InStep table tail tolerated n n'
      (list.foldr (fun symbols => Condition.level (bySymbol symbols)) R)
      (list.foldr (fun symbols => Condition.level (bySymbol symbols)) R') := by
  induction list with
  | nil => exact h
  | cons symbols list ih => exact ih.level hend hR.foldr_level hR'.foldr_level

/-- Lists of which one spells the other are read in step. -/
theorem expression_inStep (n n' : ℕ) :
    InStep table tail tolerated n n' (expression table n) (expression table n') := by
  induction n generalizing n' with
  | zero => exact fun ps qs hps => absurd hps (Nat.not_lt_zero _)
  | succ n ih =>
    cases n' with
    | zero => exact fun ps qs _ hqs => absurd hqs (Nat.not_lt_zero _)
    | succ n' =>
      rw [expression_succ, expression_succ]
      exact ((ih n').unary hend).foldr_level hend
        (unary_shortens (expression_shortens n)) (unary_shortens (expression_shortens n'))

end InStep

/-! ## Groups -/

/-- What stands behind a closing parenthesis spells the end. -/
theorem spelled_append (inside rest : List Piece) :
    Spelled table rest True (inside ++ [closing]) (inside ++ closing :: rest) := by
  induction inside with
  | nil => exact .keep (by rintro ⟨⟩) (fun h => absurd h (by decide)) (fun _ => .inr rfl) .nil
  | cons p inside ih =>
    refine .keep (fun _ _ => .inr trivial) (fun _ => ?_) (by simp) ih
    exact List.IsPrefix.trans ( List.take_prefix _ _) (by simp)

/-- Reading the pieces of a group once tells what the group denotes: what stands behind the closing
parenthesis makes no difference. -/
theorem denotes_of_expression {inside : List Piece} {value : Int64}
    (hclose : balanced 0 inside = true)
    (h : expression table (inside.length + 2) (inside ++ [closing]) = some (value, [closing])) :
    Denotes table inside value := by
  refine ⟨fun depth rest hdepth => ?_, hclose⟩
  have hagree : Agree table rest True (expression table (inside.length + 2) (inside ++ [closing]))
      (expression table depth (inside ++ closing :: rest)) :=
    expression_inStep (.inr trivial) (inside.length + 2) depth (inside ++ [closing])
      (inside ++ closing :: rest) (by simp) hdepth (spelled_append inside rest)
  rw [h] at hagree
  generalize expression table depth (inside ++ closing :: rest) = result at hagree ⊢
  cases hagree with
  | reads _ hrest =>
    obtain ⟨_, rfl, hbehind⟩ := hrest.exists_of_not_isWord rfl
    cases hbehind
    rfl
  | stuck _ hstuck => cases hstuck _ _ rfl

/-- The truth of a list and of one that spells it, unless a word becomes a call. -/
theorem Spelled.evaluate? (h : Spelled table [] tolerated ps qs) :
    evaluate? table qs = evaluate? table ps ∨ Condition.evaluate? table ps = none ∧ tolerated := by
  have hagree := expression_inStep (.inl rfl) (ps.length + 1) (qs.length + 1) ps qs
    (Nat.lt_succ_self _) (Nat.lt_succ_self _) h
  rw [Condition.evaluate?, Condition.evaluate?]
  generalize expression table (ps.length + 1) ps = first,
    expression table (qs.length + 1) qs = second at hagree
  cases hagree with
  | @reads value ps qs h =>
    left
    cases h <;> rfl
  | fails => exact .inl rfl
  | stuck htolerated hstuck =>
    refine .inr ⟨?_, htolerated⟩
    rcases first with _ | ⟨value, _ | ⟨p, rest⟩⟩
    · rfl
    · exact absurd rfl (hstuck _ _ rfl)
    · rfl

end Bindery.Condition
