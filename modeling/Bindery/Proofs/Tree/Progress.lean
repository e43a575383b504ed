import Bindery.Tree.Parser
import Mathlib.Data.List.DropRight

/-!
# A logic of progress for parsers

Whatever a parser does, it may only move tokens from the rest of the stream to the tree. This
module states that once, as a relation between states, and gives a rule for each way of
building a parser. A judgement `Keeps n P p Q` also says when a parser has *moved on*, for two
reasons. A loop ends only if each round that asks for another one has moved a token, and a
parser that nests may call itself only after it has moved a token.

The first argument bounds the number of tokens left. It is the budget of the nesting: what is
called behind a token that was moved has one less to spend.

## Main definitions

* `ParseState.LeadsTo`: the second state lies further along the same stream.
* `Parser.Keeps`: the judgement.
* `Parser.Sound`, `Parser.Eats`, `Parser.Steps`: its three common forms.
* `Parser.Looks`: a parser that only looks ahead.
-/
namespace Bindery

variable {α β : Type}

namespace ParseState

/-- The next token that carries meaning. -/
def word? (s : ParseState) : Option SourceToken := nthWord? 0 s.rest

/-- The second state lies further along the same stream: no leaf is lost, nothing is put back,
and nothing was cut off on the way. -/
structure LeadsTo (s t : ParseState) : Prop where
  tokens_eq : t.tokens = s.tokens
  rest_suffix : t.rest <:+ s.rest
  stalled_eq : t.stalled = s.stalled

namespace LeadsTo

theorem refl (s : ParseState) : s.LeadsTo s := ⟨rfl, List.suffix_refl _, rfl⟩

theorem trans {s t u : ParseState} (h : s.LeadsTo t) (h' : t.LeadsTo u) : s.LeadsTo u :=
  ⟨h'.tokens_eq.trans h.tokens_eq, h'.rest_suffix.trans h.rest_suffix,
    h'.stalled_eq.trans h.stalled_eq⟩

theorem length_le {s t : ParseState} (h : s.LeadsTo t) : t.rest.length ≤ s.rest.length :=
  h.rest_suffix.length_le

/-- Where nothing was moved, the same token comes next. -/
theorem word?_eq {s t : ParseState} (h : s.LeadsTo t) (hlen : t.rest.length = s.rest.length) :
    t.word? = s.word? := by
  rw [word?, word?, h.rest_suffix.eq_of_length hlen]

/-- Moving a run of tokens leads on. -/
theorem move (s : ParseState) (cut : Bracket.Cut) (h : cut.run ++ cut.rest = s.rest) :
    s.LeadsTo (s.move cut) :=
  ⟨s.tokens_move cut h, ⟨cut.run, h⟩, rfl⟩

end LeadsTo
end ParseState

/-! ## Looking at the next word -/

theorem nthWord?_zero (ts : List SourceToken) :
    nthWord? 0 ts = (ts.dropWhile (·.kind.isTrivia)).head? := by
  induction ts with
  | nil => simp [nthWord?]
  | cons t ts ih =>
      by_cases ht : t.kind.isTrivia = true
      · simp [nthWord?, ht, ih]
      · simp [nthWord?, ht]

/-- The kind of a word that may be missing, as lookahead sees it. -/
def wordKind (w : Option SourceToken) : TokenKind := (w.map (·.kind)).getD .error

theorem isSome_of_wordKind {w : Option SourceToken} (h : wordKind w ≠ .error) :
    w.isSome = true := by
  cases w with
  | none => exact absurd rfl h
  | some t => rfl

theorem isSome_of_mem_kinds {w : Option SourceToken} {ks : List TokenKind} (hks : .error ∉ ks)
    (h : wordKind w ∈ ks) : w.isSome = true := by
  refine isSome_of_wordKind ?_
  intro he
  rw [he] at h
  exact hks h

/-- There is a word, and a bracketed group may start with it. -/
def MayOpen (w : Option SourceToken) : Prop :=
  w.isSome = true ∧ Bracket.isCloser (wordKind w) = false

theorem mayOpen_of_wordKind {w : Option SourceToken} {k : TokenKind} (h : wordKind w = k)
    (hk : k ≠ .error) (hc : Bracket.isCloser k = false) : MayOpen w := by
  subst h
  exact ⟨isSome_of_wordKind hk, hc⟩

namespace Parser

/-! ## The judgement -/

/-- From every state with fewer than `n` tokens left whose next word passes `P`, the parser
leads on along the stream, and if its result passes `Q`, it has moved a token. -/
def Keeps (n : ℕ) (P : Option SourceToken → Prop) (p : Parser α) (Q : α → Prop) : Prop :=
  ∀ s : ParseState, s.rest.length < n → P s.word? →
    s.LeadsTo (p s).2 ∧ (Q (p s).1 → (p s).2.rest.length < s.rest.length)

/-- The parser leads on from anywhere. -/
abbrev Sound (n : ℕ) (p : Parser α) : Prop := Keeps n (fun _ => True) p (fun _ => False)

/-- The parser always moves a token where `P` holds. -/
abbrev Eats (n : ℕ) (P : Option SourceToken → Prop) (p : Parser α) : Prop :=
  Keeps n P p (fun _ => True)

/-- The parser moves a token when it asks for more. -/
abbrev Steps (n : ℕ) (p : Parser Bool) : Prop := Keeps n (fun _ => True) p (· = true)

/-- The parser changes nothing, and its result says something about the next word. -/
def Looks (p : Parser α) (R : α → Option SourceToken → Prop) : Prop :=
  ∀ s : ParseState, (p s).2 = s ∧ R (p s).1 s.word?

variable {n m : ℕ} {P P' : Option SourceToken → Prop} {p q : Parser α} {f : α → Parser β}
  {Q Q' : α → Prop} {R : β → Prop}

theorem bind_apply (p : Parser α) (f : α → Parser β) (s : ParseState) :
    (p >>= f) s = f (p s).1 (p s).2 := rfl

theorem pure_apply (a : α) (s : ParseState) : (pure a : Parser α) s = (a, s) := rfl

/-! ## Rules -/

namespace Keeps

theorem mono (h : Keeps n P p Q) (hn : m ≤ n) (hP : ∀ w, P' w → P w) (hQ : ∀ a, Q' a → Q a) :
    Keeps m P' p Q' := by
  intro s hs hw
  have hk := h s (by omega) (hP _ hw)
  exact ⟨hk.1, fun ha => hk.2 (hQ _ ha)⟩

/-- A smaller budget. -/
theorem below (h : Keeps n P p Q) (hn : m ≤ n) : Keeps m P p Q :=
  h.mono hn (fun _ hw => hw) (fun _ ha => ha)

/-- More is known about the next word. -/
theorem given (h : Keeps n P p Q) (hP : ∀ w, P' w → P w) : Keeps n P' p Q :=
  h.mono (Nat.le_refl n) hP (fun _ ha => ha)

/-- What leads on from anywhere does so where the next word passes `P`. -/
theorem anywhere (h : Keeps n (fun _ => True) p Q) : Keeps n P p Q :=
  h.given (fun _ _ => trivial)

theorem sound (h : Keeps n (fun _ => True) p Q) : Sound n p :=
  h.mono (Nat.le_refl n) (fun _ hw => hw) (fun _ hf => hf.elim)

/-- A result that does not claim progress. -/
theorem pure {a : α} (ha : ¬ Q a) : Keeps n P (Pure.pure a : Parser α) Q := by
  intro s _ _
  rw [pure_apply]
  exact ⟨.refl s, fun h => absurd h ha⟩

/-- The rule of sequencing. If the first parser has moved a token, the second one has a smaller
budget and need not move another one. -/
theorem bind (hp : Keeps n P p Q) (hmoved : ∀ a, Q a → Sound (n - 1) (f a))
    (hrest : ∀ a, ¬ Q a → Keeps n (fun _ => True) (f a) R) : Keeps n P (p >>= f) R := by
  intro s hs hw
  rw [bind_apply]
  obtain ⟨hlead, hmove⟩ := hp s hs hw
  have hle := hlead.length_le
  by_cases hq : Q (p s).1
  · have hlt := hmove hq
    have hnext := (hmoved _ hq) (p s).2 (by omega) trivial
    have hle' := hnext.1.length_le
    exact ⟨hlead.trans hnext.1, fun _ => by omega⟩
  · have hnext := (hrest _ hq) (p s).2 (by omega) trivial
    exact ⟨hlead.trans hnext.1, fun hr => by have := hnext.2 hr; omega⟩

/-- Behind a parser that only leads on. -/
theorem next (hp : Keeps n P p (fun _ => False))
    (hf : ∀ a, Keeps n (fun _ => True) (f a) R) : Keeps n P (p >>= f) R :=
  hp.bind (fun _ h => h.elim) (fun a _ => hf a)

/-- Behind a parser that has moved a token. -/
theorem behind (hp : Eats n P p) (hf : ∀ a, Sound (n - 1) (f a)) : Keeps n P (p >>= f) R :=
  hp.bind (fun a _ => hf a) (fun _ h => absurd trivial h)

theorem ite {c : Prop} [Decidable c] (hp : c → Keeps n P p Q) (hq : ¬ c → Keeps n P q Q) :
    Keeps n P (if c then p else q) Q := by
  by_cases hc : c
  · rw [if_pos hc]
    exact hp hc
  · rw [if_neg hc]
    exact hq hc

/-- A step that is left out unless a condition holds, and what follows in either case. -/
theorem optional {c : Prop} [Decidable c] {p : Parser Unit} {k : Unit → Parser β}
    (hp : Sound n p) (hk : Keeps n (fun _ => True) (k ()) R) :
    Keeps n P (if c then p >>= k else k ()) R :=
  ite (fun _ => (hp.next fun _ => hk).anywhere) (fun _ => hk.anywhere)

end Keeps

namespace Looks

variable {S : α → Option SourceToken → Prop}

/-- Behind a look ahead, its result is known to be true of the next word. -/
theorem bind (hl : Looks p S) (hf : ∀ a, Keeps n (fun w => P w ∧ S a w) (f a) R) :
    Keeps n P (p >>= f) R := by
  intro s hs hw
  obtain ⟨hsame, hres⟩ := hl s
  have hk := hf (p s).1 s hs ⟨hw, hres⟩
  rw [bind_apply, hsame]
  exact hk

/-- Behind a look ahead whose result does not matter for progress. -/
theorem next (hl : Looks p S) (hf : ∀ a, Keeps n P (f a) R) : Keeps n P (p >>= f) R :=
  hl.bind fun a => (hf a).given (fun _ h => h.1)

/-- A choice by a look ahead. -/
theorem ite {look : Parser Bool} {S : Bool → Option SourceToken → Prop} (hl : Looks look S)
    (hp : Keeps n (S true) p Q) (hq : Keeps n (fun _ => True) q Q) :
    Keeps n P (look >>= fun b => if b = true then p else q) Q :=
  hl.bind fun _ => .ite (fun hb => hp.given fun _ hw => hb ▸ hw.2) (fun _ => hq.anywhere)

/-- A step that is taken after a look ahead only, and what follows in either case. -/
theorem optional {look : Parser Bool} {S : Bool → Option SourceToken → Prop} {p : Parser Unit}
    {k : Unit → Parser β} (hl : Looks look S) (hp : Sound n p)
    (hk : Keeps n (fun _ => True) (k ()) R) :
    Keeps n P (look >>= fun b => if b = true then p >>= k else k ()) R :=
  hl.next fun _ => .optional hp hk

end Looks

/-! ## Lookahead -/

theorem looks_get : Looks get (fun _ _ => True) := fun _ => ⟨rfl, trivial⟩

theorem looks_kindAhead (i : ℕ) : Looks (kindAhead i) (fun _ _ => True) :=
  fun _ => ⟨rfl, trivial⟩

theorem looks_nextKind : Looks nextKind (fun k w => wordKind w = k) := fun _ => ⟨rfl, rfl⟩

theorem looks_nextText : Looks nextText (fun _ _ => True) := fun _ => ⟨rfl, trivial⟩

theorem looks_sees (k : TokenKind) : Looks (sees k) (fun b w => b = true → wordKind w = k) :=
  fun _ => ⟨rfl, of_decide_eq_true⟩

theorem looks_seesAny (ks : List TokenKind) :
    Looks (seesAny ks) (fun b w => b = true → wordKind w ∈ ks) :=
  fun _ => ⟨rfl, List.contains_iff_mem.mp⟩

theorem looks_seesPair (k k' : TokenKind) :
    Looks (seesPair k k') (fun b w => b = true → wordKind w = k) :=
  fun _ => ⟨rfl, fun h => of_decide_eq_true (Bool.and_eq_true_iff.mp h).1⟩

theorem looks_seesWord (words : List String) :
    Looks (seesWord words) (fun b w => b = true → wordKind w = .ident) :=
  fun _ => ⟨rfl, fun h => of_decide_eq_true (Bool.and_eq_true_iff.mp h).1⟩

theorem looks_atEnd : Looks atEnd (fun b w => b = false → w.isSome = true) := by
  intro s
  refine ⟨rfl, ?_⟩
  intro h
  change s.word?.isNone = false at h
  rw [← Option.not_isNone, h]
  rfl

theorem looks_wordsAhead : Looks wordsAhead (fun _ _ => True) := fun _ => ⟨rfl, trivial⟩

theorem looks_remaining : Looks remaining (fun _ _ => True) := fun _ => ⟨rfl, trivial⟩

/-! ## Moving tokens -/

theorem passTrivia_apply (s : ParseState) :
    (passTrivia s).2 =
      s.move ⟨s.rest.takeWhile (·.kind.isTrivia), s.rest.dropWhile (·.kind.isTrivia)⟩ := rfl

theorem leadsTo_passTrivia (s : ParseState) : s.LeadsTo (passTrivia s).2 := by
  rw [passTrivia_apply]
  exact .move s _ List.takeWhile_append_dropWhile

/-- Behind the trivia comes the same word. -/
theorem word?_passTrivia (s : ParseState) : (passTrivia s).2.word? = s.word? := by
  rw [passTrivia_apply, ParseState.word?, ParseState.word?, nthWord?_zero, nthWord?_zero]
  change ((s.rest.dropWhile (·.kind.isTrivia)).dropWhile (·.kind.isTrivia)).head? = _
  rw [List.dropWhile_idempotent]

/-- The trivia ahead makes no difference to what may be said about the next word. -/
theorem Keeps.behindTrivia {k : Unit → Parser α} (h : Keeps n P (k ()) Q) :
    Keeps n P (passTrivia >>= k) Q := by
  intro s hs hw
  change s.LeadsTo (k () (passTrivia s).2).2 ∧ _
  have hlead := leadsTo_passTrivia s
  have hle := hlead.length_le
  have hk := h (passTrivia s).2 (by omega) (by rw [word?_passTrivia]; exact hw)
  exact ⟨hlead.trans hk.1, fun hq => Nat.lt_of_lt_of_le (hk.2 hq) hle⟩

theorem leadsTo_moveOne (s : ParseState) : s.LeadsTo (moveOne s).2 :=
  .move s _ (List.take_append_drop 1 s.rest)

/-- A word is a token, so it can be moved. -/
theorem eats_moveOne : Eats n (fun w => w.isSome = true) moveOne := by
  intro s _ hw
  refine ⟨leadsTo_moveOne s, fun _ => ?_⟩
  change (s.rest.drop 1).length < s.rest.length
  have hne : s.rest ≠ [] := by
    intro hnil
    rw [ParseState.word?, hnil] at hw
    simp [nthWord?] at hw
  have hpos := List.length_pos_iff.mpr hne
  rw [List.length_drop]
  omega

theorem eats_advance : Eats n (fun w => w.isSome = true) advance :=
  .behindTrivia eats_moveOne

theorem sound_advance : Sound n advance :=
  .behindTrivia fun s _ _ => ⟨leadsTo_moveOne s, False.elim⟩

theorem accept_apply (k : TokenKind) (s : ParseState) :
    accept k s = if (sees k s).1 = true then (true, (advance s).2) else (false, s) := by
  change (if (sees k s).1 = true then (do advance; pure true : Parser Bool) else pure false) s = _
  split <;> rfl

/-- What follows an accepted token stands behind a token that was moved; what follows a token
that was not accepted stands where it was. -/
theorem Keeps.accept {k : TokenKind} {f : Bool → Parser β} (hk : k ≠ .error)
    (htrue : Sound (n - 1) (f true)) (hfalse : Keeps n P (f false) R) :
    Keeps n P (Parser.accept k >>= f) R := by
  intro s hs hw
  rw [bind_apply, accept_apply]
  by_cases hsees : (sees k s).1 = true
  · have hword : s.word?.isSome = true :=
      isSome_of_wordKind (by rw [(looks_sees k s).2 hsees]; exact hk)
    obtain ⟨hlead, hmove⟩ := eats_advance s (Nat.lt_succ_self _) hword
    have hlt := hmove trivial
    have hnext := htrue (advance s).2 (by omega) trivial
    rw [if_pos hsees]
    exact ⟨hlead.trans hnext.1, fun _ => Nat.lt_of_le_of_lt hnext.1.length_le hlt⟩
  · rw [if_neg hsees]
    exact hfalse s hs hw

/-- A choice by whether a token is accepted. -/
theorem Keeps.accepted {k : TokenKind} (hk : k ≠ .error) (hp : Sound (n - 1) p)
    (hq : Keeps n P q Q) :
    Keeps n P (Parser.accept k >>= fun b => if b = true then p else q) Q :=
  .accept hk hp hq

/-- A token that is accepted was moved. The kind `error` is left out, since lookahead sees it
past the end as well. -/
theorem steps_accept {k : TokenKind} (hk : k ≠ .error) : Steps n (accept k) :=
  Keeps.accept (f := pure) hk (.pure id) (.pure (by simp))

theorem sound_accept {k : TokenKind} (hk : k ≠ .error) : Sound n (accept k) :=
  (steps_accept hk).sound

/-! ## Faults -/

theorem sound_fault (f : SyntaxFault) : Sound n (fault f) :=
  fun _ _ _ => ⟨⟨rfl, List.suffix_refl _, rfl⟩, False.elim⟩

theorem sound_missing (what : String) : Sound n (missing what) := sound_fault _

theorem sound_expect {k : TokenKind} (hk : k ≠ .error) (what : String) :
    Sound n (expect k what) :=
  (sound_accept hk).next fun _ =>
    .ite (fun _ => .pure id) (fun _ => (sound_missing what).next fun _ => .pure id)

/-! ## Runs -/

/-- A group that starts with something other than a closer takes at least that. -/
theorem length_group_rest_lt (ts : List SourceToken) (h : MayOpen (nthWord? 0 ts)) :
    (Bracket.group [] ts).1.rest.length < ts.length := by
  induction ts with
  | nil => simp [MayOpen, nthWord?] at h
  | cons t ts ih =>
      by_cases ht : t.kind.isTrivia = true
      · have hlt := ih (by simpa [nthWord?, ht] using h)
        simp only [Bracket.group, ht, if_true, Bracket.Cut.consTrivia]
        split
        · simp only [List.length_cons]
          omega
        · simp only [Bracket.Cut.cons, List.length_cons]
          omega
      · have hc : Bracket.isCloser t.kind = false := by
          simpa [MayOpen, nthWord?, ht, wordKind] using h
        by_cases ho : Bracket.isOpener t.kind = true
        · have happ := Bracket.group_append [Bracket.closer t.kind] ts
          have hlen := congrArg List.length happ
          simp only [List.length_append] at hlen
          simp only [Bracket.group, ht, ho, if_true, Bracket.Cut.cons, List.length_cons,
            Bool.false_eq_true, if_false]
          omega
        · simp [Bracket.group, ht, ho, hc]

/-- What `takeGroup` does with the group that was cut off. -/
def closeGroup : Bracket.GroupEnd → Parser Unit
  | .closed => pure ()
  | .mismatched => fault .mismatchedCloser
  | .unterminated => fault .unterminatedGroup

theorem takeGroup_apply (s : ParseState) :
    takeGroup s =
      closeGroup (Bracket.group [] s.rest).2 (s.move (Bracket.group [] s.rest).1) := rfl

theorem leadsTo_closeGroup (how : Bracket.GroupEnd) (s : ParseState) :
    s.LeadsTo (closeGroup how s).2 := by
  cases how with
  | closed => exact .refl s
  | mismatched => exact ⟨rfl, List.suffix_refl _, rfl⟩
  | unterminated => exact ⟨rfl, List.suffix_refl _, rfl⟩

theorem leadsTo_takeGroup (s : ParseState) :
    (s.move (Bracket.group [] s.rest).1).LeadsTo (takeGroup s).2 ∧ s.LeadsTo (takeGroup s).2 := by
  have hmove : s.LeadsTo (s.move (Bracket.group [] s.rest).1) :=
    .move s _ (Bracket.group_append [] s.rest)
  have hclose := leadsTo_closeGroup (Bracket.group [] s.rest).2
    (s.move (Bracket.group [] s.rest).1)
  rw [takeGroup_apply]
  exact ⟨hclose, hmove.trans hclose⟩

theorem eats_takeGroup : Eats n MayOpen takeGroup := by
  intro s _ hw
  obtain ⟨hclose, hlead⟩ := leadsTo_takeGroup s
  have hlt : (s.move (Bracket.group [] s.rest).1).rest.length < s.rest.length :=
    length_group_rest_lt s.rest hw
  exact ⟨hlead, fun _ => Nat.lt_of_le_of_lt hclose.length_le hlt⟩

theorem sound_takeGroup : Sound n takeGroup :=
  fun s _ _ => ⟨(leadsTo_takeGroup s).2, False.elim⟩

theorem sound_takeUpTo (stops : List TokenKind) (angles : Bool) :
    Sound n (takeUpTo stops angles) :=
  fun s _ _ => ⟨.move s _ (Bracket.upTo_append stops angles s.last [] s.rest), False.elim⟩

theorem sound_takeAngles : Sound n takeAngles :=
  sound_advance.next fun _ => (sound_takeUpTo _ _).next fun _ =>
    (sound_expect (by decide) _).next fun _ => .pure id

/-! ## Nodes -/

/-- The leaves of the children are counted where the children go. -/
theorem leadsTo_collect (p : Parser α) (s : ParseState)
    (h : ParseState.LeadsTo { s with built := [] } (p { s with built := [] }).2)
    (trees : List Tree)
    (htrees : Tree.leavesOf trees = Tree.leavesOf (p { s with built := [] }).2.built.reverse) :
    s.LeadsTo (emit trees (collect p s).2).2 := by
  refine ⟨?_, h.rest_suffix, h.stalled_eq⟩
  have htokens := h.tokens_eq
  simp only [ParseState.tokens, List.reverse_nil, Tree.leavesOf_nil, List.nil_append] at htokens
  change Tree.leavesOf (trees.reverse ++ s.built).reverse ++
      (p { s with built := [] }).2.rest = Tree.leavesOf s.built.reverse ++ s.rest
  rw [List.reverse_append, List.reverse_reverse, Tree.leavesOf_append, htrees, List.append_assoc,
    htokens]

/-- Building a node takes what its parser takes. -/
theorem Keeps.nodeHere (kind : NodeKind) (h : Keeps n P p Q) :
    Keeps n P (Parser.nodeHere kind p) Q := by
  intro s hs hw
  have hp := h { s with built := [] } hs hw
  refine ⟨leadsTo_collect p s hp.1 [.node kind _] ?_, hp.2⟩
  simp

theorem Keeps.node (kind : NodeKind) (h : Keeps n P p Q) : Keeps n P (Parser.node kind p) Q :=
  .behindTrivia (h.nodeHere kind)

/-! ## Repetition -/

/-- **A loop comes to its end by itself**: where every round that asks for another one has
moved a token, no loop is cut off. -/
theorem leadsTo_loopFrom {step : Parser Bool} (h : Steps n step) :
    ∀ s : ParseState, s.rest.length < n → s.LeadsTo (loopFrom step s) := by
  intro s
  induction hl : s.rest.length using Nat.strong_induction_on generalizing s with
  | _ l ih =>
      intro hs
      obtain ⟨hlead, hmove⟩ := h s (by omega) trivial
      unfold loopFrom
      by_cases hmore : (step s).1 = true
      · have hlt := hmove hmore
        simp only [hmore, if_true, hlt, dif_pos]
        exact hlead.trans (ih _ (by omega) _ rfl (by omega))
      · simp only [hmore, Bool.false_eq_true, if_false]
        exact hlead

theorem Keeps.loop {step : Parser Bool} (h : Steps n step) : Sound n (Parser.loop step) :=
  fun s hs _ => ⟨leadsTo_loopFrom h s hs, False.elim⟩

/-- A loop ends with a round that asks for no other one. -/
theorem loopFrom_exit {step : Parser Bool} (h : Steps n step) :
    ∀ s : ParseState, s.rest.length < n →
      ∃ t : ParseState, (step t).1 = false ∧ loopFrom step s = (step t).2 := by
  intro s
  induction hl : s.rest.length using Nat.strong_induction_on generalizing s with
  | _ l ih =>
      intro hs
      obtain ⟨_, hmove⟩ := h s (by omega) trivial
      unfold loopFrom
      by_cases hmore : (step s).1 = true
      · have hlt := hmove hmore
        simp only [hmore, if_true, hlt, dif_pos]
        exact ih _ (by omega) _ rfl (by omega)
      · simp only [hmore, Bool.false_eq_true, if_false]
        exact ⟨s, by simpa using hmore, rfl⟩

/-- Moving tokens while a test holds that is only true of words. -/
theorem Keeps.advanceWhile {test : Parser Bool} {S : Bool → Option SourceToken → Prop}
    (hl : Looks test S) (hS : ∀ w, S true w → w.isSome = true) :
    Sound n (Parser.advanceWhile test) := by
  refine .loop (hl.bind fun b => .ite ?_ ?_)
  · intro hb
    refine .behind (eats_advance.given ?_) (fun _ => .pure id)
    intro w hw
    exact hS w (hb ▸ hw.2)
  · intro _
    exact .pure (by simp)

theorem sound_advanceWhile_seesAny {ks : List TokenKind} (hks : .error ∉ ks) :
    Sound n (Parser.advanceWhile (seesAny ks)) :=
  .advanceWhile (looks_seesAny ks) fun _ hw => isSome_of_mem_kinds hks (hw rfl)

/-- A parser that nests gets a bound that it cannot use up. -/
theorem Keeps.nested {p : ℕ → Parser Unit} {Q : Unit → Prop}
    (h : ∀ m ≤ n, Keeps m P (p m) Q) : Keeps n P (Parser.nested p) Q := by
  intro s hs hw
  exact h (s.rest.length + 1) (by omega) s (by omega) hw

/-- A second parser stands in when the first one has moved nothing. -/
theorem Eats.orElse {k : Unit → Parser β} {q : Parser Unit}
    (hp : Sound n p) (hq : Eats n (fun w => w.isSome = true) q) (hk : Sound n (k ())) :
    Eats n (fun w => w.isSome = true) (do
      let start ← remaining
      let _ ← p
      let now ← remaining
      if now = start then q >>= k else k ()) := by
  intro s hs hw
  obtain ⟨hlead, -⟩ := hp s hs trivial
  have hle := hlead.length_le
  change s.LeadsTo ((if (p s).2.rest.length = s.rest.length then q >>= k else k ()) (p s).2).2 ∧
    (True → ((if (p s).2.rest.length = s.rest.length then q >>= k else k ()) (p s).2).2.rest.length
      < s.rest.length)
  by_cases hsame : (p s).2.rest.length = s.rest.length
  · have hthen : Eats n (fun w => w.isSome = true) (q >>= k) :=
      hq.behind fun _ => hk.below (Nat.sub_le n 1)
    have hnext := hthen (p s).2 (by omega) (by rw [hlead.word?_eq hsame]; exact hw)
    rw [if_pos hsame]
    exact ⟨hlead.trans hnext.1, fun h => by have := hnext.2 h; omega⟩
  · have hnext := hk (p s).2 (by omega) trivial
    have hle' := hnext.1.length_le
    rw [if_neg hsame]
    exact ⟨hlead.trans hnext.1, fun _ => by omega⟩

/-- Giving up on a statement gives up on at least one token. -/
theorem eats_recover (f : SyntaxFault) : Eats n (fun w => w.isSome = true) (recover f) := by
  intro s hs hw
  have herror : Eats n (fun w => w.isSome = true) (do
      let start ← remaining
      let _ ← (do takeUpTo [.semicolon, .rBrace] false; accept .semicolon)
      let now ← remaining
      if now = start then advance >>= pure else pure ()) :=
    .orElse ((sound_takeUpTo _ _).next fun _ => sound_accept (by decide)) eats_advance (.pure id)
  have hfault : s.LeadsTo (fault f s).2 := ⟨rfl, List.suffix_refl _, rfl⟩
  have hnext := (herror.node .error) (fault f s).2 hs hw
  exact ⟨hfault.trans hnext.1, hnext.2⟩

end Parser
end Bindery
