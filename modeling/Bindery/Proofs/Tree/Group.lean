import Bindery.Proofs.Tree.Progress

/-!
# Well-nested groups

Which tokens belong to a bracketed group is decided by their brackets alone: these are an opener,
well-nested brackets, and the closer of the opener. A group is taken with a stack of the closers
that are still awaited. What the stack awaits is one language for every stack, and one bracket
turns the language of a stack into that of another; so the scan follows the language step by step.

## Main definitions

* `Bracket.WellNested`, `Bracket.IsGroup`: the bracket language, over three kinds of brackets.
* `Bracket.BeginsGroup`: brackets that can go on to a group.
* `Bracket.Closes`: the brackets that close all that a stack awaits.

## Main statements

* `Bracket.closed_of_prefix`: where some prefix closes the stack, the scan takes the shortest one.
* `Parser.takeGroup_recognises`: the parser takes the shortest group, or records one fault.
-/
namespace Bindery
namespace Bracket

/-! ## The bracket language -/

/-- Brackets that are well nested: every opener has its closer, and what stands between the two is
well nested. -/
inductive WellNested : List TokenKind → Prop
  | nil : WellNested []
  | nest {opener : TokenKind} {inner behind : List TokenKind} (h : isOpener opener = true) :
      WellNested inner → WellNested behind →
        WellNested (opener :: inner ++ closer opener :: behind)

/-- Brackets that are a well-nested group, opened by the first of them. -/
def IsGroup (opener : TokenKind) (ks : List TokenKind) : Prop :=
  ∃ inner, WellNested inner ∧ ks = opener :: inner ++ [closer opener]

/-- Brackets that can go on to a group. -/
def BeginsGroup (opener : TokenKind) (ks : List TokenKind) : Prop :=
  ∃ more, IsGroup opener (ks ++ more)

/-- The brackets among some tokens. -/
def brackets (ts : List SourceToken) : List TokenKind :=
  (ts.map (·.kind)).filter fun k => isOpener k || isCloser k

theorem isCloser_of_isOpener {k : TokenKind} (h : isOpener k = true) : isCloser k = false := by
  cases k <;> first | rfl | cases h

theorem isOpener_of_isCloser {k : TokenKind} (h : isCloser k = true) : isOpener k = false := by
  cases k <;> first | rfl | cases h

theorem isTrivia_of_isOpener {k : TokenKind} (h : isOpener k = true) : k.isTrivia = false := by
  cases k <;> first | rfl | cases h

theorem isTrivia_of_isCloser {k : TokenKind} (h : isCloser k = true) : k.isTrivia = false := by
  cases k <;> first | rfl | cases h

theorem isOpener_closer (k : TokenKind) : isOpener (closer k) = false := by
  cases k <;> rfl

@[simp] theorem brackets_nil : brackets [] = [] := rfl

theorem brackets_cons_opener {t : SourceToken} (h : isOpener t.kind = true)
    (ts : List SourceToken) : brackets (t :: ts) = t.kind :: brackets ts := by
  simp [brackets, h]

theorem brackets_cons_closer {t : SourceToken} (h : isCloser t.kind = true)
    (ts : List SourceToken) : brackets (t :: ts) = t.kind :: brackets ts := by
  simp [brackets, h]

theorem brackets_cons_other {t : SourceToken} (ho : isOpener t.kind = false)
    (hc : isCloser t.kind = false) (ts : List SourceToken) : brackets (t :: ts) = brackets ts := by
  simp [brackets, ho, hc]

theorem brackets_cons_trivia {t : SourceToken} (h : t.kind.isTrivia = true)
    (ts : List SourceToken) : brackets (t :: ts) = brackets ts := by
  apply brackets_cons_other
  · by_contra ho
    simp [isTrivia_of_isOpener (by simpa using ho)] at h
  · by_contra hc
    simp [isTrivia_of_isCloser (by simpa using hc)] at h

/-! ## What a stack awaits -/

/-- The brackets close all that a stack of closers awaits, the last of it at their end. -/
def Closes : List TokenKind → List TokenKind → Prop
  | [], ks => ks = []
  | c :: stack, ks =>
    ∃ inner behind, WellNested inner ∧ Closes stack behind ∧ ks = inner ++ c :: behind

section Closes

variable {c k : TokenKind} {stack ks : List TokenKind}

theorem not_closes_nil : ¬Closes (c :: stack) [] := by
  rintro ⟨inner, behind, -, -, heq⟩
  simp at heq

/-- A stack is closed by its own closers. -/
theorem closes_self (stack : List TokenKind) : Closes stack stack := by
  induction stack with
  | nil => rfl
  | cons c stack ih => exact ⟨[], stack, .nil, ih, rfl⟩

/-- An opener adds its closer to what is awaited. -/
theorem closes_cons_opener (hk : isOpener k = true) (hc : isOpener c = false) :
    Closes (c :: stack) (k :: ks) ↔ Closes (closer k :: c :: stack) ks := by
  constructor
  · rintro ⟨inner, behind, hinner, hbehind, heq⟩
    cases hinner with
    | nil =>
      cases heq
      simp [hk] at hc
    | nest ho hfirst hsecond =>
      rename_i first second
      simp only [List.cons_append, List.append_assoc, List.cons.injEq] at heq
      obtain ⟨rfl, rfl⟩ := heq
      exact ⟨first, second ++ c :: behind, hfirst, ⟨second, behind, hsecond, hbehind, rfl⟩, rfl⟩
  · rintro ⟨first, rest, hfirst, ⟨second, behind, hsecond, hbehind, rfl⟩, rfl⟩
    exact ⟨k :: first ++ closer k :: second, behind, .nest hk hfirst hsecond, hbehind, by simp⟩

/-- A closer has to be the one that is awaited next. -/
theorem closes_cons_closer (hk : isCloser k = true) :
    Closes (c :: stack) (k :: ks) ↔ k = c ∧ Closes stack ks := by
  constructor
  · rintro ⟨inner, behind, hinner, hbehind, heq⟩
    cases hinner with
    | nil =>
      cases heq
      exact ⟨rfl, hbehind⟩
    | nest ho hfirst hsecond =>
      cases heq
      simp [isCloser_of_isOpener ho] at hk
  · rintro ⟨rfl, hclosed⟩
    exact ⟨[], ks, .nil, hclosed, rfl⟩

theorem not_isGroup_nil : ¬IsGroup k [] := by
  rintro ⟨inner, -, heq⟩
  simp at heq

/-- A group is an opener and what closes it. -/
theorem isGroup_cons : IsGroup k (k :: ks) ↔ Closes [closer k] ks := by
  constructor
  · rintro ⟨inner, hinner, heq⟩
    cases heq
    exact ⟨inner, [], hinner, rfl, rfl⟩
  · rintro ⟨inner, behind, hinner, rfl, rfl⟩
    exact ⟨inner, hinner, rfl⟩

end Closes

/-! ## The scan -/

section Scan

variable {c : TokenKind} {stack : List TokenKind} {t : SourceToken} {ts : List SourceToken}

theorem group_cons_trivia (ht : t.kind.isTrivia = true) :
    group stack (t :: ts) = ((group stack ts).1.consTrivia t, (group stack ts).2) := by
  simp [group, ht]

theorem group_cons_opener (ho : isOpener t.kind = true) :
    group stack (t :: ts) = ((group (closer t.kind :: stack) ts).1.cons t,
      (group (closer t.kind :: stack) ts).2) := by
  simp [group, isTrivia_of_isOpener ho, ho]

theorem group_cons_closer (hc : isCloser t.kind = true) :
    group (c :: stack) (t :: ts) =
      if c ≠ t.kind then (Cut.stop (t :: ts), .mismatched)
      else if stack = [] then (⟨[t], ts⟩, .closed)
      else ((group stack ts).1.cons t, (group stack ts).2) := by
  simp [group, isTrivia_of_isCloser hc, isOpener_of_isCloser hc, hc]

theorem group_cons_other (ht : t.kind.isTrivia = false) (ho : isOpener t.kind = false)
    (hc : isCloser t.kind = false) :
    group (c :: stack) (t :: ts) =
      ((group (c :: stack) ts).1.cons t, (group (c :: stack) ts).2) := by
  simp [group, ht, ho, hc]

/-- How a cut that ends in some way stands to a language of brackets. A closer that is refused is
the first one behind which the brackets cannot go on to the language. -/
def Fits (language : List TokenKind → Prop) (cut : Cut) : GroupEnd → Prop
  | .closed => language (brackets cut.run)
  | .mismatched => (∃ more, language (brackets cut.run ++ more)) ∧
      ∃ t, nthWord? 0 cut.rest = some t ∧ isCloser t.kind = true ∧
        ∀ more, ¬language (brackets cut.run ++ t.kind :: more)
  | .unterminated => (∃ more, language (brackets cut.run ++ more)) ∧
      nthWord? 0 cut.rest = none

/-- A scan of tokens recognises a language of brackets: its cut fits, and where some prefix is in
the language, the run is closed and no longer than that. -/
structure Recognises (language : List TokenKind → Prop) (ts : List SourceToken)
    (r : Cut × GroupEnd) : Prop where
  fits : Fits language r.1 r.2
  shortest : ∀ p, p <+: ts → language (brackets p) → r.2 = .closed ∧ r.1.run <+: p

/-- One more token goes in front of a cut: to the run, or to the rest where the run is empty and the
token is trivia. -/
structure Prepends (t : SourceToken) (cut outer : Cut) : Prop where
  run : brackets outer.run = brackets (t :: cut.run)
  run_prefix : ∀ p, cut.run <+: p → outer.run <+: t :: p
  rest : nthWord? 0 outer.rest = nthWord? 0 cut.rest

theorem prepends_cons (t : SourceToken) (cut : Cut) : Prepends t cut (cut.cons t) where
  run := rfl
  run_prefix _ h := List.cons_prefix_cons.2 ⟨rfl, h⟩
  rest := rfl

theorem prepends_consTrivia (ht : t.kind.isTrivia = true) (cut : Cut) :
    Prepends t cut (cut.consTrivia t) := by
  unfold Cut.consTrivia
  split
  · next hrun =>
    constructor
    · rw [hrun, brackets_cons_trivia ht]
    · intro p _
      exact List.nil_prefix
    · simp [nthWord?, ht]
  · exact prepends_cons t cut

/-- One more token in front, whose brackets turn what is recognised into another language. -/
theorem Recognises.cons {language inner : List TokenKind → Prop} {cut outer : Cut} {how : GroupEnd}
    (h : Recognises inner ts (cut, how)) (houter : Prepends t cut outer) (front : List TokenKind)
    (hfront : ∀ ts, brackets (t :: ts) = front ++ brackets ts)
    (hnil : ¬language []) (hinner : ∀ ks, language (front ++ ks) ↔ inner ks) :
    Recognises language (t :: ts) (outer, how) := by
  have hrun : brackets outer.run = front ++ brackets cut.run := houter.run.trans (hfront _)
  constructor
  · have hfits := h.fits
    cases how with
    | closed =>
      rw [Fits, hrun, hinner]
      exact hfits
    | mismatched =>
      rw [Fits, hrun, houter.rest]
      simp only [List.append_assoc, hinner]
      exact hfits
    | unterminated =>
      rw [Fits, hrun, houter.rest]
      simp only [List.append_assoc, hinner]
      exact hfits
  · intro p hp hclosed
    cases p with
    | nil => exact absurd hclosed hnil
    | cons u p =>
      obtain ⟨rfl, htail⟩ := List.cons_prefix_cons.1 hp
      rw [hfront, hinner] at hclosed
      obtain ⟨hend, hfront⟩ := h.shortest p htail hclosed
      exact ⟨hend, houter.run_prefix p hfront⟩

/-- A closer that is not the one awaited is refused. -/
theorem recognises_stop (hc : isCloser t.kind = true) (hne : c ≠ t.kind) :
    Recognises (Closes (c :: stack)) (t :: ts) (Cut.stop (t :: ts), .mismatched) := by
  have hrefused (more : List TokenKind) : ¬Closes (c :: stack) (t.kind :: more) := by
    intro hclosed
    exact hne ((closes_cons_closer hc).1 hclosed).1.symm
  constructor
  · refine ⟨⟨_, closes_self _⟩, t, ?_, hc, hrefused⟩
    simp [nthWord?, Cut.stop, isTrivia_of_isCloser hc]
  · intro p hp hclosed
    cases p with
    | nil => exact absurd hclosed not_closes_nil
    | cons u p =>
      obtain ⟨rfl, -⟩ := List.cons_prefix_cons.1 hp
      rw [brackets_cons_closer hc] at hclosed
      exact absurd hclosed (hrefused _)

/-- The last closer that is awaited ends the group. -/
theorem recognises_last (hc : isCloser t.kind = true) :
    Recognises (Closes [t.kind]) (t :: ts) (⟨[t], ts⟩, .closed) := by
  constructor
  · rw [Fits, brackets_cons_closer hc]
    exact closes_self _
  · intro p hp hclosed
    cases p with
    | nil => exact absurd hclosed not_closes_nil
    | cons u p =>
      obtain ⟨rfl, -⟩ := List.cons_prefix_cons.1 hp
      exact ⟨rfl, by simp⟩

/-- **The scan recognises** what its stack awaits. -/
theorem recognises_group (hstack : ∀ k ∈ c :: stack, isOpener k = false) :
    Recognises (Closes (c :: stack)) ts (group (c :: stack) ts) := by
  induction ts generalizing c stack with
  | nil =>
    refine ⟨⟨⟨_, closes_self _⟩, rfl⟩, ?_⟩
    intro p hp hclosed
    rw [List.prefix_nil.1 hp] at hclosed
    exact absurd hclosed not_closes_nil
  | cons t ts ih =>
    by_cases ht : t.kind.isTrivia = true
    · rw [group_cons_trivia ht]
      apply (ih hstack).cons (prepends_consTrivia ht _) []
      · exact brackets_cons_trivia ht
      · exact not_closes_nil
      · exact fun ks => Iff.rfl
    by_cases ho : isOpener t.kind = true
    · have hinner : ∀ k ∈ closer t.kind :: c :: stack, isOpener k = false := by
        simpa [isOpener_closer] using hstack
      rw [group_cons_opener ho]
      apply (ih hinner).cons (prepends_cons t _) [t.kind]
      · exact brackets_cons_opener ho
      · exact not_closes_nil
      · exact fun ks => closes_cons_opener ho (hstack c List.mem_cons_self)
    by_cases hc : isCloser t.kind = true
    · rw [group_cons_closer hc]
      split_ifs with hne hnil
      · exact recognises_stop hc hne
      · obtain rfl : c = t.kind := by simpa using hne
        subst hnil
        exact recognises_last hc
      · obtain rfl : c = t.kind := by simpa using hne
        obtain ⟨next, behind, rfl⟩ := List.exists_cons_of_ne_nil hnil
        apply (ih fun k hk => hstack k (.tail _ hk)).cons (prepends_cons t _) [t.kind]
        · exact brackets_cons_closer hc
        · exact not_closes_nil
        · exact fun ks => (closes_cons_closer hc).trans (and_iff_right rfl)
    · have ho' : isOpener t.kind = false := by simpa using ho
      have hc' : isCloser t.kind = false := by simpa using hc
      rw [group_cons_other (by simpa using ht) ho' hc']
      apply (ih hstack).cons (prepends_cons t _) []
      · exact brackets_cons_other ho' hc'
      · exact not_closes_nil
      · exact fun ks => Iff.rfl

/-- Without a stack, the scan recognises the groups of the opener that comes next. -/
theorem recognises_group_nil (hword : nthWord? 0 ts = some t) (ho : isOpener t.kind = true) :
    Recognises (IsGroup t.kind) ts (group [] ts) := by
  induction ts with
  | nil => simp [nthWord?] at hword
  | cons u ts ih =>
    by_cases hu : u.kind.isTrivia = true
    · rw [group_cons_trivia hu]
      apply (ih (by simpa [nthWord?, hu] using hword)).cons (prepends_consTrivia hu _) []
      · exact brackets_cons_trivia hu
      · exact not_isGroup_nil
      · exact fun ks => Iff.rfl
    · obtain rfl : u = t := by simpa [nthWord?, hu] using hword
      rw [group_cons_opener ho]
      apply (recognises_group (by simp [isOpener_closer])).cons (prepends_cons u _) [u.kind]
      · exact brackets_cons_opener ho
      · exact not_isGroup_nil
      · exact fun ks => isGroup_cons

end Scan
end Bracket

namespace Parser

open Bindery.Bracket

/-- A fault is recorded at the next word, in front of the others. -/
theorem fault_eq (f : SyntaxFault) (s : ParseState) : (fault f s).2 =
    { s with errors := ⟨f, (s.word?.map (·.origin)).or s.final⟩ :: s.errors } := rfl

/-- **Taking a group** from where an opener comes next. No fault is recorded exactly when some
prefix of the tokens that are left is a well-nested group of the opener, and then the shortest such
prefix is moved. Otherwise one fault is recorded, and the parser stops before the first closer
behind which there is no way on to a group, or where no word is left. -/
theorem takeGroup_recognises {s : ParseState} {t : SourceToken} (hnext : s.word? = some t)
    (hopens : isOpener t.kind = true) :
    ((takeGroup s).2.errors = s.errors ↔
      ∃ p, p <+: s.rest ∧ IsGroup t.kind (brackets p)) ∧
    ((∃ p, p <+: s.rest ∧ IsGroup t.kind (brackets p)) →
      ∃ cut : Cut, cut.run ++ cut.rest = s.rest ∧ IsGroup t.kind (brackets cut.run) ∧
        (∀ p, p <+: s.rest → IsGroup t.kind (brackets p) → cut.run.length ≤ p.length) ∧
        (takeGroup s).2 = s.move cut) ∧
    ((¬∃ p, p <+: s.rest ∧ IsGroup t.kind (brackets p)) →
      ∃ cut : Cut, ∃ e : SyntaxError, cut.run ++ cut.rest = s.rest ∧
        BeginsGroup t.kind (brackets cut.run) ∧
        (takeGroup s).2 = { s.move cut with errors := e :: s.errors } ∧
        ((∃ c, nthWord? 0 cut.rest = some c ∧ isCloser c.kind = true ∧
            ¬BeginsGroup t.kind (brackets cut.run ++ [c.kind]) ∧
            e = ⟨.mismatchedCloser, some c.origin⟩) ∨
          nthWord? 0 cut.rest = none ∧ e = ⟨.unterminatedGroup, s.final⟩)) := by
  have hcut := group_append [] s.rest
  have hrecognises := recognises_group_nil hnext hopens
  generalize hresult : group [] s.rest = result at hcut hrecognises
  obtain ⟨cut, how⟩ := result
  have htake : takeGroup s = closeGroup how (s.move cut) := by
    rw [takeGroup_apply, hresult]
  obtain ⟨hfits, hshortest⟩ := hrecognises
  rw [htake]
  cases how with
  | closed =>
    have hexists : ∃ p, p <+: s.rest ∧ IsGroup t.kind (brackets p) := ⟨cut.run, ⟨_, hcut⟩, hfits⟩
    refine ⟨iff_of_true rfl hexists, ?_, ?_⟩
    · intro _
      exact ⟨cut, hcut, hfits, fun p hp hgroup => (hshortest p hp hgroup).2.length_le, rfl⟩
    · intro hnone
      exact absurd hexists hnone
  | mismatched =>
    have hnone : ¬∃ p, p <+: s.rest ∧ IsGroup t.kind (brackets p) := by
      rintro ⟨p, hp, hgroup⟩
      cases (hshortest p hp hgroup).1
    obtain ⟨hbegins, c, hc, hcloser, hrefused⟩ := hfits
    refine ⟨iff_of_false ?_ hnone, fun h => absurd h hnone, ?_⟩
    · rw [closeGroup, fault_eq]
      exact List.cons_ne_self _ _
    intro _
    refine ⟨cut, _, hcut, hbegins, fault_eq _ _, .inl ⟨c, hc, hcloser, ?_, ?_⟩⟩
    · rintro ⟨more, hmore⟩
      rw [List.append_assoc] at hmore
      exact hrefused more hmore
    · simp [ParseState.move, ParseState.word?, hc]
  | unterminated =>
    have hnone : ¬∃ p, p <+: s.rest ∧ IsGroup t.kind (brackets p) := by
      rintro ⟨p, hp, hgroup⟩
      cases (hshortest p hp hgroup).1
    obtain ⟨hbegins, hend⟩ := hfits
    refine ⟨iff_of_false ?_ hnone, fun h => absurd h hnone, ?_⟩
    · rw [closeGroup, fault_eq]
      exact List.cons_ne_self _ _
    intro _
    refine ⟨cut, _, hcut, hbegins, fault_eq _ _, .inr ⟨hend, ?_⟩⟩
    simp [ParseState.move, ParseState.word?, hend]

/-- A group with a stray brace behind it, and one that a closer of another kind breaks off. -/
theorem takeGroup_recognises_pair :
    let token (k : TokenKind) : SourceToken := ⟨k, "", ⟨0, 0⟩⟩
    let whole : ParseState :=
      { rest := [.blank, .lParen, .lBracket, .rBracket, .comma, .rParen, .rBrace].map token }
    let broken : ParseState := { rest := [.lParen, .lBracket, .ident, .blank, .rParen].map token }
    whole.word? = some (token .lParen) ∧ broken.word? = some (token .lParen) ∧
      isOpener (token .lParen).kind = true ∧
      (∃ cut : Cut, cut.run ++ cut.rest = whole.rest ∧ IsGroup .lParen (brackets cut.run) ∧
        (takeGroup whole).2 = whole.move cut) ∧
      ∃ cut : Cut, ∃ e : SyntaxError, cut.run ++ cut.rest = broken.rest ∧
        BeginsGroup .lParen (brackets cut.run) ∧
        (takeGroup broken).2 = { broken.move cut with errors := [e] } := by
  intro token whole broken
  have hwhole : whole.word? = some (token .lParen) := rfl
  have hbroken : broken.word? = some (token .lParen) := rfl
  obtain ⟨hquiet, htaken, -⟩ := takeGroup_recognises hwhole rfl
  obtain ⟨hfault, -, hstopped⟩ := takeGroup_recognises hbroken rfl
  have hsilent : (takeGroup whole).2.errors = whole.errors := by decide
  have hloud : (takeGroup broken).2.errors ≠ broken.errors := by decide
  obtain ⟨cut, hcut, hgroup, -, hstate⟩ := htaken (hquiet.1 hsilent)
  obtain ⟨stop, e, hstop, hbegins, hfaulty, -⟩ := hstopped (fun h => hloud (hfault.2 h))
  exact ⟨hwhole, hbroken, rfl, ⟨cut, hcut, hgroup, hstate⟩, stop, e, hstop, hbegins, hfaulty⟩

end Parser
end Bindery
