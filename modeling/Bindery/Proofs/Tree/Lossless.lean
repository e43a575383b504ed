import Bindery.Proofs.Tree.Members
import Bindery.Tree.Declarations

/-!
# Parsing loses nothing and comes to an end

Declarations nest, and a nested declaration is read only behind a token that was moved. So the
depth that a parser is given is never used up, and the judgement of progress goes through by
induction on that depth. At the top the loop over declarations stops at the end of the stream
only, and what is left is trivia.

The main statement, `parse_lossless`, is that a stream of tokens of any kinds is parsed without
anything being cut off, into one root whose leaves are the tokens of the stream.
-/
namespace Bindery.Grammar
open Bindery.Parser

variable {n : ℕ} {inner : Parser Unit}

/-! ## Skipped constructs and aliases -/

theorem sound_passStatement : Sound n passStatement :=
  ((sound_takeUpTo _ _).next fun _ => (sound_expect (by decide) _).next fun _ => .pure id).node _

theorem sound_passDeclaration : Sound n passDeclaration := by
  refine Keeps.node _ (.loop (looks_atEnd.bind fun b => .ite (fun _ => steps_done) ?_))
  intro hb
  refine looks_nextKind.bind fun k => ?_
  split
  · exact (sound_advance.next fun _ => steps_done).anywhere
  · exact (sound_takeGroup.next fun _ => (sound_accept (by decide)).next fun _ =>
      steps_done).anywhere
  · exact steps_done
  · exact steps_done
  · exact steps_done
  · exact steps_takeGroup fun w hw => mayOpen_of_wordKind hw.2 (by decide) (by decide)
  · exact steps_takeGroup fun w hw => mayOpen_of_wordKind hw.2 (by decide) (by decide)
  · exact steps_advance fun w hw => hw.1.2 (by simpa using hb)

theorem sound_usingDeclaration : Sound n usingDeclaration := by
  have hend : Sound n (do let _ ← expect .semicolon "`;`" : Parser Unit) :=
    (sound_expect (by decide) _).next fun _ => .pure id
  refine (looks_kindAhead 1).next fun _ => (looks_kindAhead 2).next fun _ => .ite ?_ ?_
  · intro _
    refine Keeps.node _ (sound_advance.next fun _ => sound_simpleName.next fun _ =>
      sound_advance.next fun _ => (sound_expectType _).next fun _ => ?_)
    exact (looks_sees .semicolon).next fun _ =>
      .ite (fun _ => hend) (fun _ => (sound_skippedRun _ _).next fun _ => hend)
  · intro _
    exact ((sound_takeUpTo _ _).next fun _ => hend).node _

theorem sound_typedef : Sound n typedef := by
  have hend : Sound n (do
      takeUpTo [.semicolon] false
      let _ ← expect .semicolon "`;` after typedef" : Parser Unit) :=
    (sound_takeUpTo _ _).next fun _ => (sound_expect (by decide) _).next fun _ => .pure id
  refine looks_wordsAhead.next fun _ => .ite (fun _ => sound_passStatement) ?_
  intro _
  refine Keeps.node _ (sound_advance.next fun _ => (sound_expectType _).next fun _ => ?_)
  exact (looks_sees .ident).next fun _ =>
    .ite (fun _ => sound_simpleName.next fun _ => hend)
      (fun _ => (sound_missing _).next fun _ => hend)

/-! ## Template parameters -/

/-- The list of a template template parameter is read behind the word `template`. -/
theorem sound_templateParamLead (h : Sound n inner) :
    Sound (n + 1) (templateParamLead inner) := by
  refine looks_nextKind.bind fun k => ?_
  split
  · exact sound_advance.anywhere
  · exact sound_advance.anywhere
  · refine .behind (eats_advance.given fun w hw => isSome_of_wordKind (by rw [hw.2]; decide))
      fun _ => h.next fun _ => ?_
    exact (looks_seesAny _).next fun _ => .ite (fun _ => sound_advance) (fun _ => .pure id)
  · exact (sound_expectType _).anywhere

theorem sound_templateParam (h : Sound n inner) : Sound (n + 1) (templateParam inner) := by
  refine Keeps.node _ ((sound_templateParamLead h).next fun _ =>
    (sound_accept (by decide)).next fun _ => ?_)
  refine (looks_sees .ident).optional sound_simpleName ?_
  exact (looks_sees .eq).next fun _ =>
    .ite (fun _ => sound_initializer _ _) (fun _ => .pure id)

theorem sound_templateParams : ∀ depth, Sound depth (templateParams depth) := by
  intro depth
  induction depth with
  | zero => exact fun s hs => absurd hs (Nat.not_lt_zero _)
  | succ depth ih =>
      refine Keeps.node _ ((sound_expect (by decide) _).next fun _ => (Keeps.loop ?_).next fun _ =>
        (sound_expect (by decide) _).next fun _ => .pure id)
      refine (looks_sees .rAngle).next fun _ => looks_atEnd.next fun _ =>
        .ite (fun _ => steps_done) ?_
      intro _
      exact (sound_templateParam ih).next fun _ => steps_accept (by decide)

/-! ## What holds declarations -/

/-- A declaration that moves nothing is given up on, so every round moves a token. -/
theorem steps_declarationOr {P : Option SourceToken → Prop} (hP : ∀ w, P w → w.isSome = true)
    (h : Sound n inner) (f : SyntaxFault) :
    Keeps n P (do
      let start ← remaining
      inner
      if (← remaining) = start then recover f
      return true) (· = true) :=
  (Eats.orElse (k := fun _ => pure true) h (eats_recover f) (.pure id)).mono (Nat.le_refl n) hP
    (fun _ _ => trivial)

theorem steps_declarationRound (h : Sound n inner) (inBraces : Bool) :
    Steps n (declarationRound inner inBraces) := by
  refine looks_atEnd.bind fun b => .ite ?_ ?_
  · intro _
    exact .optional (sound_missing _) steps_done
  · intro hb
    have hsome : ∀ w : Option SourceToken, True ∧ (b = false → w.isSome = true) →
        w.isSome = true :=
      fun w hw => hw.2 (by simpa using hb)
    refine (looks_sees .rBrace).next fun _ => .ite ?_ ?_
    · intro _
      refine .ite (fun _ => steps_done) ?_
      intro _
      exact .behind ((eats_recover _).given hsome) fun _ => .pure id
    · intro _
      exact steps_declarationOr hsome h _

theorem sound_declarations (h : Sound n inner) (inBraces : Bool) :
    Sound n (declarations inner inBraces) :=
  .loop (steps_declarationRound h inBraces)

/-- Outside of braces, the last round is the one that finds the end of the stream. -/
theorem declarationRound_eq_false {s : ParseState}
    (h : (declarationRound inner false s).1 = false) :
    (declarationRound inner false s).2.word? = none := by
  by_cases hend : (atEnd s).1 = true
  · have hround : declarationRound inner false s = (false, s) := by
      change (if (atEnd s).1 = true then _ else _ : Parser Bool) s = _
      rw [if_pos hend]
      rfl
    rw [hround]
    exact Option.isNone_iff_eq_none.mp hend
  · exfalso
    have hround : (declarationRound inner false s).1 = true := by
      change ((if (atEnd s).1 = true then _ else _ : Parser Bool) s).1 = _
      rw [if_neg hend]
      change ((if (sees .rBrace s).1 = true then _ else _ : Parser Bool) s).1 = _
      split
      · rfl
      · change ((if _ then _ else _ : Parser Bool) _).1 = true
        split <;> rfl
    rw [hround] at h
    exact absurd h (by decide)

theorem sound_declarationBlock (h : Sound n inner) (close : String) :
    Sound n (declarationBlock inner close) :=
  ((sound_declarations h true).nodeHere _).next fun _ =>
    (sound_expect (by decide) _).next fun _ => .pure id

/-- Another name is read only behind a `::` that was moved. -/
theorem sound_namespaceName : Sound n namespaceName := by
  refine Keeps.node _ (sound_advance.next fun _ => .loop (.accepted (by decide) ?_ steps_done))
  exact (sound_accept (by decide)).next fun _ => (sound_expect (by decide) _).next fun _ => .pure id

theorem sound_namespaceRest (h : Sound n inner) : Sound n (namespaceRest inner) := by
  refine (looks_sees .ident).optional sound_namespaceName ?_
  exact (sound_accept (by decide)).next fun _ =>
    .ite (fun _ => sound_declarationBlock h _) (fun _ => sound_missing _)

/-- The declarations of a namespace are read behind the word `namespace`. -/
theorem keeps_namespaceDefinition (h : Sound n inner) :
    Keeps (n + 1) (fun w => w.isSome = true) (namespaceDefinition inner) (fun _ => False) := by
  refine (looks_sees .inlineKw).next fun _ => (looks_kindAhead _).next fun _ =>
    .ite (fun _ => sound_passStatement.anywhere) ?_
  intro _
  refine Keeps.node _ (Keeps.accept (by decide) ?_ ?_)
  · exact sound_advance.next fun _ => sound_namespaceRest h
  · exact .behind eats_advance fun _ => sound_namespaceRest h

/-- The declarations of a linkage specification are read behind the word `extern`. -/
theorem keeps_linkageSpecification (h : Sound n inner) :
    Keeps (n + 1) (fun w => w.isSome = true) (linkageSpecification inner) (fun _ => False) := by
  refine Keeps.node _ (.behind eats_advance fun _ => sound_advance.next fun _ => ?_)
  exact (sound_accept (by decide)).next fun _ =>
    .ite (fun _ => sound_declarationBlock h _) (fun _ => h)

/-- Each level of a template is read behind its word `template`, and so is what it declares. -/
theorem keeps_templateDeclaration (h : Sound n inner) :
    ∀ depth ≤ n + 1,
      Keeps depth (fun w => w.isSome = true) (templateDeclaration inner depth)
        (fun _ => False) := by
  intro depth
  induction depth with
  | zero => exact fun _ s hs => absurd hs (Nat.not_lt_zero _)
  | succ depth ih =>
      intro hdepth
      refine Keeps.node _ (.behind eats_advance fun _ => ?_)
      have hparams : Sound depth (nested templateParams) :=
        .nested fun m _ => sound_templateParams m
      refine hparams.next fun _ => (looks_seesPair _ _).ite ?_ ?_
      · refine (ih (by omega)).given fun w hw => ?_
        exact isSome_of_wordKind (by rw [hw rfl]; decide)
      · exact looks_atEnd.next fun _ =>
          .ite (fun _ => sound_missing _) (fun _ => h.below (by omega))

/-! ## Classes -/

theorem sound_attributes : Sound n attributes := by
  refine .loop ((looks_seesPair _ _).ite (steps_takeGroup fun w hw => ?_) ?_)
  · exact mayOpen_of_wordKind (hw rfl) (by decide) (by decide)
  · refine (looks_seesWord _).bind fun b => (looks_kindAhead 1).next fun _ =>
      .ite ?_ fun _ => steps_done
    intro hb
    refine .behind (eats_advance.given fun w hw => ?_) fun _ =>
      sound_takeGroup.next fun _ => .pure id
    exact isSome_of_wordKind (by rw [hw.2 (Bool.and_eq_true_iff.mp hb).1]; decide)

/-- Another base is asked for only behind a comma that was moved. -/
theorem sound_baseList : Sound n baseList := by
  refine Keeps.node _ (sound_advance.next fun _ => .loop ((Keeps.node _ ?_).next fun _ =>
    steps_accept (by decide)))
  exact (sound_advanceWhile_seesAny (by decide)).next fun _ => (sound_expectType _).next fun _ =>
    (sound_accept (by decide)).next fun _ => .pure id

theorem sound_memberList (h : Sound n inner) : Sound n (memberList inner) := by
  refine Keeps.node _ (sound_advance.next fun _ => (Keeps.loop ?_).next fun _ =>
    (sound_accept (by decide)).next fun _ => .pure id)
  refine looks_atEnd.bind fun b => .ite ?_ ?_
  · intro _
    exact ((sound_missing _).next fun _ => steps_done).anywhere
  · intro hb
    have hsome : ∀ w : Option SourceToken, True ∧ (b = false → w.isSome = true) →
        w.isSome = true :=
      fun w hw => hw.2 (by simpa using hb)
    refine (looks_sees .rBrace).next fun _ => .ite (fun _ => steps_done) ?_
    intro _
    refine looks_nextKind.next fun _ => (looks_kindAhead 1).next fun _ => .ite ?_ ?_
    · intro _
      refine .behind (Keeps.node _ ?_) fun _ => .pure id
      exact .behind (eats_advance.given hsome) fun _ => sound_advance
    · intro _
      exact steps_declarationOr hsome h _

/-- The members of a class are read behind its key. -/
theorem keeps_classDefinition (h : Sound n inner) :
    Keeps (n + 1) (fun w => w.isSome = true) (classDefinition inner) (fun _ => False) := by
  have hend {m : ℕ} : Sound m (do let _ ← expect .semicolon "`;` after class" : Parser Unit) :=
    (sound_expect (by decide) _).next fun _ => .pure id
  refine Keeps.node _ (.behind eats_advance fun _ => sound_attributes.next fun _ => ?_)
  refine (looks_seesAny _).optional (Keeps.node _ ?_) ?_
  · refine (sound_accept (by decide)).next fun _ => sound_advance.next fun _ => .loop ?_
    refine (looks_seesPair _ _).ite (.behind (eats_advance.given fun w hw => ?_) fun _ =>
      sound_advance.next fun _ => .pure id) steps_done
    exact isSome_of_wordKind (by rw [hw rfl]; decide)
  refine (looks_sees .lAngle).optional sound_templateArgs ?_
  refine (looks_seesWord _).optional sound_advance ?_
  refine (looks_sees .colon).optional sound_baseList ?_
  refine (looks_sees .lBrace).next fun _ => .ite ?_ (fun _ => hend)
  intro _
  exact (sound_memberList h).next fun _ => (looks_seesAny _).optional (sound_takeUpTo _ _) hend

theorem keeps_explicitInstantiation (h : Sound n inner) :
    Keeps (n + 1) (fun w => w.isSome = true) (explicitInstantiation inner) (fun _ => False) := by
  have hrest : Sound n (do
      if (← nextKind).isClassKey then classDefinition inner else member) := by
    refine looks_nextKind.bind fun k => .ite ?_ (fun _ => sound_member.anywhere)
    intro hkey
    refine ((keeps_classDefinition h).below (Nat.le_succ n)).given fun w hw => ?_
    refine isSome_of_wordKind ?_
    rw [hw.2]
    rintro rfl
    exact absurd hkey (by decide)
  refine Keeps.node _ (Keeps.accept (by decide) ?_ ?_)
  · exact sound_advance.next fun _ => hrest
  · exact .behind eats_advance fun _ => hrest

/-! ## Declarations -/

/-- **No declaration runs into the bound of its nesting**: a depth above the number of tokens
left is enough. -/
theorem sound_declaration : ∀ depth, Sound depth (declaration depth) := by
  intro depth
  induction depth with
  | zero => exact fun s hs => absurd hs (Nat.not_lt_zero _)
  | succ depth ih =>
      refine looks_nextKind.bind fun kind => (looks_kindAhead 1).next fun next => ?_
      have hword : kind ≠ .error → ∀ w, True ∧ wordKind w = kind → w.isSome = true :=
        fun hkind w hw => isSome_of_wordKind (hw.2 ▸ hkind)
      have hmember : Keeps (depth + 1) (fun w => True ∧ wordKind w = kind) member
          (fun _ => False) := sound_member.anywhere
      have hrecover (hkind : kind ≠ .error) : Keeps (depth + 1)
          (fun w => True ∧ wordKind w = kind) (recover (.expected "declaration"))
          (fun _ => False) :=
        (eats_recover _).mono (Nat.le_refl _) (hword hkind) (fun _ hf => hf.elim)
      -- One case for each way of starting a declaration. Those that nest have seen their first
      -- word, so they may use `ih`.
      cases kind
      case semicolon => exact sound_advance.anywhere
      case namespaceKw => exact (keeps_namespaceDefinition ih).given (hword (by decide))
      case inlineKw =>
        exact .ite (fun _ => (keeps_namespaceDefinition ih).given (hword (by decide)))
          (fun _ => hmember)
      case externKw =>
        refine .ite (fun _ => (keeps_linkageSpecification ih).given (hword (by decide))) ?_
        intro _
        exact .ite (fun _ => (keeps_explicitInstantiation ih).given (hword (by decide)))
          (fun _ => hmember)
      case templateKw =>
        refine .ite (fun _ => (keeps_explicitInstantiation ih).given (hword (by decide))) ?_
        intro _
        refine looks_wordsAhead.next fun _ => .ite (fun _ => sound_passStatement.anywhere) ?_
        intro _
        exact (Keeps.nested (keeps_templateDeclaration ih)).given (hword (by decide))
      case classKw | structKw | unionKw =>
        refine looks_wordsAhead.next fun _ => .ite ?_ (fun _ => hmember)
        intro _
        exact (keeps_classDefinition ih).given (hword (by decide))
      case enumKw => exact sound_passStatement.anywhere
      case friendKw | staticAssertKw => exact sound_passDeclaration.anywhere
      case usingKw => exact sound_usingDeclaration.anywhere
      case typedefKw => exact sound_typedef.anywhere
      case lBracket => exact .ite (fun _ => hmember) (fun _ => hrecover (by decide))
      case rBracket | rParen => exact hrecover (by decide)
      all_goals exact hmember

theorem sound_topLevel : Sound n (nested declaration) := .nested fun m _ => sound_declaration m

/-- Outside of braces, declarations are read up to the end of the stream. -/
theorem word?_declarations (h : Sound n inner) (s : ParseState) (hs : s.rest.length < n) :
    (declarations inner false s).2.word? = none := by
  obtain ⟨t, hdone, hexit⟩ := loopFrom_exit (steps_declarationRound h false) s hs
  change (loopFrom (declarationRound inner false) s).word? = none
  rw [hexit]
  exact declarationRound_eq_false hdone

/-- Where no word is left, the rest is trivia. -/
theorem rest_passTrivia {s : ParseState} (h : s.word? = none) : (passTrivia s).2.rest = [] := by
  rw [ParseState.word?, nthWord?_zero] at h
  exact List.head?_eq_none_iff.mp h

/-- A whole file leads on, and to the end of the stream. -/
theorem leadsTo_sourceFileParts (s : ParseState) :
    s.LeadsTo (passTrivia (declarations (nested declaration) false s).2).2 ∧
      (passTrivia (declarations (nested declaration) false s).2).2.rest = [] := by
  have hlead := (sound_declarations sound_topLevel false s (Nat.lt_succ_self _) trivial).1
  have hword := word?_declarations sound_topLevel s (Nat.lt_succ_self _)
  exact ⟨hlead.trans (leadsTo_passTrivia _), rest_passTrivia hword⟩

end Bindery.Grammar

namespace Bindery.SyntaxTree

/-- **Parsing is total and lossless.** Whatever the tokens are, no loop and no nesting of the
grammar is cut off, all tokens are moved, and what has been built is one root, a source file.
Its leaves from left to right are the tokens of the stream. -/
theorem parse_lossless (tokens : List SourceToken) :
    ∃ children : List Tree,
      (finalState tokens).stalled = false ∧
      (finalState tokens).rest = [] ∧
      (finalState tokens).built = [.node .sourceFile children] ∧
      (parse tokens).root = .node .sourceFile children ∧
      (parse tokens).root.leaves = tokens := by
  let start : ParseState := { rest := tokens, final := tokens.getLast?.map (·.origin) }
  let stop := (Parser.passTrivia (Grammar.declarations (Parser.nested Grammar.declaration) false
    start).2).2
  obtain ⟨hlead, hrest⟩ := Grammar.leadsTo_sourceFileParts start
  have hbuilt : (finalState tokens).built = [.node .sourceFile stop.built.reverse] := rfl
  have hroot : (parse tokens).root = .node .sourceFile stop.built.reverse := rfl
  have hleaves : Tree.leavesOf stop.built.reverse = tokens := by
    have htokens := hlead.tokens_eq
    rw [ParseState.tokens, hrest, List.append_nil] at htokens
    rw [htokens]
    simp [ParseState.tokens, start]
  refine ⟨stop.built.reverse, hlead.stalled_eq, hrest, hbuilt, hroot, ?_⟩
  rw [hroot, Tree.leaves_node, hleaves]

end Bindery.SyntaxTree
