import Bindery.Proofs.Tree.Progress
import Bindery.Tree.Members

/-!
# Progress of types, functions and variables

The part of the grammar that does not nest leads on from every state, whatever the budget. Each
parser has one lemma, proved along its definition by the rules of the logic. The loops among
them are where something has to be said: which token a round moves before it asks for another.
-/
namespace Bindery.Grammar
open Bindery.Parser

variable {n : ℕ}

/-! ## Moving behind a look ahead -/

/-- A round that moves the token it has seen. -/
theorem steps_advance {P : Option SourceToken → Prop} (hP : ∀ w, P w → w.isSome = true) :
    Keeps n P (do advance; pure true) (· = true) :=
  .behind (eats_advance.given hP) fun _ => .pure id

/-- A round that moves the group it has seen. -/
theorem steps_takeGroup {P : Option SourceToken → Prop} (hP : ∀ w, P w → MayOpen w) :
    Keeps n P (do takeGroup; pure true) (· = true) :=
  .behind (eats_takeGroup.given hP) fun _ => .pure id

/-- A round that asks for no other one. -/
theorem steps_done {P : Option SourceToken → Prop} :
    Keeps n P (pure false : Parser Bool) (· = true) :=
  .pure (by simp)

/-! ## Types -/

theorem sound_simpleName : Sound n simpleName := sound_advance.node _

/-- Another segment is asked for only behind a `::` that was moved. -/
theorem steps_segmentEnd : Steps n segmentEnd := by
  refine (looks_sees .lAngle).optional sound_takeAngles ?_
  refine (looks_sees .colonColon).bind fun b => (looks_kindAhead 1).next fun k => .ite ?_ ?_
  · intro hmore
    have hb : b = true := (Bool.and_eq_true_iff.mp hmore).1
    refine .behind (eats_advance.given fun w hw => ?_) fun _ =>
      (sound_accept (by decide)).next fun _ => .pure id
    exact isSome_of_wordKind (by rw [hw.2 hb]; decide)
  · intro _
    exact steps_done

theorem sound_qualifiedTypeName : Sound n qualifiedTypeName := by
  refine (sound_accept (by decide)).next fun _ => .loop ?_
  refine looks_nextText.next fun _ => (looks_kindAhead 1).next fun _ => .ite ?_ ?_
  · intro _
    exact sound_advance.next fun _ => sound_takeGroup.next fun _ => steps_segmentEnd
  · intro _
    refine (sound_accept (by decide)).next fun _ => .ite (fun _ => steps_segmentEnd) ?_
    intro _
    exact (sound_missing _).next fun _ => steps_done

theorem looks_seesTypeLead : Looks seesTypeLead (fun b w => b = true → w.isSome = true) := by
  intro s
  refine ⟨rfl, ?_⟩
  intro hb
  refine isSome_of_wordKind ?_
  intro he
  change (List.contains _ (wordKind s.word?) || (wordKind s.word?).isClassKey) = true at hb
  rw [he] at hb
  exact absurd hb (by decide)

theorem looks_seesFundamental :
    Looks (do return (← seesWord fundamentalWords) || (← seesAny [.constKw, .volatileKw]))
      (fun b w => b = true → w.isSome = true) := by
  intro s
  refine ⟨rfl, ?_⟩
  intro hb
  rcases Bool.or_eq_true_iff.mp hb with hword | hqualifier
  · exact isSome_of_wordKind (by rw [(looks_seesWord _ s).2 hword]; decide)
  · exact isSome_of_mem_kinds (by decide) ((looks_seesAny [.constKw, .volatileKw] s).2 hqualifier)

theorem sound_type : Sound n type := by
  have hsuffix : Sound n
      (advanceWhile (seesAny [.constKw, .volatileKw, .star, .amp, .ampAmp])) :=
    sound_advanceWhile_seesAny (by decide)
  refine looks_nextKind.next fun _ => looks_seesTypeLead.next fun _ => .ite ?_ fun _ => .pure id
  intro _
  refine (Keeps.node _ ?_).next fun _ => .pure id
  refine (Keeps.advanceWhile looks_seesTypeLead fun _ hw => hw rfl).next fun _ => ?_
  refine (looks_seesWord fundamentalWords).next fun _ => .ite ?_ ?_
  · intro _
    exact (Keeps.advanceWhile looks_seesFundamental fun _ hw => hw rfl).next fun _ => hsuffix
  · intro _
    refine (looks_seesAny _).next fun _ => .ite ?_ ?_
    · intro _
      exact sound_qualifiedTypeName.next fun _ => hsuffix
    · intro _
      exact (sound_missing _).next fun _ => hsuffix

theorem sound_expectType (what : String) : Sound n (expectType what) :=
  sound_type.next fun _ => .ite (fun _ => .pure id) (fun _ => sound_missing what)

/-! ## Parts of members -/

theorem sound_initializer (stops : List TokenKind) (angles : Bool) :
    Sound n (initializer stops angles) :=
  (sound_advance.next fun _ => sound_takeUpTo stops angles).node _

theorem sound_skippedRun (stops : List TokenKind) (angles : Bool) :
    Sound n (skippedRun stops angles) :=
  (sound_takeUpTo stops angles).node _

/-- An extent moves at least its opening bracket. -/
theorem eats_arraySuffix : Eats n (fun w => w.isSome = true) arraySuffix :=
  (eats_advance.behind fun _ => (sound_takeUpTo _ _).next fun _ =>
    (sound_expect (by decide) _).next fun _ => .pure id).node _

theorem sound_arraySuffixes : Sound n arraySuffixes := by
  refine .loop ((looks_sees .lBracket).ite ?_ steps_done)
  refine .behind (eats_arraySuffix.given fun w hw => ?_) fun _ => .pure id
  exact isSome_of_wordKind (by rw [hw rfl]; decide)

theorem sound_fieldInitializer : Sound n fieldInitializer := by
  refine looks_nextKind.next fun k => ?_
  split
  · exact sound_initializer _ _
  · exact sound_takeGroup.node _
  · exact .pure id

theorem sound_param : Sound n param := by
  refine Keeps.node _ ((sound_accept (by decide)).next fun _ => .ite (fun _ => .pure id) ?_)
  intro _
  have hend : Sound n (do
      unless (← seesAny [.comma, .rParen]) || (← atEnd) do skippedRun [.comma, .rParen] true) :=
    (looks_seesAny _).next fun _ => looks_atEnd.next fun _ =>
      .ite (fun _ => .pure id) (fun _ => sound_skippedRun _ _)
  have hdefault : Sound n (do
      if ← sees .eq then initializer [.comma, .rParen] true
      unless (← seesAny [.comma, .rParen]) || (← atEnd) do skippedRun [.comma, .rParen] true) :=
    (looks_sees .eq).optional (sound_initializer _ _) hend
  refine sound_type.next fun _ => .ite ?_ (fun _ => hdefault)
  intro _
  refine (sound_accept (by decide)).next fun _ => ?_
  exact (looks_sees .ident).optional sound_simpleName
    (sound_arraySuffixes.next fun _ => hdefault)

/-- Another parameter is asked for only behind a comma that was moved. -/
theorem sound_paramList : Sound n paramList := by
  refine Keeps.node _ ((sound_expect (by decide) _).next fun _ => .ite ?_ fun _ => .pure id)
  intro _
  refine (Keeps.loop ?_).next fun _ => (sound_expect (by decide) _).next fun _ => .pure id
  refine (looks_sees .rParen).next fun _ => looks_atEnd.next fun _ => .ite ?_ ?_
  · intro _
    exact steps_done
  · intro _
    exact sound_param.next fun _ => steps_accept (by decide)

/-! ## Functions -/

/-- A round of constructor initialisers moves a group or a token. -/
theorem sound_ctorInit : Sound n ctorInit := by
  refine Keeps.node _ (sound_advance.next fun _ => .loop (looks_atEnd.bind fun b => .ite ?_ ?_))
  · intro _
    exact steps_done
  · intro hb
    refine looks_nextKind.bind fun k => ?_
    split
    · refine looks_get.next fun _ => .ite ?_ fun _ => steps_done
      intro _
      exact steps_takeGroup fun w hw => mayOpen_of_wordKind hw.2 (by decide) (by decide)
    · exact steps_done
    · exact steps_done
    · exact steps_takeGroup fun w hw => mayOpen_of_wordKind hw.2 (by decide) (by decide)
    · exact steps_takeGroup fun w hw => mayOpen_of_wordKind hw.2 (by decide) (by decide)
    · exact steps_advance fun w hw => hw.1.2 (by simpa using hb)

/-- A word with an optional group in parentheses behind it. -/
theorem steps_advance_group {P : Option SourceToken → Prop} (hP : ∀ w, P w → w.isSome = true) :
    Keeps n P (do
      advance
      if ← sees .lParen then takeGroup
      pure true) (· = true) :=
  .behind (eats_advance.given hP) fun _ =>
    (looks_sees .lParen).optional sound_takeGroup (.pure id)

theorem sound_functionQualifiers : Sound n functionQualifiers := by
  have hsome {k : TokenKind} (hk : k ≠ .error) :
      ∀ w, True ∧ wordKind w = k → w.isSome = true :=
    fun w hw => isSome_of_wordKind (hw.2 ▸ hk)
  refine .loop (looks_nextKind.bind fun k => ?_)
  split
  · exact steps_advance (hsome (by decide))
  · exact steps_advance (hsome (by decide))
  · exact steps_advance (hsome (by decide))
  · exact steps_advance (hsome (by decide))
  · exact steps_advance_group (hsome (by decide))
  · refine (looks_seesWord _).ite (steps_advance ?_) ((looks_seesWord _).ite
      (steps_advance_group ?_) steps_done)
    · intro w hw
      exact isSome_of_wordKind (by rw [hw rfl]; decide)
    · intro w hw
      exact isSome_of_wordKind (by rw [hw rfl]; decide)
  · refine .behind (eats_advance.given (hsome (by decide))) fun _ => ?_
    exact (sound_expectType _).next fun _ => .pure id
  · exact steps_done

theorem sound_functionRest : Sound n functionRest := by
  refine sound_paramList.next fun _ => sound_functionQualifiers.next fun _ => ?_
  refine (looks_sees .eq).optional (sound_initializer _ _) ?_
  refine (looks_sees .colon).optional sound_ctorInit ?_
  refine (looks_sees .lBrace).next fun _ => .ite ?_ ?_
  · intro _
    exact sound_takeGroup.node _
  · intro _
    refine (looks_sees .semicolon).next fun _ => .ite (fun _ => sound_advance) ?_
    intro _
    refine looks_atEnd.next fun _ => .ite (fun _ => sound_missing _) ?_
    intro _
    exact (sound_skippedRun _ _).next fun _ => (sound_expect (by decide) _).next fun _ => .pure id

/-! ## Variables -/

theorem sound_declarator : Sound n declarator := by
  have hrest : Sound n (do arraySuffixes; fieldInitializer) :=
    sound_arraySuffixes.next fun _ => sound_fieldInitializer
  refine Keeps.node _ ((sound_advanceWhile_seesAny (by decide)).next fun _ => ?_)
  refine (looks_sees .ident).next fun _ => .ite ?_ ?_
  · intro _
    exact sound_simpleName.next fun _ => hrest
  · intro _
    exact (sound_missing _).next fun _ => hrest

/-- Another declarator is read only behind a comma that was moved. -/
theorem steps_declarators : Steps n (do
    if ← accept .comma then
      declarator
      return true
    else return false) :=
  .accepted (by decide) (sound_declarator.next fun _ => .pure id) steps_done

theorem sound_fieldRest : Sound n fieldRest := by
  have hend : Sound n (do
      fieldInitializer
      loop do
        if ← accept .comma then
          declarator
          return true
        else return false
      unless ← accept .semicolon do
        missing "`;` after declaration"
        takeUpTo [.semicolon] false
        let _ ← accept .semicolon) := by
    refine sound_fieldInitializer.next fun _ => (Keeps.loop steps_declarators).next fun _ => ?_
    refine (sound_accept (by decide)).next fun _ => .ite (fun _ => .pure id) ?_
    intro _
    refine (sound_missing _).next fun _ => (sound_takeUpTo _ _).next fun _ => ?_
    exact (sound_accept (by decide)).next fun _ => .pure id
  refine sound_arraySuffixes.next fun _ => (looks_sees .colon).next fun _ => .ite ?_ ?_
  · intro _
    exact sound_advance.next fun _ => (sound_takeUpTo _ _).next fun _ => hend
  · intro _
    exact hend

/-! ## Names -/

theorem looks_operatorTail :
    Looks (do return !(← atEnd) && !(← seesAny [.lParen, .semicolon]))
      (fun b w => b = true → w.isSome = true) := by
  intro s
  refine ⟨rfl, ?_⟩
  intro hb
  have hgoes : (!(atEnd s).1) = true := (Bool.and_eq_true_iff.mp hb).1
  rw [Bool.not_eq_true'] at hgoes
  exact (looks_atEnd s).2 hgoes

theorem sound_operatorTokens : Sound n operatorTokens := by
  refine sound_advance.next fun _ => (looks_seesPair _ _).next fun _ => .ite ?_ ?_
  · intro _
    exact sound_advance.next fun _ => sound_advance
  · intro _
    exact .advanceWhile looks_operatorTail fun _ hw => hw rfl

theorem looks_seesScopedOperator : Looks seesScopedOperator (fun _ _ => True) :=
  fun _ => ⟨rfl, trivial⟩

/-- Another segment is asked for only behind a `::` that was moved. -/
theorem sound_declaratorName : Sound n declaratorName := by
  refine Keeps.node _ ((sound_accept (by decide)).next fun _ => (Keeps.loop ?_).next fun _ => ?_)
  · refine looks_seesScopedOperator.next fun _ => .ite (fun _ => steps_done) ?_
    intro _
    refine (sound_accept (by decide)).next fun _ => (sound_accept (by decide)).next fun _ =>
      .ite ?_ ?_
    · intro _
      refine (looks_sees .lAngle).next fun _ => looks_wordsAhead.next fun _ => ?_
      exact .optional sound_takeAngles (steps_accept (by decide))
    · intro _
      exact (sound_missing _).next fun _ => steps_done
  · refine looks_seesScopedOperator.next fun _ => .ite ?_ fun _ => .pure id
    intro _
    exact sound_operatorTokens.next fun _ => .pure id

/-- Another argument is asked for only behind a comma that was moved. -/
theorem sound_templateArgs : Sound n templateArgs := by
  refine Keeps.node _ (sound_advance.next fun _ => (Keeps.loop ?_).next fun _ => ?_)
  · refine (looks_sees .rAngle).next fun _ => looks_atEnd.next fun _ => .ite ?_ ?_
    · intro _
      exact steps_done
    · intro _
      exact ((sound_takeUpTo _ _).node _).next fun _ => steps_accept (by decide)
  · exact (sound_expect (by decide) _).next fun _ => .pure id

/-! ## Members -/

theorem sound_specifiers : Sound n specifiers := by
  refine .loop ((looks_seesAny _).bind fun b => (looks_seesWord _).bind fun b' => .ite ?_ ?_)
  · intro hb
    refine steps_advance fun w hw => ?_
    rcases Bool.or_eq_true_iff.mp hb with hkind | hword
    · exact isSome_of_mem_kinds (by decide) (hw.1.2 hkind)
    · exact isSome_of_wordKind (by rw [hw.2 hword]; decide)
  · intro _
    refine (looks_seesPair _ _).ite (steps_takeGroup fun w hw => ?_) steps_done
    exact mayOpen_of_wordKind (hw rfl) (by decide) (by decide)

theorem sound_namedMember : Sound n namedMember := by
  refine sound_declaratorName.next fun _ => (looks_sees .lAngle).next fun _ => ?_
  refine .optional sound_templateArgs ((looks_sees .lParen).next fun _ => .ite ?_ ?_)
  · intro _
    exact sound_functionRest.next fun _ => .pure id
  · intro _
    exact sound_fieldRest.next fun _ => .pure id

theorem sound_memberParts : Sound n memberParts := by
  have hoperator : Sound n (do operatorName; functionRest; pure (some NodeKind.function)) :=
    (sound_operatorTokens.node _).next fun _ => sound_functionRest.next fun _ => .pure id
  have hskipped : Sound n (do let _ ← accept .semicolon; pure (some NodeKind.skipped)) :=
    (sound_accept (by decide)).next fun _ => .pure id
  refine looks_remaining.next fun _ => sound_specifiers.next fun _ => ?_
  refine (looks_sees .tilde).next fun _ => .ite ?_ ?_
  · intro _
    refine (Keeps.node _ ?_).next fun _ => sound_functionRest.next fun _ => .pure id
    exact sound_advance.next fun _ => (sound_expect (by decide) _).next fun _ => .pure id
  intro _
  refine (looks_sees .operatorKw).next fun _ => .ite (fun _ => hoperator) ?_
  intro _
  refine sound_type.next fun _ => .ite ?_ ?_
  · intro _
    refine looks_nextKind.next fun k => ?_
    split
    · exact sound_functionRest.next fun _ => .pure id
    · exact hoperator
    · exact sound_namedMember.next fun _ => .pure id
    · exact sound_namedMember.next fun _ => .pure id
    · exact hskipped
  · intro _
    exact looks_remaining.next fun _ => .ite (fun _ => .pure id) (fun _ => hskipped)

/-- The parts of a member become the children of its node, or stay where they are. -/
theorem sound_member : Sound n member := by
  refine .behindTrivia fun s hs _ => ?_
  have hparts := sound_memberParts { s with built := [] } hs trivial
  have hemit (trees : List Tree)
      (htrees : Tree.leavesOf trees = Tree.leavesOf (collect memberParts s).1.2) :
      s.LeadsTo (emit trees (collect memberParts s).2).2 :=
    leadsTo_collect memberParts s hparts.1 trees htrees
  refine ⟨?_, False.elim⟩
  rw [Parser.bind_apply]
  generalize (collect memberParts s).1 = parts at hemit ⊢
  obtain ⟨_ | kind, trees⟩ := parts
  · exact hemit trees rfl
  · exact hemit [.node kind trees] (by simp)

end Bindery.Grammar
