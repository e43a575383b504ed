import Bindery.Proofs.Tree.Outline
import Bindery.Proofs.TypeExpr.Respelling
import Bindery.Tree.Declarations

/-!
# A variable of a printed type

The grammar of declarations only delimits types: it moves the words of a type and the groups in
angle brackets behind its names, and leaves the reading of them to later. This module shows that
it delimits the printed form of every well-formed type in front of a name, whatever nests in it,
and that what it delimits is read as that type.

## Main definitions

* `Bracket.Balanced`: words that a scan over template arguments takes wherever it stands.

## Main statements

* `SyntaxTree.parse_variable`: a variable of a printed type is a field of that type.
-/
namespace Bindery

/-! ## Words inside angle brackets -/

namespace Bracket

/-- A scan for the end of template arguments takes the words wherever it stands. -/
def Balanced (ps : List Piece) : Prop :=
  ∀ (last : TokenKind) (stack : List TokenKind), Passes [.rAngle] true last stack ps stack

/-- The kinds in the printed form of a type that neither open nor close anything. -/
def quietKinds : List TokenKind :=
  [.ident, .constKw, .volatileKw, .star, .amp, .ampAmp, .comma, .minus, .intNumber, .colonColon]

theorem Balanced.append {ps qs : List Piece} (h : Balanced ps) (h' : Balanced qs) :
    Balanced (ps ++ qs) :=
  fun last stack => (h last stack).append (h' _ stack)

theorem balanced_quiet {ps : List Piece} (h : ∀ w ∈ ps, w.kind ∈ quietKinds) : Balanced ps := by
  have hstep : ∀ k ∈ quietKinds, k ≠ .rAngle ∧
      ∀ last stack, afterToken? true last stack k = some stack := by
    simp [quietKinds, afterToken?]
  induction ps with
  | nil => exact .nil
  | cons w ws ih =>
    intro last stack
    obtain ⟨hstop, hafter⟩ := hstep w.kind (h w (.head _))
    exact .cons (by simp [hstop]) (hafter last stack) (ih (fun v hv => h v (.tail _ hv)) _ stack)

/-- A name with a group in angle brackets behind it. -/
theorem Balanced.applied {args : List Piece} (h : Balanced args) (name : String) :
    Balanced (⟨.ident, name⟩ :: ⟨.lAngle, "<"⟩ :: (args ++ [⟨.rAngle, ">"⟩])) := by
  intro last stack
  refine .cons (by simp) rfl (.cons (by simp) rfl ((h .lAngle (.rAngle :: stack)).append ?_))
  exact .cons (by simp) rfl (.nil _ _)

end Bracket

open Bindery.Bracket

theorem Indirection.kinds_pieces (ds : List Indirection) : ∀ w ∈ ds.flatMap Indirection.pieces,
    w.kind ∈ [.constKw, .volatileKw, .star, .amp, .ampAmp] := by
  intro w hw
  obtain ⟨d, -, hd⟩ := List.mem_flatMap.1 hw
  match d with
  | .pointer false => simp_all [Indirection.pieces]
  | .pointer true =>
    simp only [Indirection.pieces, List.mem_cons, List.not_mem_nil, or_false] at hd
    rcases hd with rfl | rfl <;> simp
  | .lvalueRef => simp_all [Indirection.pieces]
  | .rvalueRef => simp_all [Indirection.pieces]

mutual
/-- The words of a well-formed type keep the angle brackets in balance. -/
theorem TypeExpr.balanced_pieces : ∀ {t : TypeExpr}, t.WellFormed → Balanced t.pieces
  | ⟨isConst, isVolatile, base, ds⟩, h => by
    rw [TypeExpr.WellFormed] at h
    have hds : Balanced (ds.flatMap Indirection.pieces) :=
      balanced_quiet fun w hw => by
        have hkind := Indirection.kinds_pieces ds w hw
        simp only [List.mem_cons, List.not_mem_nil, or_false] at hkind
        rcases hkind with hk | hk | hk | hk | hk <;> simp [hk, quietKinds]
    rw [TypeExpr.pieces]
    refine .append (.append (.append (balanced_quiet ?_) (balanced_quiet ?_)) ?_) hds
    · cases isConst <;> simp [quietKinds]
    · cases isVolatile <;> simp [quietKinds]
    · exact TypeBase.balanced_pieces h.1

theorem TypeBase.balanced_pieces : ∀ {base : TypeBase}, base.WellFormed → Balanced base.pieces
  | .fundamental name, h => by
    rw [TypeBase.WellFormed] at h
    obtain ⟨w, words, -, hpieces, -⟩ := h.exists_words
    rw [TypeBase.pieces, hpieces]
    refine balanced_quiet fun p hp => ?_
    obtain ⟨v, -, rfl⟩ := List.mem_map.1 hp
    simp [quietKinds]
  | .named isGlobal segments, h => by
    rw [TypeBase.WellFormed] at h
    rw [TypeBase.pieces]
    refine .append (balanced_quiet ?_) (NameSegment.balanced_piecesAll h.2.1)
    cases isGlobal <;> simp [quietKinds]

theorem NameSegment.balanced_pieces : ∀ {s : NameSegment}, s.WellFormed → Balanced s.pieces
  | .plain name, _ => balanced_quiet (by simp [NameSegment.pieces, quietKinds])
  | .applied name args, h => by
    rw [NameSegment.WellFormed] at h
    exact (TemplateArg.balanced_piecesAll h.2).applied name

theorem NameSegment.balanced_piecesAll : ∀ {ss : List NameSegment},
    NameSegment.AllWellFormed ss → Balanced (NameSegment.piecesAll ss)
  | [], _ => .nil
  | [s], h => by
    rw [NameSegment.AllWellFormed] at h
    exact NameSegment.balanced_pieces h.1
  | s :: s' :: ss, h => by
    rw [NameSegment.AllWellFormed] at h
    have hcolons : Balanced [⟨.colonColon, "::"⟩] := balanced_quiet (by simp [quietKinds])
    exact (NameSegment.balanced_pieces h.1).append
      (hcolons.append (NameSegment.balanced_piecesAll h.2))

theorem TemplateArg.balanced_pieces : ∀ {a : TemplateArg}, a.WellFormed → Balanced a.pieces
  | .type t, h => by
    rw [TemplateArg.WellFormed] at h
    exact TypeExpr.balanced_pieces h.1
  | .value text, h => by
    rw [TemplateArg.WellFormed] at h
    have hconstant := h.constantPieces
    rw [TemplateArg.pieces]
    generalize piecesOf text = ps at hconstant
    cases hconstant <;> exact balanced_quiet (by simp [quietKinds])

theorem TemplateArg.balanced_piecesAll : ∀ {as : List TemplateArg},
    TemplateArg.AllWellFormed as → Balanced (TemplateArg.piecesAll as)
  | [], _ => .nil
  | [a], h => by
    rw [TemplateArg.AllWellFormed] at h
    exact TemplateArg.balanced_pieces h.1
  | a :: a' :: as, h => by
    rw [TemplateArg.AllWellFormed] at h
    have hcomma : Balanced [⟨.comma, ","⟩] := balanced_quiet (by simp [quietKinds])
    exact (TemplateArg.balanced_pieces h.1).append
      (hcomma.append (TemplateArg.balanced_piecesAll h.2))
end

/-! ## Paths -/

/-- The words behind the name of a segment. -/
def NameSegment.behindName : NameSegment → List Piece
  | .plain _ => []
  | .applied _ args => ⟨.lAngle, "<"⟩ :: (TemplateArg.piecesAll args ++ [⟨.rAngle, ">"⟩])

theorem NameSegment.pieces_eq (s : NameSegment) :
    s.pieces = ⟨.ident, s.name⟩ :: s.behindName := by
  cases s <;> rfl

namespace Grammar
open Bindery.Parser Bindery.Outline

variable {last : TokenKind} {rest : List Piece} {os us : List Outline}

/-- The template arguments of a segment are moved if there are any. -/
theorem reads_angles {α : Type} {a : α} {k : Unit → Parser α} {s : NameSegment}
    (hs : s.WellFormed) (hk : ∀ l, Reads (k ()) l us rest a)
    (hrest : kindAt 0 (wordsAll us ++ rest) ≠ .lAngle) :
    Reads (do if ← sees .lAngle then takeAngles >>= k else k ()) last
      (s.behindName.map .word ++ us) rest a := by
  refine (sees_sees .lAngle).bind ?_
  cases s with
  | plain name =>
    rw [NameSegment.behindName, List.map_nil, List.nil_append, if_neg (by simpa using hrest)]
    exact hk last
  | applied name args =>
    rw [NameSegment.WellFormed] at hs
    rw [if_pos (by simp [NameSegment.behindName])]
    refine Reads.bind ?_ (hk _)
    have hargs := TemplateArg.balanced_piecesAll hs.2 .lAngle []
    simpa [NameSegment.behindName] using
      reads_takeAngles ⟨.lAngle, "<"⟩ ⟨.rAngle, ">"⟩ rfl rfl hargs

/-- What may stand behind the path of a type in front of a name. -/
def BehindPath (rest : List Piece) : Prop := kindAt 0 rest ∈ [.star, .amp, .ampAmp, .ident]

theorem BehindPath.ne (h : BehindPath rest) {k : TokenKind}
    (hk : k ∉ [TokenKind.star, .amp, .ampAmp, .ident]) : kindAt 0 rest ≠ k := by
  rintro rfl
  exact hk h

theorem reads_segmentEnd_last {s : NameSegment} (hs : s.WellFormed) (hrest : BehindPath rest) :
    Reads segmentEnd last (s.behindName.map .word) rest false := by
  rw [← List.append_nil (s.behindName.map word)]
  refine reads_angles hs (fun l => ?_) (by simpa using hrest.ne (by decide))
  refine (sees_sees .colonColon).bind ((sees_kindAhead 1).bind ?_)
  rw [if_neg (by simp [hrest.ne (k := .colonColon) (by decide)])]
  exact reads_pure false

theorem reads_segmentEnd_more {s : NameSegment} (hs : s.WellFormed) (name : String) :
    Reads segmentEnd last (s.behindName.map .word ++ [.word ⟨.colonColon, "::"⟩])
      (⟨.ident, name⟩ :: rest) true := by
  refine reads_angles hs (fun l => ?_) (by simp)
  refine (sees_sees .colonColon).bind ((sees_kindAhead 1).bind ?_)
  rw [if_pos (by simp)]
  exact reads_advance.andThen ((reads_accept_other (by simp)).andThen (reads_pure true))

/-- One round of a path. -/
def segmentRound : Parser Bool := do
  if (← nextText) = "decltype" && (← kindAhead 1) = .lParen then
    advance
    takeGroup
    segmentEnd
  else if ← accept .ident then segmentEnd
  else
    missing "name"
    return false

theorem qualifiedTypeName_eq :
    qualifiedTypeName = (do let _ ← accept .colonColon; loop segmentRound) := rfl

theorem reads_segmentRound {name : String} {b : Bool}
    (hend : ∀ l, Reads segmentEnd l os rest b) (hparen : kindAt 0 (wordsAll os ++ rest) ≠ .lParen) :
    Reads segmentRound last (.word ⟨.ident, name⟩ :: os) rest b := by
  refine sees_nextText.bind ((sees_kindAhead 1).bind ?_)
  rw [if_neg (by simp [hparen])]
  exact (reads_accept rfl).step (hend _)

theorem kindAt_behindName (s : NameSegment) {ws : List Piece} (h : kindAt 0 ws ≠ .lParen) :
    kindAt 0 (s.behindName ++ ws) ≠ .lParen := by
  cases s with
  | plain => exact h
  | applied => simp [NameSegment.behindName]

/-- The segments of a path are moved, whatever nests in their arguments. -/
theorem reads_segments : ∀ {ss : List NameSegment}, ss ≠ [] → NameSegment.AllWellFormed ss →
    BehindPath rest → ∀ {last : TokenKind},
    Reads (loop segmentRound) last ((NameSegment.piecesAll ss).map .word) rest ()
  | [], hne, _, _, _ => absurd rfl hne
  | [s], _, h, hrest, last => by
    rw [NameSegment.AllWellFormed] at h
    rw [NameSegment.piecesAll, s.pieces_eq]
    refine reads_loop_done (reads_segmentRound (fun l => reads_segmentEnd_last h.1 hrest) ?_)
    rw [wordsAll_map_word]
    exact kindAt_behindName s (hrest.ne (by decide))
  | s :: s' :: ss, _, h, hrest, last => by
    rw [NameSegment.AllWellFormed] at h
    have hloop (l : TokenKind) :
        Reads (loop segmentRound) l ((NameSegment.piecesAll (s' :: ss)).map .word) rest () :=
      reads_segments (by simp) h.2 hrest
    obtain ⟨ps, hps⟩ := NameSegment.piecesAll_eq_cons s' ss
    have hround : Reads segmentRound last
        (.word ⟨.ident, s.name⟩ :: (s.behindName.map .word ++ [.word ⟨.colonColon, "::"⟩]))
        (wordsAll ((NameSegment.piecesAll (s' :: ss)).map .word) ++ rest) true := by
      rw [wordsAll_map_word, hps]
      refine reads_segmentRound (fun l => reads_segmentEnd_more h.1 _) ?_
      simp only [wordsAll_append, wordsAll_map_word, List.append_assoc]
      exact kindAt_behindName s (by simp)
    have hall := reads_loop_more hround (by simp) (hloop _)
    rw [NameSegment.piecesAll_cons_cons, s.pieces_eq]
    simpa using hall

theorem reads_qualifiedTypeName {isGlobal : Bool} {ss : List NameSegment} (hne : ss ≠ [])
    (h : NameSegment.AllWellFormed ss) (hrest : BehindPath rest) :
    Reads qualifiedTypeName last ((TypeBase.named isGlobal ss).pieces.map .word) rest () := by
  rw [qualifiedTypeName_eq, TypeBase.pieces]
  cases isGlobal with
  | true => exact (reads_accept rfl).step (reads_segments hne h hrest)
  | false =>
    refine Reads.skip (reads_accept_other ?_) (reads_segments hne h hrest)
    obtain ⟨s, ss, rfl⟩ := List.exists_cons_of_ne_nil hne
    obtain ⟨ps, hps⟩ := NameSegment.piecesAll_eq_cons s ss
    simp [hps]

/-! ## Types -/

theorem sees_seesTypeLead : Sees seesTypeLead fun _ ws =>
    [.constKw, .volatileKw, .typenameKw, .enumKw].contains (kindAt 0 ws) ||
      (kindAt 0 ws).isClassKey :=
  sees_nextKind.map _

theorem sees_seesFundamental :
    Sees (do
      return (← seesWord fundamentalWords) || (← seesAny [.constKw, .volatileKw])) fun _ ws =>
      (decide (kindAt 0 ws = .ident) && fundamentalWords.contains (nextTextOf ws)) ||
        [.constKw, .volatileKw].contains (kindAt 0 ws) := by
  intro s
  change (((seesWord fundamentalWords s).1 || (seesAny [.constKw, .volatileKw] s).1), s) = _
  rw [sees_seesWord fundamentalWords s, sees_seesAny [.constKw, .volatileKw] s]

/-- What may stand behind the base of a type in front of a name. -/
structure BehindBase (rest : List Piece) : Prop where
  path : BehindPath rest
  text : nextTextOf rest ∉ fundamentalWords

theorem behindBase_cons {w : Piece} (hkind : w.kind ∈ [.star, .amp, .ampAmp, .ident])
    (htext : w.text ∉ fundamentalWords) : BehindBase (w :: rest) :=
  ⟨hkind, htext⟩

theorem behindBase_declarators (hrest : BehindBase rest) (ds : List Indirection) :
    BehindBase (ds.flatMap Indirection.pieces ++ rest) := by
  cases ds with
  | nil => exact hrest
  | cons d ds =>
    match d with
    | .pointer false => exact behindBase_cons (w := ⟨.star, "*"⟩) (by decide) (by decide)
    | .pointer true => exact behindBase_cons (w := ⟨.star, "*"⟩) (by decide) (by decide)
    | .lvalueRef => exact behindBase_cons (w := ⟨.amp, "&"⟩) (by decide) (by decide)
    | .rvalueRef => exact behindBase_cons (w := ⟨.ampAmp, "&&"⟩) (by decide) (by decide)

/-- A path starts with a mark, or with a name that is no word of a fundamental type. -/
theorem exists_start_named {isGlobal : Bool} {segments : List NameSegment}
    (h : (TypeBase.named isGlobal segments).WellFormed) :
    ∃ w ws, (TypeBase.named isGlobal segments).pieces = w :: ws ∧
      (w.kind = .colonColon ∨ w.kind = .ident ∧ w.text ∉ fundamentalWords) := by
  rw [TypeBase.WellFormed] at h
  obtain ⟨s, ss, rfl⟩ := List.exists_cons_of_ne_nil h.1
  obtain ⟨ps, hps⟩ := NameSegment.piecesAll_eq_cons s ss
  rw [TypeBase.pieces, hps]
  cases isGlobal with
  | true => exact ⟨_, _, rfl, .inl rfl⟩
  | false => exact ⟨_, _, rfl, .inr ⟨rfl, h.2.2 rfl s rfl⟩⟩

/-- A base is moved, as the words of a fundamental type or as a path. -/
theorem reads_base {α : Type} {a : α} {k : Unit → Parser α} {base : TypeBase}
    (h : base.WellFormed) (hrest : BehindBase (wordsAll us ++ rest))
    (hk : ∀ l, Reads (k ()) l us rest a) :
    Reads (do
        if ← seesWord fundamentalWords then
          advanceWhile (do return (← seesWord fundamentalWords) ||
            (← seesAny [.constKw, .volatileKw])) >>= k
        else if ← seesAny [.ident, .colonColon] then qualifiedTypeName >>= k
        else missing "type name" >>= k)
      last (base.pieces.map .word ++ us) rest a := by
  refine (sees_seesWord fundamentalWords).bind ?_
  cases base with
  | fundamental name =>
    rw [TypeBase.WellFormed] at h
    obtain ⟨w, words, hwords, hpieces, -⟩ := h.exists_words
    rw [TypeBase.pieces, hpieces, if_pos (by simpa [nextTextOf] using hwords w (.head _))]
    refine Reads.bind (reads_advanceWhile sees_seesFundamental ?_ fun l => ?_) (hk _)
    · intro p hp l ws
      obtain ⟨v, hv, rfl⟩ := List.mem_map.1 hp
      simp [nextTextOf, hwords v hv]
    · have hkind := hrest.path
      have htext := hrest.text
      simp only [BehindPath, List.mem_cons, List.not_mem_nil, or_false] at hkind
      rcases hkind with hk | hk | hk | hk <;> simp [hk, htext]
  | named isGlobal segments =>
    obtain ⟨w, ws, hpieces, hstart⟩ := exists_start_named h
    rw [TypeBase.WellFormed] at h
    have hmoved (l : TokenKind) :
        Reads qualifiedTypeName l ((TypeBase.named isGlobal segments).pieces.map .word)
          (wordsAll us ++ rest) () :=
      reads_qualifiedTypeName h.1 h.2.1 hrest.path
    rw [hpieces] at hmoved ⊢
    rw [if_neg]
    · refine (sees_seesAny _).bind ?_
      rw [if_pos]
      · exact Reads.bind (hmoved _) (hk _)
      · rcases hstart with hkind | ⟨hkind, -⟩ <;> simp [hkind]
    · rcases hstart with hkind | ⟨hkind, htext⟩ <;> simp [nextTextOf, *]

/-- A type starts with a qualifier, with a mark, with a word of a fundamental type or with the
name that leads it. -/
theorem exists_start {t : TypeExpr} (h : t.WellFormed) : ∃ w ws, t.pieces = w :: ws ∧
    w.kind ∈ [.ident, .colonColon, .constKw, .volatileKw] ∧
      (w.kind = .ident → w.text ∈ fundamentalWords ∨ t.leadingName? = some w.text) := by
  obtain ⟨isConst, isVolatile, base, ds⟩ := t
  rw [TypeExpr.WellFormed] at h
  rw [TypeExpr.pieces]
  cases isConst with
  | true => exact ⟨_, _, rfl, by simp, by simp⟩
  | false => cases isVolatile with
    | true => exact ⟨_, _, rfl, by simp, by simp⟩
    | false => cases base with
      | fundamental name =>
        have hname := h.1
        rw [TypeBase.WellFormed] at hname
        obtain ⟨w, words, hwords, hpieces, -⟩ := hname.exists_words
        rw [TypeBase.pieces, hpieces]
        exact ⟨_, _, rfl, by simp, fun _ => .inl (hwords w (.head _))⟩
      | named isGlobal segments =>
        have hpath := h.1
        rw [TypeBase.WellFormed] at hpath
        obtain ⟨s, ss, rfl⟩ := List.exists_cons_of_ne_nil hpath.1
        obtain ⟨ps, hps⟩ := NameSegment.piecesAll_eq_cons s ss
        rw [TypeBase.pieces, hps]
        cases isGlobal with
        | true => exact ⟨_, _, rfl, by simp, by simp⟩
        | false => exact ⟨_, _, rfl, by simp, fun _ => .inr rfl⟩

/-- The printed form of a well-formed type in front of a name is moved as a whole. -/
theorem reads_type {t : TypeExpr} (h : t.WellFormed) {x : String} (hx : x ∉ fundamentalWords) :
    Reads type last [.node .type (t.pieces.map .word)] (⟨.ident, x⟩ :: rest) true := by
  obtain ⟨isConst, isVolatile, base, ds⟩ := t
  rw [TypeExpr.WellFormed] at h
  obtain ⟨p, ps, hps, hstart⟩ := TypeBase.pieces_eq_cons h.1
  obtain ⟨lead, hlead, hpieces⟩ : ∃ lead : List Piece,
      (∀ w ∈ lead, w.kind = .constKw ∨ w.kind = .volatileKw) ∧
      TypeExpr.pieces ⟨isConst, isVolatile, base, ds⟩ =
        lead ++ (base.pieces ++ ds.flatMap Indirection.pieces) := by
    rw [TypeExpr.pieces, List.append_assoc _ base.pieces]
    refine ⟨_, ?_, rfl⟩
    cases isConst <;> cases isVolatile <;> simp
  have hname : BehindBase (⟨.ident, x⟩ :: rest) := behindBase_cons (by simp) hx
  obtain ⟨w, ws, hw, hkind, -⟩ := exists_start (t := ⟨isConst, isVolatile, base, ds⟩) h
  refine sees_nextKind.bind (sees_seesTypeLead.bind ?_)
  rw [if_pos]
  · refine Reads.andThen (a := ()) (reads_node ?_) (reads_pure true)
    rw [hpieces, List.map_append, List.map_append]
    refine Reads.bind (reads_advanceWhile sees_seesTypeLead ?_ fun l => ?_) ?_
    · intro w hw l ws
      rcases hlead w hw with hk | hk <;> simp [hk]
    · rcases hstart with hk | hk <;> simp [hps, hk, TokenKind.isClassKey]
    · refine reads_base h.1 ?_ fun l => reads_advanceWhile (sees_seesAny _) ?_ fun l => ?_
      · simpa using behindBase_declarators hname ds
      · intro w hw l ws
        simpa using Indirection.kinds_pieces ds w hw
      · simp
  · simp only [List.mem_cons, List.not_mem_nil, or_false] at hkind
    rcases hkind with hk | hk | hk | hk <;> simp [hw, hk]

/-! ## Members -/

theorem sees_seesScopedOperator : Sees seesScopedOperator fun l ws =>
    decide (l = .colonColon) && decide (kindAt 0 ws = .operatorKw) := by
  intro s
  change ((decide (s.last = .colonColon) && (sees .operatorKw s).1), s) = _
  rw [sees_sees .operatorKw s]

/-- A name in front of a `;`. -/
theorem reads_declaratorName (x : String) :
    Reads declaratorName last [.node .name [.word ⟨.ident, x⟩]] (⟨.semicolon, ";"⟩ :: rest)
      false := by
  refine reads_node (Reads.skip (reads_accept_other (by simp)) ?_)
  refine Reads.andThen (reads_loop_done ?_) (sees_seesScopedOperator.bind ?_)
  · refine sees_seesScopedOperator.bind ?_
    rw [if_neg (by simp)]
    refine Reads.skip (reads_accept_other (by simp)) ((reads_accept rfl).step ?_)
    rw [if_pos rfl]
    refine (sees_sees .lAngle).bind (Reads.ignoring (fun _ => rfl) fun ws => ?_)
    rw [if_neg (by simp)]
    exact reads_accept_other (by simp)
  · rw [if_neg (by simp)]
    exact reads_pure false

theorem reads_arraySuffixes (h : kindAt 0 rest ≠ .lBracket) :
    Reads arraySuffixes last [] rest () := by
  refine reads_loop_done ((sees_sees .lBracket).bind ?_)
  rw [if_neg (by simpa using h)]
  exact reads_pure false

/-- The `;` behind a field without an initialiser. -/
theorem reads_fieldRest :
    Reads fieldRest last [.word ⟨.semicolon, ";"⟩] rest () := by
  refine (reads_arraySuffixes (by simp)).skip ((sees_sees .colon).bind ?_)
  rw [if_neg (by simp)]
  have hinitializer : Reads fieldInitializer last [] (⟨.semicolon, ";"⟩ :: rest) () :=
    sees_nextKind.bind (reads_pure ())
  have hdeclarators : Reads (loop do
      if ← accept .comma then
        declarator
        return true
      else return false) last [] (⟨.semicolon, ";"⟩ :: rest) () :=
    reads_loop_done ((reads_accept_other (by simp)).skip (reads_pure false))
  refine Reads.skip hinitializer (Reads.skip hdeclarators ?_)
  exact (reads_accept rfl).andThen (reads_pure ())

theorem reads_namedMember (x : String) :
    Reads namedMember last [.node .name [.word ⟨.ident, x⟩], .word ⟨.semicolon, ";"⟩] rest
      .field := by
  refine (reads_declaratorName x).step ((sees_sees .lAngle).bind ?_)
  rw [if_neg (by simp)]
  refine (sees_sees .lParen).bind ?_
  rw [if_neg (by simp)]
  exact reads_fieldRest.andThen (reads_pure NodeKind.field)

/-- The specifiers in front of a member that has none. -/
theorem reads_specifiers_none {w : Piece} {ws : List Piece}
    (hkind : w.kind ∈ [.ident, .colonColon, .constKw, .volatileKw])
    (htext : w.kind = .ident → w.text ∉ specifierWords) :
    Reads specifiers last [] (w :: ws) () := by
  refine reads_loop_done ((sees_seesAny _).bind ((sees_seesWord _).bind ?_))
  simp only [List.mem_cons, List.not_mem_nil, or_false] at hkind
  rw [if_neg]
  · refine (sees_seesPair _ _).bind ?_
    rw [if_neg]
    · exact reads_pure false
    · rcases hkind with hk | hk | hk | hk <;> simp [hk]
  · rcases hkind with hk | hk | hk | hk <;> simp [hk, nextTextOf, htext]

/-- The parts of a variable. -/
def variableParts (t : TypeExpr) (x : String) : List Outline :=
  [.node .type (t.pieces.map .word), .node .name [.word ⟨.ident, x⟩], .word ⟨.semicolon, ";"⟩]

variable {t : TypeExpr} {x : String}

theorem reads_memberParts (h : t.WellFormed)
    (hlead : ∀ name ∈ t.leadingName?, name ∉ specifierWords) (hx : x ∉ fundamentalWords) :
    Reads memberParts last (variableParts t x) rest (some .field) := by
  obtain ⟨w, ws, hw, hkind, htext⟩ := exists_start h
  have hspecifier : w.kind = .ident → w.text ∉ specifierWords := by
    intro hident
    have hwords : ∀ v ∈ fundamentalWords, v ∉ specifierWords := by decide
    rcases htext hident with hv | hname
    · exact hwords _ hv
    · exact hlead _ hname
  have hstart : kindAt 0 (wordsAll (variableParts t x) ++ rest) = w.kind := by
    simp [variableParts, hw]
  refine Reads.ignoring (fun _ => rfl) fun start => ?_
  refine Reads.skip (a := ()) ?_ ((sees_sees .tilde).bind ?_)
  · rw [variableParts, wordsAll_cons, words_node, wordsAll_map_word, hw]
    exact reads_specifiers_none hkind hspecifier
  simp only [List.mem_cons, List.not_mem_nil, or_false] at hkind
  rw [if_neg (by rcases hkind with hk | hk | hk | hk <;> simp [hstart, hk])]
  refine (sees_sees .operatorKw).bind ?_
  rw [if_neg (by rcases hkind with hk | hk | hk | hk <;> simp [hstart, hk])]
  refine (reads_type h hx).step ?_
  rw [if_pos rfl]
  exact sees_nextKind.bind ((reads_namedMember x).andThen (reads_pure _))

/-- A member is a node of the kind that its parts make up. -/
theorem reads_member {kind : NodeKind} (h : Reads memberParts last os rest (some kind)) :
    Reads member last [.node kind os] rest () := by
  refine reads_passTrivia.skip fun s hlast hahead => ?_
  have hhere : Reads (nodeHere kind memberParts) last [.node kind os] rest (some kind) :=
    reads_nodeHere h
  have hnode := hhere s hlast hahead
  rw [wordsAll_cons, words_node, wordsAll_nil, List.append_nil] at hahead
  have hkind : (collect memberParts s).1.1 = some kind := (h { s with built := [] } hlast hahead).1
  have hcollect : collect memberParts s =
      ((some kind, (collect memberParts s).1.2), (collect memberParts s).2) :=
    Prod.ext (Prod.ext hkind rfl) rfl
  refine ⟨rfl, ?_⟩
  rw [Parser.bind_apply, hcollect]
  exact hnode.2

theorem reads_declaration (h : t.WellFormed)
    (hlead : ∀ name ∈ t.leadingName?, name ∉ specifierWords) (hx : x ∉ fundamentalWords)
    (depth : ℕ) :
    Reads (declaration (depth + 1)) last [.node .field (variableParts t x)] rest () := by
  obtain ⟨w, ws, hw, hkind, -⟩ := exists_start h
  have hstart : kindAt 0 (wordsAll [.node .field (variableParts t x)] ++ rest) = w.kind := by
    simp [variableParts, hw]
  have hmember : Reads member last [.node .field (variableParts t x)] rest () :=
    reads_member (reads_memberParts h hlead hx)
  refine sees_nextKind.bind ((sees_kindAhead 1).bind ?_)
  rw [hstart]
  simp only [List.mem_cons, List.not_mem_nil, or_false] at hkind
  rcases hkind with hk | hk | hk | hk <;> rw [hk] <;> exact hmember

/-! ## Files -/

/-- A declaration that moves a word, at the end of a file or in front of another one. -/
theorem reads_declarationRound {inner : Parser Unit} (h : Reads inner last os rest ())
    (hos : wordsAll os ≠ []) (hbrace : kindAt 0 (wordsAll os ++ rest) ≠ .rBrace) :
    Reads (declarationRound inner false) last os rest true := by
  have hne : (wordsAll os ++ rest).isEmpty = false := by
    rw [List.isEmpty_eq_false_iff]
    exact List.append_ne_nil_of_left_ne_nil hos rest
  refine sees_atEnd.bind ?_
  rw [if_neg (by simp [hne])]
  refine (sees_sees .rBrace).bind ?_
  rw [if_neg (by simpa using hbrace)]
  intro s hlast hahead
  obtain ⟨-, hbuilds⟩ := h s hlast hahead
  have hlt := hbuilds.length_lt hos
  have hremaining (u : ParseState) : remaining u = (u.rest.length, u) := rfl
  simp only [Parser.bind_apply, hremaining]
  rw [if_neg (by omega)]
  exact ⟨rfl, hbuilds⟩

theorem reads_declarations_end {inner : Parser Unit} :
    Reads (declarations inner false) last [] [] () := by
  refine reads_loop_done (sees_atEnd.bind ?_)
  rw [if_pos (by simp)]
  exact reads_pure false

/-- A file of one variable. -/
theorem reads_variable (h : t.WellFormed)
    (hlead : ∀ name ∈ t.leadingName?, name ∉ specifierWords) (hx : x ∉ fundamentalWords) :
    Reads (do declarations (nested declaration) false; passTrivia) last
      [.node .field (variableParts t x)] [] () := by
  obtain ⟨w, ws, hw, hkind, -⟩ := exists_start h
  have hnested (l : TokenKind) :
      Reads (nested declaration) l [.node .field (variableParts t x)] [] () :=
    Reads.ignoring (fun _ => rfl) fun n => reads_declaration h hlead hx n
  have hround := reads_declarationRound (hnested last) (by simp [variableParts]) (by
    simp only [List.mem_cons, List.not_mem_nil, or_false] at hkind
    rcases hkind with hk | hk | hk | hk <;> simp [variableParts, hw, hk])
  refine Reads.andThen (a := ()) ?_ reads_passTrivia
  have hall := reads_loop_more hround (by simp [variableParts]) reads_declarations_end
  exact hall

end Grammar

/-! ## The variable -/

/-- The tokens of a text, each at the origin that it is given. -/
def SourceToken.scan (origin : Token → Origin) (text : String) : List SourceToken :=
  (Token.scan text).map fun t => ⟨t.kind, t.text, origin t⟩

theorem wordsOf_scan (origin : Token → Origin) (text : String) :
    wordsOf (SourceToken.scan origin text) = piecesOf text := by
  rw [piecesOf, Token.scanWords, wordsOf, SourceToken.scan, List.filter_map, List.map_map]
  rfl

open Grammar in
/-- The words of a variable. -/
theorem pieces_variable {t : TypeExpr} (h : t.WellFormed) {x : String}
    (hx : Token.IsSingle .ident x) :
    piecesOf (t.text ++ " " ++ x ++ ";") = Outline.wordsAll (variableParts t x) := by
  have hsemicolon : Token.pieces [';'] = [⟨.semicolon, ";"⟩] := by
    have hnext : Token.next ([';'] ++ []) = (.semicolon, 1) := rfl
    have hscan := Token.pieces_append (by decide) hnext
    rwa [List.append_nil, Token.pieces_nil] at hscan
  have hstops : Pattern.Stops Pattern.isWordChar [';'] := Pattern.stops_cons rfl
  have hname := hx.pieces_ident hstops
  have htype := TypeExpr.pieces_text h (' ' :: (x.toList ++ [';'])) (Pattern.stops_cons rfl)
  rw [Token.pieces_space rfl, hname, hsemicolon] at htype
  have htext : (t.text ++ " " ++ x ++ ";").toList =
      t.text.toList ++ ' ' :: (x.toList ++ [';']) := by
    simp
  rw [piecesOf_eq, htext, htype]
  simp [variableParts]

open Grammar in
/-- A variable of the printed form of a well-formed type, under a name that is no word of a
fundamental type, has no fault. It is the only declaration, a field of that name, and the
spelling of its type is read as the type. The type must not start with a name that is a
specifier. -/
theorem SyntaxTree.parse_variable {t : TypeExpr} (h : t.WellFormed)
    (hlead : ∀ name ∈ t.leadingName?, name ∉ specifierWords) {x : String}
    (hx : Token.IsSingle .ident x) (hword : x ∉ fundamentalWords) (origin : Token → Origin) :
    let tree := SyntaxTree.parse (SourceToken.scan origin (t.text ++ " " ++ x ++ ";"))
    tree.errors = [] ∧ tree.root.outline = [.node .sourceFile [.node .field (variableParts t x)]] ∧
      ∃ info decl name spelling, Declaration.ofChildren [] tree.root.children = [.field info decl] ∧
        decl.name = some name ∧ name.text = x ∧ name.simple = x ∧
        decl.type = some spelling ∧ TypeExpr.parse spelling = .ok t := by
  let tokens := SourceToken.scan origin (t.text ++ " " ++ x ++ ";")
  let start : ParseState := { rest := tokens, final := tokens.getLast?.map (·.origin) }
  let body : Parser Unit := do
    declarations (Parser.nested declaration) false
    Parser.passTrivia
  have hahead : start.ahead = Outline.wordsAll [.node .field (variableParts t x)] ++ [] := by
    rw [ParseState.ahead, wordsOf_scan, pieces_variable h hx]
    simp
  obtain ⟨-, ⟨trees, -, hbuilt, houtline⟩, -, herrors⟩ :=
    reads_variable h hlead hword start rfl hahead
  have hchildren : (body start).2.built.reverse = trees := by
    rw [hbuilt]
    simp [start]
  have hparse : SyntaxTree.parse tokens = ⟨.node .sourceFile trees, []⟩ := by
    rw [← hchildren]
    exact congrArg (SyntaxTree.mk _) (congrArg List.reverse herrors)
  obtain ⟨above, cs, hcs, hdeclarations⟩ := Declaration.exists_ofChildren houtline []
  obtain ⟨typeTrees, htype, hwords⟩ := Tree.exists_nodeOf? [] hcs (by simp)
  obtain ⟨nameTrees, hname, hident⟩ := Tree.exists_nodeOf? [_] hcs
    (by simp [Outline.IsNode])
  have hfield : (FieldDecl.ofChildren cs).name = some (DeclName.ofTree (.node .name nameTrees)) :=
    congrArg (Option.map DeclName.ofTree) hname
  have hspelling : (FieldDecl.ofChildren cs).type = some (Spelling.ofPieces t.pieces) := by
    have hnode := congrArg (Option.map Tree.spelling) htype
    rw [Option.map_some, Tree.spelling_eq, Tree.outline_node, hwords, Outline.wordsAll_cons,
      Outline.words_node, Outline.wordsAll_map_word, Outline.wordsAll_nil, List.append_nil] at hnode
    exact hnode
  obtain ⟨htext, hsimple⟩ := DeclName.ofTree_word hident
  intro tree
  have htree : tree = ⟨.node .sourceFile trees, []⟩ := hparse
  rw [htree]
  exact ⟨rfl, by rw [Tree.outline_node, houtline], _, _, _, _, hdeclarations, hfield, htext,
    hsimple, hspelling, TypeExpr.parse_spelling h⟩

/-- Nested template arguments of every sort, glued declarators, and a `;` right behind the name. -/
theorem SyntaxTree.parse_variable_nested : ∃ t : TypeExpr, t.WellFormed ∧
    t.text = "Map<unsigned long, Box<::true* const&, -0x3u>>*&&" ∧
    ∃ info decl name spelling, Declaration.ofChildren [] (SyntaxTree.parse
        (SourceToken.scan (fun token => ⟨0, token.offset⟩)
          (t.text ++ " " ++ "m" ++ ";"))).root.children = [.field info decl] ∧
      decl.name = some name ∧ name.text = "m" ∧ name.simple = "m" ∧
      decl.type = some spelling ∧ TypeExpr.parse spelling = .ok t := by
  have hident {text : String} (hne : text.toList ≠ [])
      (h : Token.next text.toList = (.ident, text.toList.length)) : Token.IsSingle .ident text :=
    Token.isSingle_of_next hne h
  have hdigits : Token.IsSingle .intNumber "0x3u" := Token.isSingle_of_next (by decide) rfl
  have hlong : TypeExpr.IsCanonical "unsigned long" :=
    ⟨["unsigned", "long"], by decide, by decide, by decide⟩
  let inner : TypeExpr := ⟨false, false, .named true [.plain "true"], [.pointer true, .lvalueRef]⟩
  have hinner : inner.WellFormed :=
    ⟨⟨by simp, ⟨hident (by decide) rfl, trivial⟩, by simp⟩,
      by simp [Indirection.Separated, Indirection.isRef]⟩
  let box : TypeExpr := .ofBase (.named false [.applied "Box" [.type inner, .value "-0x3u"]])
  have hbox : box.WellFormed :=
    ⟨⟨by simp, ⟨⟨hident (by decide) rfl, ⟨hinner, by simp [inner, TypeExpr.leadingName?]⟩,
      .inl ⟨"0x3u", hdigits, .inr rfl⟩, trivial⟩, trivial⟩, by decide⟩, .nil⟩
  let map : TypeExpr := ⟨false, false, .named false [.applied "Map"
    [.type (.fundamental "unsigned long"), .type box]], [.pointer false, .rvalueRef]⟩
  have hmap : map.WellFormed :=
    ⟨⟨by simp, ⟨⟨hident (by decide) rfl, ⟨⟨hlong, .nil⟩, by simp [TypeExpr.fundamental,
        TypeExpr.ofBase, TypeExpr.leadingName?]⟩, ⟨hbox, by decide⟩, trivial⟩, trivial⟩, by decide⟩,
      by simp [Indirection.Separated, Indirection.isRef]⟩
  have hfield := SyntaxTree.parse_variable hmap (by decide) (hident (by decide) rfl : Token.IsSingle
    .ident "m") (by decide) fun token => ⟨0, token.offset⟩
  exact ⟨map, hmap, by decide, hfield.2.2⟩

end Bindery
