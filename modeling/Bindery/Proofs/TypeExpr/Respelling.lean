import Bindery.Proofs.TypeExpr.RoundTrip

/-!
# Reading a type from the spelling of its tokens

A tree spells its tokens by rules of their own, which put fewer blanks between them than the
printed form of a type has. The tokens are cut where they were all the same, since nothing that
stands in a type without a blank goes on with what stands in front of it. So the spelling of the
tokens of a well-formed type is read as that type.

## Main definitions

* `Spelling.Respells`: a list of tokens is what its spelling is cut into.

## Main statements

* `TypeExpr.parse_spelling`: the spelling of the tokens of a type is read as the type.
-/
namespace Bindery
namespace Spelling

/-! ## Spelled tokens -/

/-- The characters behind a token of a kind. -/
def tail (kind : TokenKind) (ps : List Piece) : List Char := (String.join (behind kind ps)).toList

@[simp] theorem tail_nil (kind : TokenKind) : tail kind [] = [] := by simp [tail, behind]

theorem toList_ofPieces_cons (p : Piece) (ps : List Piece) :
    (ofPieces (p :: ps)).toList = p.text.toList ++ tail p.kind ps := by
  simp [ofPieces, tail, String.toList_join]

theorem tail_cons (kind : TokenKind) (p : Piece) (ps : List Piece) :
    tail kind (p :: ps) =
      (if needsBlank kind p.kind then [' '] else []) ++ (ofPieces (p :: ps)).toList := by
  rw [toList_ofPieces_cons, tail, behind]
  split <;> simp [tail, String.toList_join]

/-- The blanks between tokens make no difference. -/
theorem pieces_tail (kind : TokenKind) (ps : List Piece) :
    Token.pieces (tail kind ps) = Token.pieces (ofPieces ps).toList := by
  cases ps with
  | nil => rfl
  | cons p ps =>
    rw [tail_cons]
    split
    · exact Token.pieces_space (c := ' ') rfl _
    · rfl

/-- The tokens are what their spelling is cut into. -/
def Respells (ps : List Piece) : Prop := Token.pieces (ofPieces ps).toList = ps

/-- A first token that is no word starts with a character that neither a word nor a number goes
on with. -/
def Glues (ps : List Piece) : Prop := ∀ p ∈ ps.head?, isWordLike p.kind = false →
  ∃ c cs, p.text.toList = c :: cs ∧ Pattern.isNumberChar c = false

variable {ps : List Piece}

theorem respells_nil : Respells [] := by simp [Respells, ofPieces]

theorem glues_word {kind : TokenKind} (h : isWordLike kind = true) (text : String) :
    Glues (⟨kind, text⟩ :: ps) := by
  simp [Glues, h]

theorem glues_mark {p : Piece} {c : Char} {cs : List Char} (h : p.text.toList = c :: cs)
    (hc : Pattern.isNumberChar c = false) : Glues (p :: ps) := by
  intro q hq _
  obtain rfl := Option.some_inj.1 hq
  exact ⟨c, cs, h, hc⟩

/-- No word or number goes on with what stands behind it. -/
theorem Glues.stops_tail (h : Glues ps) {kind : TokenKind} (hkind : isWordLike kind = true) :
    Pattern.Stops Pattern.isNumberChar (tail kind ps) := by
  cases ps with
  | nil => exact Pattern.stops_nil _
  | cons p ps =>
    rw [tail_cons, needsBlank, hkind, Bool.true_and]
    cases hp : isWordLike p.kind with
    | true => exact Pattern.stops_cons rfl
    | false =>
      obtain ⟨c, cs, htext, hc⟩ := h p rfl hp
      rw [toList_ofPieces_cons, htext, Bool.false_or]
      split
      · exact Pattern.stops_cons rfl
      · exact Pattern.stops_cons hc

/-- One more token is cut off. -/
theorem Respells.cons (h : Respells ps) {p : Piece}
    (hscan : Token.pieces (p.text.toList ++ tail p.kind ps) =
      p :: Token.pieces (tail p.kind ps)) : Respells (p :: ps) := by
  rw [Respells, toList_ofPieces_cons, hscan, pieces_tail, h]

theorem Respells.word (h : Respells ps) (hglues : Glues ps) {kind : TokenKind} {text : String}
    (hword : Pattern.isWord text.toList = true) (hkind : Pattern.word.kindOf text.toList = kind)
    (hlike : isWordLike kind = true) (htrivia : kind.isTrivia = false) :
    Respells (⟨kind, text⟩ :: ps) := by
  refine h.cons ?_
  have hstops : Pattern.Stops Pattern.isWordChar (tail kind ps) :=
    (hglues.stops_tail hlike).mono fun c hc => by simp [Pattern.isNumberChar, hc]
  rw [Token.pieces_word hword hstops (by rw [hkind]; exact htrivia), hkind, String.ofList_toList]

theorem Respells.ident (h : Respells ps) (hglues : Glues ps) {text : String}
    (hsingle : Token.IsSingle .ident text) : Respells (⟨.ident, text⟩ :: ps) :=
  h.word hglues hsingle.isWord.1 hsingle.isWord.2 rfl rfl

theorem Respells.integer (h : Respells ps) (hglues : Glues ps) {text : String}
    (hsingle : Token.IsSingle .intNumber text) : Respells (⟨.intNumber, text⟩ :: ps) :=
  h.cons (hsingle.pieces_integer (hglues.stops_tail rfl))

theorem Respells.star (h : Respells ps) : Respells (⟨.star, "*"⟩ :: ps) :=
  h.cons (Token.pieces_star _)

theorem Respells.ampAmp (h : Respells ps) : Respells (⟨.ampAmp, "&&"⟩ :: ps) :=
  h.cons (Token.pieces_ampAmp _)

theorem Respells.comma (h : Respells ps) : Respells (⟨.comma, ","⟩ :: ps) :=
  h.cons (Token.pieces_comma _)

theorem Respells.lAngle (h : Respells ps) : Respells (⟨.lAngle, "<"⟩ :: ps) :=
  h.cons (Token.pieces_lAngle _)

theorem Respells.rAngle (h : Respells ps) : Respells (⟨.rAngle, ">"⟩ :: ps) :=
  h.cons (Token.pieces_rAngle _)

theorem Respells.colonColon (h : Respells ps) : Respells (⟨.colonColon, "::"⟩ :: ps) :=
  h.cons (Token.pieces_colonColon _)

theorem Respells.amp (h : Respells ps) (hstops : Pattern.Stops (· = '&') (tail .amp ps)) :
    Respells (⟨.amp, "&"⟩ :: ps) :=
  h.cons (Token.pieces_amp hstops)

theorem Respells.minus (h : Respells ps) (hstops : Pattern.Stops (· = '>') (tail .minus ps)) :
    Respells (⟨.minus, "-"⟩ :: ps) :=
  h.cons (Token.pieces_minus hstops)

/-! ## The parts of a type -/

/-- An argument ends here. -/
def Ends (rest : List Piece) : Prop := ∀ p ∈ rest.head?, p = ⟨.comma, ","⟩ ∨ p = ⟨.rAngle, ">"⟩

theorem ends_nil : Ends [] := by simp [Ends]

theorem ends_comma : Ends (⟨.comma, ","⟩ :: ps) := by simp [Ends]

theorem ends_rAngle : Ends (⟨.rAngle, ">"⟩ :: ps) := by simp [Ends]

theorem Ends.glues {rest : List Piece} (h : Ends rest) : Glues rest := by
  intro p hp _
  rcases h p hp with rfl | rfl
  · exact ⟨',', [], rfl, rfl⟩
  · exact ⟨'>', [], rfl, rfl⟩

theorem Ends.stops_amp {rest : List Piece} (h : Ends rest) :
    Pattern.Stops (· = '&') (tail .amp rest) := by
  cases rest with
  | nil => exact Pattern.stops_nil _
  | cons p ps =>
    rw [tail_cons, toList_ofPieces_cons]
    rcases h p rfl with rfl | rfl
    · exact Pattern.stops_cons rfl
    · exact Pattern.stops_cons rfl

variable {rest : List Piece}

theorem glues_declarators (hends : Ends rest) (ds : List Indirection) :
    Glues (ds.flatMap Indirection.pieces ++ rest) := by
  cases ds with
  | nil => exact hends.glues
  | cons d ds =>
    match d with
    | .pointer false => exact glues_mark (c := '*') rfl rfl
    | .pointer true => exact glues_mark (c := '*') rfl rfl
    | .lvalueRef => exact glues_mark (c := '&') rfl rfl
    | .rvalueRef => exact glues_mark (c := '&') rfl rfl

/-- Where no reference may follow, no ampersand does. -/
theorem stops_amp_declarators {d : Indirection} (hd : d.isRef = true) {ds : List Indirection}
    (h : Indirection.Separated (d :: ds)) (hends : Ends rest) :
    Pattern.Stops (· = '&') (tail .amp (ds.flatMap Indirection.pieces ++ rest)) := by
  cases ds with
  | nil => exact hends.stops_amp
  | cons e es =>
    have he : ¬(d.isRef = true ∧ e.isRef = true) := (List.isChain_cons_cons.1 h).1
    have hstar (ps : List Piece) : Pattern.Stops (· = '&') (tail .amp (⟨.star, "*"⟩ :: ps)) := by
      rw [tail_cons, toList_ofPieces_cons]
      exact Pattern.stops_cons rfl
    match e with
    | .pointer false => exact hstar _
    | .pointer true => exact hstar _
    | .lvalueRef => exact absurd ⟨hd, rfl⟩ he
    | .rvalueRef => exact absurd ⟨hd, rfl⟩ he

theorem respells_declarators {ds : List Indirection} (h : Indirection.Separated ds)
    (hrest : Respells rest) (hends : Ends rest) :
    Respells (ds.flatMap Indirection.pieces ++ rest) := by
  induction ds with
  | nil => exact hrest
  | cons d ds ih =>
    have hds := ih (List.IsChain.tail h)
    rw [List.flatMap_cons, List.append_assoc]
    match d with
    | .pointer false => exact hds.star
    | .pointer true =>
      exact (hds.word (glues_declarators hends ds) (by decide) (by decide) rfl rfl).star
    | .lvalueRef => exact hds.amp (stops_amp_declarators rfl h hends)
    | .rvalueRef => exact hds.ampAmp

theorem respells_words {words : List String} (h : ∀ w ∈ words, w ∈ Grammar.fundamentalWords)
    (hrest : Respells rest) (hglues : Glues rest) :
    Respells (words.map (⟨.ident, ·⟩) ++ rest) := by
  induction words with
  | nil => exact hrest
  | cons w words ih =>
    obtain ⟨hword, hkind⟩ := isWord_fundamentalWords w (h w (.head _))
    refine (ih fun v hv => h v (.tail _ hv)).word ?_ hword hkind rfl rfl
    cases words with
    | nil => exact hglues
    | cons v words => exact glues_word rfl v

theorem respells_constant {text : String} (h : TemplateArg.IsConstant text)
    (hrest : Respells rest) (hglues : Glues rest) : Respells (piecesOf text ++ rest) := by
  have hinteger {digits : String} (hdigits : Token.IsSingle .intNumber digits) :
      piecesOf digits = [⟨.intNumber, digits⟩] := by
    have hscan := hdigits.pieces_integer (Pattern.stops_nil _)
    rwa [List.append_nil, Token.pieces_nil] at hscan
  have htruth {word : String} (hword : Pattern.isWord word.toList = true)
      (hkind : Pattern.word.kindOf word.toList = .ident) :
      Respells (piecesOf word ++ rest) := by
    have hscan := Token.pieces_word hword (Pattern.stops_nil _) (by rw [hkind]; rfl)
    rw [List.append_nil, hkind, String.ofList_toList, Token.pieces_nil] at hscan
    rw [piecesOf_eq, hscan]
    exact hrest.word hglues hword hkind rfl rfl
  rcases h with ⟨digits, hdigits, rfl | rfl⟩ | rfl | rfl
  · rw [hinteger hdigits]
    exact hrest.integer hglues hdigits
  · obtain ⟨c, cs, htext, hc⟩ := hdigits.exists_digit
    have hsign (more : List Char) : Pattern.Stops (· = '>') (digits.toList ++ more) := by
      rw [htext]
      refine Pattern.stops_cons (decide_eq_false ?_)
      rintro rfl
      exact absurd hc (by decide)
    have hpieces : piecesOf ("-" ++ digits) = [⟨.minus, "-"⟩, ⟨.intNumber, digits⟩] := by
      have hscan := Token.pieces_minus (hsign [])
      rw [List.append_nil] at hscan
      rw [piecesOf_eq, String.toList_append]
      exact hscan.trans (congrArg _ (hinteger hdigits))
    rw [hpieces]
    refine (hrest.integer hglues hdigits).minus ?_
    rw [tail_cons, toList_ofPieces_cons]
    exact hsign _
  · exact htruth (by decide) (by decide)
  · exact htruth (by decide) (by decide)

end Spelling

open Spelling

/-- What stands in front of a base may be glued to it. -/
theorem TypeBase.glues_pieces {base : TypeBase} (h : base.WellFormed) (rest : List Piece) :
    Glues (base.pieces ++ rest) := by
  cases base with
  | fundamental name =>
    rw [TypeBase.WellFormed] at h
    obtain ⟨w, words, -, hpieces, -⟩ := h.exists_words
    rw [TypeBase.pieces, hpieces]
    exact glues_word rfl w
  | named isGlobal segments =>
    rw [TypeBase.WellFormed] at h
    obtain ⟨s, ss, rfl⟩ := List.exists_cons_of_ne_nil h.1
    obtain ⟨ps, hps⟩ := NameSegment.piecesAll_eq_cons s ss
    rw [TypeBase.pieces, hps]
    cases isGlobal with
    | false => exact glues_word rfl s.name
    | true => exact glues_mark (c := ':') rfl rfl

mutual
/-- The tokens of a well-formed type are what their spelling is cut into. -/
theorem TypeExpr.respells_pieces : ∀ {t : TypeExpr}, t.WellFormed → ∀ {rest : List Piece},
    Respells rest → Ends rest → Respells (t.pieces ++ rest)
  | ⟨isConst, isVolatile, base, ds⟩, h, rest, hrest, hends => by
    rw [TypeExpr.WellFormed] at h
    have hbase := TypeBase.respells_pieces h.1 (respells_declarators h.2 hrest hends)
      (glues_declarators hends ds)
    have hglues := TypeBase.glues_pieces h.1 (ds.flatMap Indirection.pieces ++ rest)
    rw [TypeExpr.pieces]
    simp only [List.append_assoc]
    cases isVolatile with
    | false => cases isConst with
      | false => exact hbase
      | true => exact hbase.word hglues (by decide) (by decide) rfl rfl
    | true =>
      have hvolatile : Respells (⟨.volatileKw, "volatile"⟩ ::
          (base.pieces ++ (ds.flatMap Indirection.pieces ++ rest))) :=
        hbase.word hglues (by decide) rfl rfl rfl
      cases isConst with
      | false => exact hvolatile
      | true => exact hvolatile.word (glues_word rfl _) (by decide) (by decide) rfl rfl

theorem TypeBase.respells_pieces : ∀ {base : TypeBase}, base.WellFormed → ∀ {rest : List Piece},
    Respells rest → Glues rest → Respells (base.pieces ++ rest)
  | .fundamental name, h, rest, hrest, hglues => by
    rw [TypeBase.WellFormed] at h
    obtain ⟨w, words, hwords, hpieces, -⟩ := h.exists_words
    rw [TypeBase.pieces, hpieces]
    exact respells_words hwords hrest hglues
  | .named isGlobal segments, h, rest, hrest, hglues => by
    rw [TypeBase.WellFormed] at h
    have hsegments := NameSegment.respells_piecesAll h.2.1 hrest hglues
    rw [TypeBase.pieces, List.append_assoc]
    cases isGlobal with
    | false => exact hsegments
    | true => exact hsegments.colonColon

theorem NameSegment.respells_pieces : ∀ {s : NameSegment}, s.WellFormed → ∀ {rest : List Piece},
    Respells rest → Glues rest → Respells (s.pieces ++ rest)
  | .plain name, h, rest, hrest, hglues => by
    rw [NameSegment.WellFormed] at h
    exact hrest.ident hglues h
  | .applied name args, h, rest, hrest, hglues => by
    rw [NameSegment.WellFormed] at h
    have hargs := TemplateArg.respells_piecesAll h.2 hrest.rAngle ends_rAngle
    rw [NameSegment.pieces]
    simp only [List.cons_append, List.append_assoc, List.nil_append]
    exact hargs.lAngle.ident (glues_mark (c := '<') rfl rfl) h.1

theorem NameSegment.respells_piecesAll : ∀ {ss : List NameSegment},
    NameSegment.AllWellFormed ss → ∀ {rest : List Piece}, Respells rest → Glues rest →
    Respells (NameSegment.piecesAll ss ++ rest)
  | [], _, rest, hrest, _ => hrest
  | [s], h, rest, hrest, hglues => by
    rw [NameSegment.AllWellFormed] at h
    exact NameSegment.respells_pieces h.1 hrest hglues
  | s :: s' :: ss, h, rest, hrest, hglues => by
    rw [NameSegment.AllWellFormed] at h
    have htail := NameSegment.respells_piecesAll h.2 hrest hglues
    rw [NameSegment.piecesAll_cons_cons, List.append_assoc]
    exact NameSegment.respells_pieces h.1 htail.colonColon (glues_mark (c := ':') rfl rfl)

theorem TemplateArg.respells_pieces : ∀ {a : TemplateArg}, a.WellFormed → ∀ {rest : List Piece},
    Respells rest → Ends rest → Respells (a.pieces ++ rest)
  | .type t, h, rest, hrest, hends => by
    rw [TemplateArg.WellFormed] at h
    exact TypeExpr.respells_pieces h.1 hrest hends
  | .value text, h, rest, hrest, hends => by
    rw [TemplateArg.WellFormed] at h
    exact respells_constant h hrest hends.glues

theorem TemplateArg.respells_piecesAll : ∀ {as : List TemplateArg},
    TemplateArg.AllWellFormed as → ∀ {rest : List Piece}, Respells rest → Ends rest →
    Respells (TemplateArg.piecesAll as ++ rest)
  | [], _, rest, hrest, _ => hrest
  | [a], h, rest, hrest, hends => by
    rw [TemplateArg.AllWellFormed] at h
    exact TemplateArg.respells_pieces h.1 hrest hends
  | a :: a' :: as, h, rest, hrest, hends => by
    rw [TemplateArg.AllWellFormed] at h
    have htail := TemplateArg.respells_piecesAll h.2 hrest hends
    rw [TemplateArg.piecesAll_cons_cons, List.append_assoc]
    exact TemplateArg.respells_pieces h.1 htail.comma ends_comma
end

/-- Reading the spelling of the tokens of a well-formed type gives the type. -/
theorem TypeExpr.parse_spelling {t : TypeExpr} (h : t.WellFormed) :
    TypeExpr.parse (Spelling.ofPieces t.pieces) = .ok t := by
  have hpieces : piecesOf (Spelling.ofPieces t.pieces) = t.pieces := by
    have hscan := TypeExpr.respells_pieces h respells_nil ends_nil
    rwa [List.append_nil] at hscan
  have hread := TypeExpr.read_pieces h (readDepth t.pieces) [] (by rw [readDepth]; omega) rfl
  rw [List.append_nil] at hread
  simp only [TypeExpr.parse, hpieces, hread]

end Bindery
