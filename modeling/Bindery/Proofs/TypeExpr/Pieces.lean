import Bindery.Proofs.Token.Number
import Bindery.TypeExpr.Reader
import Mathlib.Data.List.Chain

/-!
# The tokens of a printed type

A type prints as a text, and a text is read by its tokens. This module gives the tokens of the
printed form part by part, and shows that scanning the text yields exactly those: glued
declarators, closing angle brackets and signs are cut where the parts meet. Not every value of
`TypeExpr` is the reading of a text, so the types are restricted to the well-formed ones.

## Main definitions

* `TypeExpr.WellFormed`: the types that reading can produce from their own text.
* `TypeExpr.pieces`: the tokens of the printed form.
-/
namespace Bindery

/-! ## Well-formed types -/

/-- The canonical spelling of some words of fundamental types, from those very words. -/
def TypeExpr.IsCanonical (name : String) : Prop :=
  ∃ words : List String, (∀ w ∈ words, w ∈ Grammar.fundamentalWords) ∧
    " ".intercalate words = name ∧ canonical words = name

/-- No reference follows a reference. -/
def Indirection.Separated (ds : List Indirection) : Prop :=
  ds.IsChain fun a b => ¬ (a.isRef = true ∧ b.isRef = true)

/-- A value that is written as an integer, with or without a sign, or as a truth value. -/
def TemplateArg.IsConstant (text : String) : Prop :=
  (∃ digits, Token.IsSingle .intNumber digits ∧ (text = digits ∨ text = "-" ++ digits)) ∨
    text = "true" ∨ text = "false"

/-- The name that the printed form of a type starts with, if it starts with one. -/
def TypeExpr.leadingName? : TypeExpr → Option String
  | ⟨false, false, .named false (s :: _), _⟩ => some s.name
  | _ => none

mutual
/-- The base is well-formed, and no reference follows a reference. -/
def TypeExpr.WellFormed : TypeExpr → Prop
  | ⟨_, _, base, declarators⟩ => base.WellFormed ∧ Indirection.Separated declarators

/-- A canonical fundamental type, or a path that does not start like one. -/
def TypeBase.WellFormed : TypeBase → Prop
  | .fundamental name => TypeExpr.IsCanonical name
  | .named isGlobal segments =>
    segments ≠ [] ∧ NameSegment.AllWellFormed segments ∧
      (isGlobal = false → ∀ s ∈ segments.head?, s.name ∉ Grammar.fundamentalWords)

/-- The name is an identifier and the arguments are well-formed. -/
def NameSegment.WellFormed : NameSegment → Prop
  | .plain name => Token.IsSingle .ident name
  | .applied name args => Token.IsSingle .ident name ∧ TemplateArg.AllWellFormed args

/-- A well-formed type that does not start like a value, or a constant. -/
def TemplateArg.WellFormed : TemplateArg → Prop
  | .type t => t.WellFormed ∧ ∀ name ∈ t.leadingName?, name ∉ TemplateArg.valueWords
  | .value text => TemplateArg.IsConstant text

/-- All segments are well-formed. -/
def NameSegment.AllWellFormed : List NameSegment → Prop
  | [] => True
  | s :: ss => s.WellFormed ∧ NameSegment.AllWellFormed ss

/-- All arguments are well-formed. -/
def TemplateArg.AllWellFormed : List TemplateArg → Prop
  | [] => True
  | a :: as => a.WellFormed ∧ TemplateArg.AllWellFormed as
end

/-! ## The tokens -/

/-- The tokens of a declarator. -/
def Indirection.pieces : Indirection → List Piece
  | pointer false => [⟨.star, "*"⟩]
  | pointer true => [⟨.star, "*"⟩, ⟨.constKw, "const"⟩]
  | lvalueRef => [⟨.amp, "&"⟩]
  | rvalueRef => [⟨.ampAmp, "&&"⟩]

mutual
/-- The tokens of a type. -/
def TypeExpr.pieces : TypeExpr → List Piece
  | ⟨isConst, isVolatile, base, declarators⟩ =>
    (if isConst then [⟨.constKw, "const"⟩] else []) ++
      (if isVolatile then [⟨.volatileKw, "volatile"⟩] else []) ++
      base.pieces ++ declarators.flatMap Indirection.pieces

/-- The tokens of a base. -/
def TypeBase.pieces : TypeBase → List Piece
  | .fundamental name => piecesOf name
  | .named isGlobal segments =>
    (if isGlobal then [⟨.colonColon, "::"⟩] else []) ++ NameSegment.piecesAll segments

/-- The tokens of a segment. -/
def NameSegment.pieces : NameSegment → List Piece
  | .plain name => [⟨.ident, name⟩]
  | .applied name args =>
    ⟨.ident, name⟩ :: ⟨.lAngle, "<"⟩ :: (TemplateArg.piecesAll args ++ [⟨.rAngle, ">"⟩])

/-- The tokens of an argument. -/
def TemplateArg.pieces : TemplateArg → List Piece
  | .type t => t.pieces
  | .value text => piecesOf text

/-- The tokens of a path. -/
def NameSegment.piecesAll : List NameSegment → List Piece
  | [] => []
  | [s] => s.pieces
  | s :: ss => s.pieces ++ ⟨.colonColon, "::"⟩ :: NameSegment.piecesAll ss

/-- The tokens of a list of arguments. -/
def TemplateArg.piecesAll : List TemplateArg → List Piece
  | [] => []
  | [a] => a.pieces
  | a :: as => a.pieces ++ ⟨.comma, ","⟩ :: TemplateArg.piecesAll as
end

theorem NameSegment.piecesAll_cons_cons (s s' : NameSegment) (ss : List NameSegment) :
    NameSegment.piecesAll (s :: s' :: ss) =
      s.pieces ++ ⟨.colonColon, "::"⟩ :: NameSegment.piecesAll (s' :: ss) := rfl

theorem TemplateArg.piecesAll_cons_cons (a a' : TemplateArg) (as : List TemplateArg) :
    TemplateArg.piecesAll (a :: a' :: as) =
      a.pieces ++ ⟨.comma, ","⟩ :: TemplateArg.piecesAll (a' :: as) := rfl

/-! ## Scanning the parts -/

theorem piecesOf_eq (text : String) : piecesOf text = Token.pieces text.toList := rfl

/-- A character that the end of a type could go on with. -/
def isTypeChar (c : Char) : Bool := Pattern.isNumberChar c || c = '&'

theorem isTypeChar_of_isNumberChar (c : Char) (h : Pattern.isNumberChar c = true) :
    isTypeChar c = true := by
  simp [isTypeChar, h]

theorem isTypeChar_of_isWordChar (c : Char) (h : Pattern.isWordChar c = true) :
    isTypeChar c = true := by
  simp [isTypeChar, Pattern.isNumberChar, h]

theorem pieces_const (isConst : Bool) (rest : List Char) :
    Token.pieces ((if isConst then "const " else "").toList ++ rest) =
      (if isConst then [⟨.constKw, "const"⟩] else []) ++ Token.pieces rest := by
  cases isConst with
  | false => rfl
  | true => exact Token.pieces_word_blank (w := "const".toList) (by decide) (by decide) rest

theorem pieces_volatile (isVolatile : Bool) (rest : List Char) :
    Token.pieces ((if isVolatile then "volatile " else "").toList ++ rest) =
      (if isVolatile then [⟨.volatileKw, "volatile"⟩] else []) ++ Token.pieces rest := by
  cases isVolatile with
  | false => rfl
  | true => exact Token.pieces_word_blank (w := "volatile".toList) (by decide) (by decide) rest

/-! ### Declarators -/

namespace Indirection

/-- No declarator starts like a word. -/
theorem stops_isWordChar_text (ds : List Indirection) {rest : List Char}
    (hrest : Pattern.Stops Pattern.isWordChar rest) :
    Pattern.Stops Pattern.isWordChar ((String.join (ds.map text)).toList ++ rest) := by
  cases ds with
  | nil => simpa using hrest
  | cons d ds =>
      rw [List.map_cons, String.toList_join, List.flatMap_cons, List.append_assoc]
      match d with
      | pointer false => exact Pattern.stops_cons rfl
      | pointer true => exact Pattern.stops_cons rfl
      | lvalueRef => exact Pattern.stops_cons rfl
      | rvalueRef => exact Pattern.stops_cons rfl

/-- Where no reference may follow, no ampersand does. -/
theorem stops_amp_text {d : Indirection} (hd : d.isRef = true) {ds : List Indirection}
    (h : Separated (d :: ds)) {rest : List Char} (hrest : Pattern.Stops (· = '&') rest) :
    Pattern.Stops (· = '&') ((String.join (ds.map text)).toList ++ rest) := by
  cases ds with
  | nil => simpa using hrest
  | cons e es =>
      have he : ¬ (d.isRef = true ∧ e.isRef = true) := (List.isChain_cons_cons.mp h).1
      rw [List.map_cons, String.toList_join, List.flatMap_cons, List.append_assoc]
      match e with
      | pointer false => exact Pattern.stops_cons rfl
      | pointer true => exact Pattern.stops_cons rfl
      | lvalueRef => exact absurd ⟨hd, rfl⟩ he
      | rvalueRef => exact absurd ⟨hd, rfl⟩ he

/-- The tokens of declarators behind each other. -/
theorem pieces_text {ds : List Indirection} (h : Separated ds) {rest : List Char}
    (hrest : Pattern.Stops isTypeChar rest) :
    Token.pieces ((String.join (ds.map text)).toList ++ rest) =
      ds.flatMap Indirection.pieces ++ Token.pieces rest := by
  induction ds with
  | nil => simp
  | cons d ds ih =>
      have htext : (String.join ((d :: ds).map text)).toList ++ rest =
          d.text.toList ++ ((String.join (ds.map text)).toList ++ rest) := by
        simp [String.toList_join]
      have hword := stops_isWordChar_text ds (hrest.mono isTypeChar_of_isWordChar)
      have hamp : Pattern.Stops (· = '&') rest :=
        hrest.mono fun c hc => by simp [isTypeChar, hc]
      rw [htext, List.flatMap_cons, List.append_assoc, ← ih (List.IsChain.tail h)]
      match d with
      | pointer false => exact Token.pieces_star _
      | pointer true =>
          have hconst := Token.pieces_word (w := "const".toList) (by decide) hword (by decide)
          calc Token.pieces ('*' :: ' ' :: ("const".toList ++ _))
              = ⟨.star, "*"⟩ :: Token.pieces ("const".toList ++ _) := by
                rw [Token.pieces_star, Token.pieces_space (by decide)]
            _ = _ := by rw [hconst]; rfl
      | lvalueRef => exact Token.pieces_amp (stops_amp_text rfl h hamp)
      | rvalueRef => exact Token.pieces_ampAmp _

end Indirection

/-! ### Fundamental types -/

/-- The words of fundamental types are identifiers. -/
theorem isWord_fundamentalWords : ∀ w ∈ Grammar.fundamentalWords,
    Pattern.isWord w.toList = true ∧ Pattern.word.kindOf w.toList = .ident := by
  decide

/-- The tokens of words with blanks between them. -/
theorem pieces_intercalate {words : List String} (hne : words ≠ [])
    (h : ∀ w ∈ words, w ∈ Grammar.fundamentalWords) {rest : List Char}
    (hrest : Pattern.Stops Pattern.isWordChar rest) :
    Token.pieces ((" ".intercalate words).toList ++ rest) =
      words.map (⟨.ident, ·⟩) ++ Token.pieces rest := by
  induction words with
  | nil => exact absurd rfl hne
  | cons w words ih =>
      obtain ⟨hword, hkind⟩ := isWord_fundamentalWords w (h w List.mem_cons_self)
      have htrivia : (Pattern.word.kindOf w.toList).isTrivia = false := by rw [hkind]; rfl
      cases words with
      | nil =>
          rw [String.intercalate_singleton, Token.pieces_word hword hrest htrivia, hkind,
            String.ofList_toList]
          rfl
      | cons w' words =>
          have htext : (" ".intercalate (w :: w' :: words)).toList ++ rest =
              w.toList ++ ' ' :: ((" ".intercalate (w' :: words)).toList ++ rest) := by
            simp [String.intercalate_cons_cons]
          rw [htext, Token.pieces_word_blank hword htrivia, hkind, String.ofList_toList,
            ih (by simp) fun v hv => h v (List.mem_cons_of_mem w hv)]
          rfl

theorem TypeExpr.IsCanonical.pieces_text {name : String} (h : IsCanonical name)
    {rest : List Char} (hrest : Pattern.Stops Pattern.isWordChar rest) :
    Token.pieces (name.toList ++ rest) = piecesOf name ++ Token.pieces rest := by
  obtain ⟨words, hwords, rfl, hcanonical⟩ := h
  have hne : words ≠ [] := by
    rintro rfl
    exact absurd hcanonical (by decide)
  have halone := pieces_intercalate hne hwords (Pattern.stops_nil Pattern.isWordChar)
  rw [List.append_nil, Token.pieces_nil, List.append_nil] at halone
  rw [pieces_intercalate hne hwords hrest, piecesOf_eq, halone]

/-! ### Constants -/

namespace TemplateArg

/-- The tokens that a constant is made of. -/
inductive ConstantPieces : String → List Piece → Prop where
  | integer (digits : String) : ConstantPieces digits [⟨.intNumber, digits⟩]
  | negative (digits : String) :
      ConstantPieces ("-" ++ digits) [⟨.minus, "-"⟩, ⟨.intNumber, digits⟩]
  | truth {word : String} (h : word ∈ valueWords) : ConstantPieces word [⟨.ident, word⟩]

/-- A constant is cut into its tokens whatever follows that no number goes on with. -/
theorem IsConstant.exists_pieces {text : String} (h : IsConstant text) :
    ∃ ps, ConstantPieces text ps ∧ ∀ rest, Pattern.Stops Pattern.isNumberChar rest →
      Token.pieces (text.toList ++ rest) = ps ++ Token.pieces rest := by
  have htruth {word : String} (hvalue : word ∈ valueWords)
      (hword : Pattern.isWord word.toList = true)
      (hkind : Pattern.word.kindOf word.toList = .ident) :
      ∃ ps, ConstantPieces word ps ∧ ∀ rest, Pattern.Stops Pattern.isNumberChar rest →
        Token.pieces (word.toList ++ rest) = ps ++ Token.pieces rest := by
    refine ⟨_, .truth hvalue, fun rest hrest => ?_⟩
    have hstops : Pattern.Stops Pattern.isWordChar rest :=
      hrest.mono fun c hc => by simp [Pattern.isNumberChar, hc]
    rw [Token.pieces_word hword hstops (by rw [hkind]; rfl), hkind, String.ofList_toList]
    rfl
  rcases h with ⟨digits, hdigits, rfl | rfl⟩ | rfl | rfl
  · exact ⟨_, .integer _, fun rest hrest => hdigits.pieces_integer hrest⟩
  · refine ⟨_, .negative digits, fun rest hrest => ?_⟩
    obtain ⟨c, cs, htext, hc⟩ := hdigits.exists_digit
    have harrow : Pattern.Stops (· = '>') (digits.toList ++ rest) := by
      rw [htext]
      refine Pattern.stops_cons (decide_eq_false ?_)
      rintro rfl
      exact absurd hc (by decide)
    have hminus : ("-" ++ digits).toList ++ rest = '-' :: (digits.toList ++ rest) := by simp
    rw [hminus, Token.pieces_minus harrow, hdigits.pieces_integer hrest]
    rfl
  · exact htruth (by decide) (by decide) (by decide)
  · exact htruth (by decide) (by decide) (by decide)

theorem IsConstant.constantPieces {text : String} (h : IsConstant text) :
    ConstantPieces text (piecesOf text) := by
  obtain ⟨ps, hps, hscan⟩ := h.exists_pieces
  have halone := hscan [] (Pattern.stops_nil _)
  rw [List.append_nil, Token.pieces_nil, List.append_nil] at halone
  rw [piecesOf_eq, halone]
  exact hps

theorem IsConstant.pieces_text {text : String} (h : IsConstant text) {rest : List Char}
    (hrest : Pattern.Stops Pattern.isNumberChar rest) :
    Token.pieces (text.toList ++ rest) = piecesOf text ++ Token.pieces rest := by
  obtain ⟨ps, -, hscan⟩ := h.exists_pieces
  have halone := hscan [] (Pattern.stops_nil _)
  rw [List.append_nil, Token.pieces_nil, List.append_nil] at halone
  rw [hscan rest hrest, piecesOf_eq, halone]

end TemplateArg

/-! ## Scanning a printed type -/

mutual
/-- The text of a well-formed type is cut into its tokens. -/
theorem TypeExpr.pieces_text : ∀ {t : TypeExpr}, t.WellFormed → ∀ rest : List Char,
    Pattern.Stops isTypeChar rest →
    Token.pieces (t.text.toList ++ rest) = t.pieces ++ Token.pieces rest
  | ⟨isConst, isVolatile, base, declarators⟩, h, rest, hrest => by
      rw [TypeExpr.WellFormed] at h
      have hword := Indirection.stops_isWordChar_text declarators
        (hrest.mono isTypeChar_of_isWordChar)
      have hbase := TypeBase.pieces_text h.1 _ hword
      rw [Indirection.pieces_text h.2 hrest] at hbase
      rw [TypeExpr.text, TypeExpr.pieces]
      simp only [String.toList_append, List.append_assoc, pieces_const, pieces_volatile, hbase]

/-- The text of a well-formed base is cut into its tokens. -/
theorem TypeBase.pieces_text : ∀ {base : TypeBase}, base.WellFormed → ∀ rest : List Char,
    Pattern.Stops Pattern.isWordChar rest →
    Token.pieces (base.text.toList ++ rest) = base.pieces ++ Token.pieces rest
  | .fundamental name, h, rest, hrest => by
      rw [TypeBase.WellFormed] at h
      rw [TypeBase.text, TypeBase.pieces]
      exact h.pieces_text hrest
  | .named isGlobal segments, h, rest, hrest => by
      rw [TypeBase.WellFormed] at h
      have hsegments := NameSegment.pieces_textAll h.2.1 rest hrest
      rw [TypeBase.text, TypeBase.pieces]
      cases isGlobal with
      | false => simp [hsegments]
      | true => simp [hsegments]

/-- The text of a well-formed segment is cut into its tokens. -/
theorem NameSegment.pieces_text : ∀ {s : NameSegment}, s.WellFormed → ∀ rest : List Char,
    Pattern.Stops Pattern.isWordChar rest →
    Token.pieces (s.text.toList ++ rest) = s.pieces ++ Token.pieces rest
  | .plain name, h, rest, hrest => by
      rw [NameSegment.WellFormed] at h
      rw [NameSegment.text, NameSegment.pieces]
      exact h.pieces_ident hrest
  | .applied name args, h, rest, hrest => by
      rw [NameSegment.WellFormed] at h
      have hargs := TemplateArg.pieces_textAll h.2 ('>' :: rest) (Pattern.stops_cons rfl)
      have hangle (cs : List Char) : Pattern.Stops Pattern.isWordChar ('<' :: cs) :=
        Pattern.stops_cons rfl
      rw [NameSegment.text, NameSegment.pieces]
      simp [h.1.pieces_ident (hangle _), hargs]

/-- The text of well-formed arguments is cut into its tokens. -/
theorem TemplateArg.pieces_text : ∀ {a : TemplateArg}, a.WellFormed → ∀ rest : List Char,
    Pattern.Stops isTypeChar rest →
    Token.pieces (a.text.toList ++ rest) = a.pieces ++ Token.pieces rest
  | .type t, h, rest, hrest => by
      rw [TemplateArg.WellFormed] at h
      rw [TemplateArg.text, TemplateArg.pieces]
      exact TypeExpr.pieces_text h.1 rest hrest
  | .value text, h, rest, hrest => by
      rw [TemplateArg.WellFormed] at h
      rw [TemplateArg.text, TemplateArg.pieces]
      exact h.pieces_text (hrest.mono isTypeChar_of_isNumberChar)

/-- The text of a well-formed path is cut into its tokens. -/
theorem NameSegment.pieces_textAll : ∀ {ss : List NameSegment}, NameSegment.AllWellFormed ss →
    ∀ rest : List Char, Pattern.Stops Pattern.isWordChar rest →
    Token.pieces ((NameSegment.textAll ss).toList ++ rest) =
      NameSegment.piecesAll ss ++ Token.pieces rest
  | [], _, rest, _ => by simp [NameSegment.textAll, NameSegment.piecesAll]
  | [s], h, rest, hrest => by
      rw [NameSegment.AllWellFormed] at h
      rw [NameSegment.textAll, NameSegment.piecesAll]
      exact NameSegment.pieces_text h.1 rest hrest
  | s :: s' :: ss, h, rest, hrest => by
      rw [NameSegment.AllWellFormed] at h
      have htail := NameSegment.pieces_textAll h.2 rest hrest
      have hhead := NameSegment.pieces_text h.1
        (':' :: ':' :: ((NameSegment.textAll (s' :: ss)).toList ++ rest))
        (Pattern.stops_cons rfl)
      rw [NameSegment.piecesAll_cons_cons, NameSegment.textAll]
      · simp [hhead, htail]
      · simp

/-- The text of a list of well-formed arguments is cut into its tokens. -/
theorem TemplateArg.pieces_textAll : ∀ {as : List TemplateArg}, TemplateArg.AllWellFormed as →
    ∀ rest : List Char, Pattern.Stops isTypeChar rest →
    Token.pieces ((TemplateArg.textAll as).toList ++ rest) =
      TemplateArg.piecesAll as ++ Token.pieces rest
  | [], _, rest, _ => by simp [TemplateArg.textAll, TemplateArg.piecesAll]
  | [a], h, rest, hrest => by
      rw [TemplateArg.AllWellFormed] at h
      rw [TemplateArg.textAll, TemplateArg.piecesAll]
      exact TemplateArg.pieces_text h.1 rest hrest
  | a :: a' :: as, h, rest, hrest => by
      rw [TemplateArg.AllWellFormed] at h
      have htail := TemplateArg.pieces_textAll h.2 rest hrest
      have hhead := TemplateArg.pieces_text h.1
        (',' :: ' ' :: ((TemplateArg.textAll (a' :: as)).toList ++ rest))
        (Pattern.stops_cons rfl)
      rw [TemplateArg.piecesAll_cons_cons, TemplateArg.textAll]
      · simp [hhead, Token.pieces_space (c := ' ') rfl, htail]
      · simp
end

end Bindery
