import Bindery.Proofs.TypeExpr.Pieces

/-!
# Reading a printed type

Reading the text of a well-formed type gives the type back. On tokens this is an induction over
the type with the tokens behind it in view: a type ends where nothing, a comma or a closing
angle bracket follows. The readers are bounded by a depth, and each level of a type takes a
fixed number of steps and at least one token, so five steps for a token are enough.

## Main definitions

* `Follows`: what may stand behind the base of a type.
-/
namespace Bindery

/-! ## What stands behind a base -/

/-- Nothing follows, or a declarator or the end of an argument does. -/
def Follows (rest : List Piece) : Prop :=
  ∀ p ∈ rest.head?, p.kind ∈ [.star, .amp, .ampAmp, .comma, .rAngle]

theorem follows_of_endsArgument {rest : List Piece} (h : TemplateArg.endsArgument rest = true) :
    Follows rest := by
  intro p hp
  cases rest with
  | nil => simp at hp
  | cons q ps =>
      obtain rfl : q = p := by simpa using hp
      simp only [TemplateArg.endsArgument, Bool.or_eq_true, decide_eq_true_eq] at h
      rcases h with h | h <;> simp [h]

theorem Follows.ne_lAngle {rest : List Piece} (h : Follows rest) :
    ∀ p ∈ rest.head?, p.kind ≠ .lAngle := by
  intro p hp hkind
  have hmem := h p hp
  rw [hkind] at hmem
  exact absurd hmem (by decide)

theorem Indirection.follows_pieces (ds : List Indirection) {rest : List Piece}
    (h : TemplateArg.endsArgument rest = true) :
    Follows (ds.flatMap Indirection.pieces ++ rest) := by
  cases ds with
  | nil => exact follows_of_endsArgument h
  | cons d ds =>
      rw [List.flatMap_cons]
      match d with
      | pointer false => simp [Follows, Indirection.pieces]
      | pointer true => simp [Follows, Indirection.pieces]
      | lvalueRef => simp [Follows, Indirection.pieces]
      | rvalueRef => simp [Follows, Indirection.pieces]

namespace TypeExpr

theorem readQualifiers_of_follows (q : Qualifiers) {ps : List Piece} (h : Follows ps) :
    readQualifiers q ps = (q, ps) := by
  cases ps with
  | nil => rfl
  | cons p ps =>
      obtain ⟨kind, text⟩ := p
      have hkind := h _ (List.head?_cons)
      simp only [List.mem_cons, List.not_mem_nil, or_false] at hkind
      rcases hkind with rfl | rfl | rfl | rfl | rfl <;> rfl

/-- The words of a fundamental type are read up to what stands behind it. -/
theorem readFundamental_words (q : Qualifiers) {words : List String}
    (hwords : ∀ w ∈ words, w ∈ Grammar.fundamentalWords) {ps : List Piece} (h : Follows ps) :
    readFundamental q (words.map (⟨.ident, ·⟩) ++ ps) = (words, q, ps) := by
  induction words with
  | nil =>
      cases ps with
      | nil => rfl
      | cons p ps =>
          have hkind := h _ (List.head?_cons)
          simp only [List.mem_cons, List.not_mem_nil, or_false] at hkind
          rcases hkind with hkind | hkind | hkind | hkind | hkind <;>
            simp [readFundamental, isFundamentalWord, hkind]
  | cons w words ih =>
      have hw : isFundamentalWord ⟨.ident, w⟩ = true := by
        simpa [isFundamentalWord] using hwords w List.mem_cons_self
      have hrest := ih fun v hv => hwords v (List.mem_cons_of_mem w hv)
      rw [List.map_cons, List.cons_append, readFundamental, if_pos hw, hrest]

/-- Declarators are read behind those read so far. -/
theorem readDeclarators_pieces (acc ds : List Indirection) {rest : List Piece}
    (h : TemplateArg.endsArgument rest = true) :
    readDeclarators acc (ds.flatMap Indirection.pieces ++ rest) = (acc.reverse ++ ds, rest) := by
  induction ds generalizing acc with
  | nil =>
      rw [List.flatMap_nil, List.nil_append, List.append_nil]
      cases rest with
      | nil => rfl
      | cons p ps =>
          simp only [TemplateArg.endsArgument, Bool.or_eq_true, decide_eq_true_eq] at h
          rcases h with h | h <;> simp [readDeclarators, h]
  | cons d ds ih =>
      rw [List.flatMap_cons, List.append_assoc]
      match d with
      | .pointer false => simp [Indirection.pieces, readDeclarators, ih]
      | .pointer true => simp [Indirection.pieces, readDeclarators, ih]
      | .lvalueRef => simp [Indirection.pieces, readDeclarators, ih]
      | .rvalueRef => simp [Indirection.pieces, readDeclarators, ih]

/-- A base starts with a name or with the mark of the global scope. -/
def StartsBase (p : Piece) : Prop := p.kind = .ident ∨ p.kind = .colonColon

/-- The qualifiers in front of a base are read. -/
theorem readLead_qualifiers (isConst isVolatile : Bool) {p : Piece} (hp : StartsBase p)
    (ps : List Piece) :
    readLead {} ((if isConst then [⟨.constKw, "const"⟩] else []) ++
      ((if isVolatile then [⟨.volatileKw, "volatile"⟩] else []) ++ p :: ps)) =
      (⟨isConst, isVolatile⟩, p :: ps) := by
  have hbase (q : Qualifiers) : readLead q (p :: ps) = (q, p :: ps) := by
    rcases hp with hp | hp <;> simp [readLead, hp, TokenKind.isClassKey]
  cases isConst with
  | false => cases isVolatile with
    | false => exact hbase ⟨false, false⟩
    | true => exact hbase ⟨false, true⟩
  | true => cases isVolatile with
    | false => exact hbase ⟨true, false⟩
    | true => exact hbase ⟨true, true⟩

/-- A canonical fundamental type is the reading of its tokens. -/
theorem IsCanonical.exists_words {name : String} (h : IsCanonical name) :
    ∃ w words, (∀ v ∈ w :: words, v ∈ Grammar.fundamentalWords) ∧
      piecesOf name = (w :: words).map (⟨.ident, ·⟩) ∧ canonical (w :: words) = name := by
  obtain ⟨words, hwords, rfl, hcanonical⟩ := h
  cases words with
  | nil => exact absurd hcanonical (by decide)
  | cons w words =>
      have hpieces := pieces_intercalate (by simp) hwords (Pattern.stops_nil Pattern.isWordChar)
      rw [List.append_nil, Token.pieces_nil, List.append_nil] at hpieces
      exact ⟨w, words, hwords, hpieces, hcanonical⟩

end TypeExpr

/-! ## The first token of a part -/

/-- A segment starts with its name. -/
theorem NameSegment.pieces_eq_cons (s : NameSegment) :
    ∃ ps, s.pieces = ⟨.ident, s.name⟩ :: ps := by
  cases s with
  | plain name => exact ⟨_, rfl⟩
  | applied name args => exact ⟨_, rfl⟩

theorem NameSegment.pieces_length_pos (s : NameSegment) : 0 < s.pieces.length := by
  obtain ⟨ps, hps⟩ := s.pieces_eq_cons
  simp [hps]

/-- A path starts with the name of its first segment. -/
theorem NameSegment.piecesAll_eq_cons (s : NameSegment) (ss : List NameSegment) :
    ∃ ps, NameSegment.piecesAll (s :: ss) = ⟨.ident, s.name⟩ :: ps := by
  obtain ⟨ps, hps⟩ := s.pieces_eq_cons
  cases ss with
  | nil => exact ⟨ps, hps⟩
  | cons s' ss => exact ⟨_, by rw [NameSegment.piecesAll_cons_cons, hps, List.cons_append]⟩

/-- A base starts with a name or with the mark of the global scope. -/
theorem TypeBase.pieces_eq_cons {base : TypeBase} (h : base.WellFormed) :
    ∃ p ps, base.pieces = p :: ps ∧ TypeExpr.StartsBase p := by
  cases base with
  | fundamental name =>
      rw [TypeBase.WellFormed] at h
      obtain ⟨w, words, -, hpieces, -⟩ := h.exists_words
      exact ⟨_, _, by rw [TypeBase.pieces, hpieces]; rfl, .inl rfl⟩
  | named isGlobal segments =>
      rw [TypeBase.WellFormed] at h
      cases segments with
      | nil => exact absurd rfl h.1
      | cons s ss =>
          obtain ⟨ps, hps⟩ := NameSegment.piecesAll_eq_cons s ss
          rw [TypeBase.pieces, hps]
          cases isGlobal with
          | false => exact ⟨_, _, rfl, .inl rfl⟩
          | true => exact ⟨_, _, rfl, .inr rfl⟩

/-- An argument does not start with a closing angle bracket. -/
theorem TemplateArg.pieces_eq_cons {a : TemplateArg} (h : a.WellFormed) :
    ∃ p ps, a.pieces = p :: ps ∧ p.kind ≠ .rAngle := by
  cases a with
  | value text =>
      rw [TemplateArg.WellFormed] at h
      rw [TemplateArg.pieces]
      have hconstant := h.constantPieces
      generalize piecesOf text = ps at hconstant
      cases hconstant with
      | integer digits => exact ⟨_, _, rfl, by simp⟩
      | negative digits => exact ⟨_, _, rfl, by simp⟩
      | truth hword => exact ⟨_, _, rfl, by simp⟩
  | type t =>
      obtain ⟨isConst, isVolatile, base, declarators⟩ := t
      rw [TemplateArg.WellFormed, TypeExpr.WellFormed] at h
      obtain ⟨p, ps, hps, hp⟩ := TypeBase.pieces_eq_cons h.1.1
      have hangle : p.kind ≠ .rAngle := by rcases hp with hp | hp <;> simp [hp]
      rw [TemplateArg.pieces, TypeExpr.pieces, hps]
      cases isConst with
      | true => exact ⟨_, _, rfl, by simp⟩
      | false => cases isVolatile with
        | true => exact ⟨_, _, rfl, by simp⟩
        | false => exact ⟨_, _, rfl, hangle⟩

/-- A list of arguments does not start with a closing angle bracket. -/
theorem TemplateArg.piecesAll_eq_cons {a : TemplateArg} (h : a.WellFormed)
    (as : List TemplateArg) :
    ∃ p ps, TemplateArg.piecesAll (a :: as) = p :: ps ∧ p.kind ≠ .rAngle := by
  obtain ⟨p, ps, hps, hp⟩ := TemplateArg.pieces_eq_cons h
  cases as with
  | nil => exact ⟨p, ps, hps, hp⟩
  | cons a' as =>
      refine ⟨p, ps ++ ⟨.comma, ","⟩ :: TemplateArg.piecesAll (a' :: as), ?_, hp⟩
      rw [TemplateArg.piecesAll_cons_cons, hps, List.cons_append]

/-! ## Reading a constant -/

/-- A number and a sign do not start a type. -/
theorem TypeExpr.read_eq_none (depth : ℕ) {p : Piece} (hp : p.kind = .intNumber ∨ p.kind = .minus)
    (ps : List Piece) : TypeExpr.read depth (p :: ps) = none := by
  have hlead : readLead {} (p :: ps) = ({}, p :: ps) := by
    rcases hp with hp | hp <;> simp [readLead, hp, TokenKind.isClassKey]
  have hword : isFundamentalWord p = false := by
    rcases hp with hp | hp <;> simp [isFundamentalWord, hp]
  have hsegments (d : ℕ) : NameSegment.readAll d (p :: ps) = none := by
    obtain ⟨kind, text⟩ := p
    cases d with
    | zero => rfl
    | succ d => rcases hp with rfl | rfl <;> rfl
  have hpath (d : ℕ) : TypeBase.readPath d (p :: ps) = none := by
    obtain ⟨kind, text⟩ := p
    cases d with
    | zero => rfl
    | succ d => rcases hp with rfl | rfl <;> simp [TypeBase.readPath, hsegments]
  cases depth with
  | zero => rfl
  | succ d => simp [TypeExpr.read, hlead, hword, hpath]

namespace TemplateArg

/-- The tokens of a value end where an argument does. -/
theorem valuePieces_of_endsArgument {rest : List Piece} (h : endsArgument rest = true) :
    valuePieces 0 rest = ([], rest) := by
  cases rest with
  | nil => rfl
  | cons p ps =>
      simp only [endsArgument, Bool.or_eq_true, decide_eq_true_eq] at h
      rcases h with h | h <;> simp [valuePieces, h]

/-- A constant is read as a value. -/
theorem read_constant {text : String} {ps : List Piece} (h : ConstantPieces text ps)
    (depth : ℕ) {rest : List Piece} (hrest : endsArgument rest = true) :
    read depth (ps ++ rest) = (.value text, rest) := by
  have hvalue : valuePieces 0 (ps ++ rest) = (ps, rest) := by
    have hend := valuePieces_of_endsArgument hrest
    cases h <;> simp [valuePieces, hend]
  have hspell : spell ps = text := by
    cases h with
    | integer digits => simp [spell, spellBehind, String.join]
    | negative digits =>
        simp [spell, spellBehind, needsBlank, isOperator, Spelling.isWordLike, String.join,
          TokenKind.isWord, TokenKind.isKeyword, TokenKind.keywords, TokenKind.isLiteral]
    | truth hword => simp [spell, spellBehind, String.join]
  cases depth with
  | zero => simp only [read, hvalue, hspell]
  | succ d =>
      have htype : (if startsValue (ps ++ rest) then none
          else (TypeExpr.read d (ps ++ rest)).filter fun r => endsArgument r.2) = none := by
        cases h with
        | integer digits => simp [TypeExpr.read_eq_none]
        | negative digits => simp [TypeExpr.read_eq_none]
        | truth hword => simp [startsValue, hword]
      simp only [read, htype, hvalue, hspell]

end TemplateArg

/-! ## Reading a type -/

/-- The tokens of a type that does not start with a value word do not start a value. -/
theorem TypeExpr.startsValue_pieces {t : TypeExpr} (h : t.WellFormed)
    (hlead : ∀ name ∈ t.leadingName?, name ∉ TemplateArg.valueWords) (rest : List Piece) :
    TemplateArg.startsValue (t.pieces ++ rest) = false := by
  have hwords : ∀ w ∈ Grammar.fundamentalWords, w ∉ TemplateArg.valueWords := by decide
  obtain ⟨isConst, isVolatile, base, declarators⟩ := t
  rw [TypeExpr.WellFormed] at h
  rw [TypeExpr.pieces]
  cases isConst with
  | true => rfl
  | false => cases isVolatile with
    | true => rfl
    | false => cases base with
      | fundamental name =>
          have hname := h.1
          rw [TypeBase.WellFormed] at hname
          obtain ⟨w, words, hall, hpieces, -⟩ := hname.exists_words
          rw [TypeBase.pieces, hpieces]
          simpa [TemplateArg.startsValue] using hwords w (hall w List.mem_cons_self)
      | named isGlobal segments => cases isGlobal with
        | true => rfl
        | false => cases segments with
          | nil => rw [TypeBase.WellFormed] at h; exact absurd rfl h.1.1
          | cons s ss =>
              obtain ⟨ps, hps⟩ := NameSegment.piecesAll_eq_cons s ss
              rw [TypeBase.pieces, hps]
              simpa [TemplateArg.startsValue] using hlead s.name rfl

/-- What a name goes on with is read as the arguments of its segment. -/
theorem NameSegment.readBehind_plain
    (readArgs : List Piece → Option (List TemplateArg × List Piece)) (name : String)
    {rest : List Piece} (h : ∀ p ∈ rest.head?, p.kind ≠ .lAngle) :
    NameSegment.readBehind readArgs name rest = some (.plain name, rest) := by
  cases rest with
  | nil => rfl
  | cons p ps =>
      obtain ⟨kind, text⟩ := p
      have hkind : kind ≠ .lAngle := h _ List.head?_cons
      rw [NameSegment.readBehind]
      · rintro _ _ _ ⟨⟩
        exact hkind rfl
      · rintro _ _ ⟨⟩
        exact hkind rfl

theorem NameSegment.readBehind_applied
    {readArgs : List Piece → Option (List TemplateArg × List Piece)} {name : String}
    {args : List TemplateArg} {p : Piece} {ps rest : List Piece} (hp : p.kind ≠ .rAngle)
    (h : readArgs (p :: ps) = some (args, rest)) :
    NameSegment.readBehind readArgs name (⟨.lAngle, "<"⟩ :: p :: ps) =
      some (.applied name args, rest) := by
  rw [NameSegment.readBehind, h]
  · rfl
  · rintro _ _ ⟨⟩
    exact hp rfl

/-- One more segment is read in front of a path. -/
theorem NameSegment.readAll_cons {depth : ℕ} {name : String} {s : NameSegment}
    {ss : List NameSegment} {ps rest rest' : List Piece}
    (hs : NameSegment.readBehind (TemplateArg.readAll depth) name ps =
      some (s, ⟨.colonColon, "::"⟩ :: rest))
    (hss : NameSegment.readAll depth rest = some (ss, rest')) :
    NameSegment.readAll (depth + 1) (⟨.ident, name⟩ :: ps) = some (s :: ss, rest') := by
  simp [NameSegment.readAll, hs, hss]

/-- The last segment of a path is read. -/
theorem NameSegment.readAll_last {depth : ℕ} {name : String} {s : NameSegment}
    {ps rest : List Piece} (hrest : Follows rest)
    (hs : NameSegment.readBehind (TemplateArg.readAll depth) name ps = some (s, rest)) :
    NameSegment.readAll (depth + 1) (⟨.ident, name⟩ :: ps) = some ([s], rest) := by
  cases rest with
  | nil => simp [NameSegment.readAll, hs]
  | cons p rest =>
      obtain ⟨kind, text⟩ := p
      have hkind := hrest _ List.head?_cons
      simp only [List.mem_cons, List.not_mem_nil, or_false] at hkind
      rcases hkind with rfl | rfl | rfl | rfl | rfl <;> simp [NameSegment.readAll, hs]

/-- A type is read from its base and what stands around it. -/
theorem TypeExpr.read_fundamental (depth : ℕ) (isConst isVolatile : Bool) {name : String}
    (h : IsCanonical name) (ds : List Indirection) {rest : List Piece}
    (hrest : TemplateArg.endsArgument rest = true) :
    TypeExpr.read (depth + 1) ((⟨isConst, isVolatile, .fundamental name, ds⟩ : TypeExpr).pieces ++
      rest) = some (⟨isConst, isVolatile, .fundamental name, ds⟩, rest) := by
  obtain ⟨w, words, hwords, hpieces, hcanonical⟩ := h.exists_words
  have hfollows := Indirection.follows_pieces ds hrest
  have hw : isFundamentalWord ⟨.ident, w⟩ = true := by
    simpa [isFundamentalWord] using hwords w List.mem_cons_self
  have hread := readFundamental_words ⟨isConst, isVolatile⟩ hwords hfollows
  rw [TypeExpr.pieces, TypeBase.pieces, hpieces]
  simp only [List.append_assoc, List.map_cons, List.cons_append] at hread ⊢
  rw [TypeExpr.read, readLead_qualifiers isConst isVolatile (.inl rfl)]
  simp only [List.head?_cons, Option.any_some, hw, if_true, hread, hcanonical,
    readQualifiers_of_follows _ hfollows, readDeclarators_pieces [] ds hrest]
  rfl

/-- A path is read from its segments. -/
theorem TypeBase.readPath_segments {depth : ℕ} (isGlobal : Bool) {name : String}
    {ps rest : List Piece} {segments : List NameSegment}
    (h : NameSegment.readAll depth (⟨.ident, name⟩ :: ps) = some (segments, rest)) :
    TypeBase.readPath (depth + 1)
      ((if isGlobal then [⟨.colonColon, "::"⟩] else []) ++ ⟨.ident, name⟩ :: ps) =
      some (.named isGlobal segments, rest) := by
  cases isGlobal with
  | false => simp [TypeBase.readPath, h]
  | true => simp [TypeBase.readPath, h]

theorem TypeExpr.read_named {depth : ℕ} (isConst isVolatile : Bool) {isGlobal : Bool}
    {segments : List NameSegment} (h : (TypeBase.named isGlobal segments).WellFormed)
    (ds : List Indirection) {rest : List Piece} (hrest : TemplateArg.endsArgument rest = true)
    (hread : NameSegment.readAll depth (NameSegment.piecesAll segments ++
      (ds.flatMap Indirection.pieces ++ rest)) =
        some (segments, ds.flatMap Indirection.pieces ++ rest)) :
    TypeExpr.read (depth + 2)
      ((⟨isConst, isVolatile, .named isGlobal segments, ds⟩ : TypeExpr).pieces ++ rest) =
      some (⟨isConst, isVolatile, .named isGlobal segments, ds⟩, rest) := by
  rw [TypeBase.WellFormed] at h
  obtain ⟨hne, -, hfundamental⟩ := h
  obtain ⟨s, ss, rfl⟩ := List.exists_cons_of_ne_nil hne
  obtain ⟨ps, hps⟩ := NameSegment.piecesAll_eq_cons s ss
  have hfollows := Indirection.follows_pieces ds hrest
  rw [hps, List.cons_append] at hread
  have hpath := TypeBase.readPath_segments isGlobal hread
  -- The first token decides that no fundamental type is read.
  obtain ⟨p, ps', hcons, hstart, hword⟩ : ∃ p ps',
      (if isGlobal then [⟨.colonColon, "::"⟩] else []) ++
        ⟨.ident, s.name⟩ :: (ps ++ (ds.flatMap Indirection.pieces ++ rest)) = p :: ps' ∧
      StartsBase p ∧ isFundamentalWord p = false := by
    cases isGlobal with
    | true => exact ⟨_, _, rfl, .inr rfl, rfl⟩
    | false =>
        refine ⟨_, _, rfl, .inl rfl, ?_⟩
        simpa [isFundamentalWord] using hfundamental rfl s rfl
  rw [TypeExpr.pieces, TypeBase.pieces, hps]
  simp only [List.append_assoc, List.cons_append]
  rw [hcons] at hpath ⊢
  rw [TypeExpr.read, readLead_qualifiers isConst isVolatile hstart]
  simp only [List.head?_cons, Option.any_some, hword, Bool.false_eq_true, if_false, hpath,
    Option.map_some, readQualifiers_of_follows _ hfollows, readDeclarators_pieces [] ds hrest]
  rfl

/-- An argument that is a type is read as one. -/
theorem TemplateArg.read_type {depth : ℕ} {t : TypeExpr} (h : (TemplateArg.type t).WellFormed)
    {rest : List Piece} (hrest : TemplateArg.endsArgument rest = true)
    (hread : TypeExpr.read depth (t.pieces ++ rest) = some (t, rest)) :
    TemplateArg.read (depth + 1) (t.pieces ++ rest) = (.type t, rest) := by
  rw [TemplateArg.WellFormed] at h
  have hvalue := TypeExpr.startsValue_pieces h.1 h.2 rest
  have hfilter : (some (t, rest)).filter (fun r => TemplateArg.endsArgument r.2) =
      some (t, rest) := Option.filter_some_pos hrest
  simp only [TemplateArg.read, hvalue, hread, Bool.false_eq_true, if_false, hfilter]

/-! ## The induction

The depth counts steps: a path takes two steps less than its type, a list of arguments is
entered behind at least two tokens, and an argument takes one step more than its type. -/

mutual
/-- A well-formed type is read from its tokens. -/
theorem TypeExpr.read_pieces : ∀ {t : TypeExpr}, t.WellFormed → ∀ (depth : ℕ)
    (rest : List Piece), 5 * t.pieces.length + 2 ≤ depth →
    TemplateArg.endsArgument rest = true →
    TypeExpr.read depth (t.pieces ++ rest) = some (t, rest)
  | ⟨isConst, isVolatile, .fundamental name, ds⟩, h, depth, rest, hdepth, hrest => by
      rw [TypeExpr.WellFormed, TypeBase.WellFormed] at h
      obtain ⟨d, rfl⟩ : ∃ d, depth = d + 1 := ⟨depth - 1, by omega⟩
      exact TypeExpr.read_fundamental d isConst isVolatile h.1 ds hrest
  | ⟨isConst, isVolatile, .named isGlobal segments, ds⟩, h, depth, rest, hdepth, hrest => by
      rw [TypeExpr.WellFormed] at h
      obtain ⟨d, rfl⟩ : ∃ d, depth = d + 2 := ⟨depth - 2, by omega⟩
      have hsegments := h.1
      rw [TypeBase.WellFormed] at hsegments
      have hlen : 5 * (NameSegment.piecesAll segments).length ≤ d := by
        rw [TypeExpr.pieces, TypeBase.pieces] at hdepth
        simp only [List.length_append] at hdepth
        omega
      exact TypeExpr.read_named isConst isVolatile h.1 ds hrest
        (NameSegment.readAll_pieces hsegments.1 hsegments.2.1 d _ hlen
          (Indirection.follows_pieces ds hrest))

/-- What stands behind the name of a well-formed segment is read. -/
theorem NameSegment.readBehind_pieces : ∀ {s : NameSegment}, s.WellFormed → ∀ (depth : ℕ)
    (rest : List Piece), 5 * s.pieces.length ≤ depth + 1 →
    (∀ p ∈ rest.head?, p.kind ≠ .lAngle) →
    ∃ ps, s.pieces = ⟨.ident, s.name⟩ :: ps ∧
      NameSegment.readBehind (TemplateArg.readAll depth) s.name (ps ++ rest) = some (s, rest)
  | .plain name, _, depth, rest, _, hrest =>
      ⟨[], rfl, NameSegment.readBehind_plain _ name hrest⟩
  | .applied name [], _, depth, rest, _, _ => ⟨_, rfl, rfl⟩
  | .applied name (a :: as), h, depth, rest, hdepth, _ => by
      rw [NameSegment.WellFormed] at h
      have hhead := h.2
      rw [TemplateArg.AllWellFormed] at hhead
      refine ⟨_, rfl, ?_⟩
      have hlen : 5 * (TemplateArg.piecesAll (a :: as)).length + 4 ≤ depth := by
        rw [NameSegment.pieces] at hdepth
        simp only [List.length_append, List.length_cons, List.length_nil] at hdepth
        omega
      have hargs := TemplateArg.readAll_pieces (by simp) h.2 depth rest hlen
      obtain ⟨p, ps, hps, hp⟩ := TemplateArg.piecesAll_eq_cons hhead.1 as
      rw [hps] at hargs ⊢
      rw [List.cons_append, List.append_assoc]
      exact NameSegment.readBehind_applied hp hargs

/-- A well-formed path is read from its tokens. -/
theorem NameSegment.readAll_pieces : ∀ {ss : List NameSegment}, ss ≠ [] →
    NameSegment.AllWellFormed ss → ∀ (depth : ℕ) (rest : List Piece),
    5 * (NameSegment.piecesAll ss).length ≤ depth → Follows rest →
    NameSegment.readAll depth (NameSegment.piecesAll ss ++ rest) = some (ss, rest)
  | [], hne, _, _, _, _, _ => absurd rfl hne
  | [s], _, h, depth, rest, hdepth, hrest => by
      rw [NameSegment.AllWellFormed] at h
      rw [NameSegment.piecesAll] at hdepth ⊢
      have hpos := s.pieces_length_pos
      obtain ⟨d, rfl⟩ : ∃ d, depth = d + 1 := ⟨depth - 1, by omega⟩
      obtain ⟨ps, hps, hread⟩ :=
        NameSegment.readBehind_pieces h.1 d rest hdepth hrest.ne_lAngle
      rw [hps]
      exact NameSegment.readAll_last hrest hread
  | s :: s' :: ss, _, h, depth, rest, hdepth, hrest => by
      rw [NameSegment.AllWellFormed] at h
      rw [NameSegment.piecesAll_cons_cons] at hdepth ⊢
      rw [List.length_append, List.length_cons] at hdepth
      obtain ⟨d, rfl⟩ : ∃ d, depth = d + 1 := ⟨depth - 1, by omega⟩
      have htail := NameSegment.readAll_pieces (by simp) h.2 d rest (by omega) hrest
      obtain ⟨ps, hps, hread⟩ := NameSegment.readBehind_pieces h.1 d
        (⟨.colonColon, "::"⟩ :: (NameSegment.piecesAll (s' :: ss) ++ rest)) (by omega) (by simp)
      rw [hps, List.append_assoc]
      exact NameSegment.readAll_cons hread htail

/-- A list of well-formed arguments is read up to its closing angle bracket. -/
theorem TemplateArg.readAll_pieces : ∀ {as : List TemplateArg}, as ≠ [] →
    TemplateArg.AllWellFormed as → ∀ (depth : ℕ) (rest : List Piece),
    5 * (TemplateArg.piecesAll as).length + 4 ≤ depth →
    TemplateArg.readAll depth (TemplateArg.piecesAll as ++ ⟨.rAngle, ">"⟩ :: rest) =
      some (as, rest)
  | [], hne, _, _, _, _ => absurd rfl hne
  | [a], _, h, depth, rest, hdepth => by
      rw [TemplateArg.AllWellFormed] at h
      rw [TemplateArg.piecesAll] at hdepth ⊢
      obtain ⟨d, rfl⟩ : ∃ d, depth = d + 1 := ⟨depth - 1, by omega⟩
      have harg := TemplateArg.read_pieces h.1 d (⟨.rAngle, ">"⟩ :: rest) (by omega) rfl
      rw [TemplateArg.readAll, harg]
  | a :: a' :: as, _, h, depth, rest, hdepth => by
      rw [TemplateArg.AllWellFormed] at h
      rw [TemplateArg.piecesAll_cons_cons] at hdepth ⊢
      rw [List.length_append, List.length_cons] at hdepth
      obtain ⟨d, rfl⟩ : ∃ d, depth = d + 1 := ⟨depth - 1, by omega⟩
      have htail := TemplateArg.readAll_pieces (by simp) h.2 d rest (by omega)
      have harg := TemplateArg.read_pieces h.1 d
        (⟨.comma, ","⟩ :: (TemplateArg.piecesAll (a' :: as) ++ ⟨.rAngle, ">"⟩ :: rest))
        (by omega) rfl
      rw [List.append_assoc, List.cons_append, TemplateArg.readAll, harg]
      simp only [htail, Option.map_some]

/-- A well-formed argument is read from its tokens. -/
theorem TemplateArg.read_pieces : ∀ {a : TemplateArg}, a.WellFormed → ∀ (depth : ℕ)
    (rest : List Piece), 5 * a.pieces.length + 3 ≤ depth →
    TemplateArg.endsArgument rest = true →
    TemplateArg.read depth (a.pieces ++ rest) = (a, rest)
  | .value text, h, depth, rest, _, hrest => by
      rw [TemplateArg.WellFormed] at h
      exact TemplateArg.read_constant h.constantPieces depth hrest
  | .type t, h, depth, rest, hdepth, hrest => by
      have ht := h
      rw [TemplateArg.WellFormed] at ht
      rw [TemplateArg.pieces] at hdepth ⊢
      obtain ⟨d, rfl⟩ : ∃ d, depth = d + 1 := ⟨depth - 1, by omega⟩
      exact TemplateArg.read_type h hrest (TypeExpr.read_pieces ht.1 d rest (by omega) hrest)
end

/-- Reading the printed form of a well-formed type gives the type back. -/
theorem TypeExpr.parse_text {t : TypeExpr} (h : t.WellFormed) : TypeExpr.parse t.text = .ok t := by
  have hpieces : piecesOf t.text = t.pieces := by
    have hscan := TypeExpr.pieces_text h [] (Pattern.stops_nil isTypeChar)
    rwa [List.append_nil, Token.pieces_nil, List.append_nil] at hscan
  have hread := TypeExpr.read_pieces h (readDepth t.pieces) [] (by rw [readDepth]; omega) rfl
  rw [List.append_nil] at hread
  simp only [TypeExpr.parse, hpieces, hread]

/-- A global path with nested arguments of every sort, glued declarators and an empty list. -/
theorem TypeExpr.parse_text_nested : ∃ t : TypeExpr, t.WellFormed ∧
    t.text = "const volatile ::ns::Map<unsigned long, Box<::true* const&, -0x3u>, Unit<>>*&&" ∧
    TypeExpr.parse t.text = .ok t := by
  have hns : Token.IsSingle .ident "ns" := Token.isSingle_of_next (by decide) rfl
  have hmap : Token.IsSingle .ident "Map" := Token.isSingle_of_next (by decide) rfl
  have hbox : Token.IsSingle .ident "Box" := Token.isSingle_of_next (by decide) rfl
  have htrue : Token.IsSingle .ident "true" := Token.isSingle_of_next (by decide) rfl
  have hunit : Token.IsSingle .ident "Unit" := Token.isSingle_of_next (by decide) rfl
  have hdigits : Token.IsSingle .intNumber "0x3u" := Token.isSingle_of_next (by decide) rfl
  have hlong : TypeExpr.IsCanonical "unsigned long" :=
    ⟨["unsigned", "long"], by decide, by decide, by decide⟩
  let inner : TypeExpr := ⟨false, false, .named true [.plain "true"], [.pointer true, .lvalueRef]⟩
  have hinner : inner.WellFormed :=
    ⟨⟨by simp, ⟨htrue, trivial⟩, by simp⟩, by simp [Indirection.Separated, Indirection.isRef]⟩
  let box : TypeExpr := .ofBase (.named false [.applied "Box" [.type inner, .value "-0x3u"]])
  have hbox : box.WellFormed :=
    ⟨⟨by simp, ⟨⟨hbox, ⟨hinner, by simp [inner, TypeExpr.leadingName?]⟩,
      .inl ⟨"0x3u", hdigits, .inr rfl⟩, trivial⟩, trivial⟩, by decide⟩, .nil⟩
  let unit : TypeExpr := .ofBase (.named false [.applied "Unit" []])
  have hunit : unit.WellFormed := ⟨⟨by simp, ⟨⟨hunit, trivial⟩, trivial⟩, by decide⟩, .nil⟩
  have hmap : TypeExpr.WellFormed ⟨true, true, .named true [.plain "ns", .applied "Map"
      [.type (.fundamental "unsigned long"), .type box, .type unit]],
      [.pointer false, .rvalueRef]⟩ :=
    ⟨⟨by simp, ⟨hns, ⟨hmap, ⟨⟨hlong, .nil⟩, by simp [TypeExpr.fundamental, TypeExpr.ofBase,
        TypeExpr.leadingName?]⟩, ⟨hbox, by decide⟩, ⟨hunit, by decide⟩, trivial⟩, trivial⟩,
        by simp⟩,
      by simp [Indirection.Separated, Indirection.isRef]⟩
  exact ⟨_, hmap, by decide, TypeExpr.parse_text hmap⟩

end Bindery
