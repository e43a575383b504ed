import Bindery.Proofs.Token.Fusion
import Bindery.Proofs.TypeExpr.RoundTrip

/-!
# The spellings of a fundamental type

The words of a fundamental type may stand in any order, and qualifiers may stand in front of them,
between them and behind them. The words are counted by a fold, and the qualifiers are eaten in three
loops of the reader. This module shows that the order decides nothing: counting two words commutes
unless they are two names of a type, and reading leaves the words in their order and collects the
qualifiers, wherever they stand.

## Main definitions

* `TypeExpr.NamesFundamental`: words that spell a fundamental type.
* `TypeExpr.Spells`: words and qualifiers in any order.
-/
namespace Bindery

open Pattern

/-! ## Tokens that are words -/

namespace Token

/-- A token with the text of a word is of the kind that the word alone has: it would be longer if
the word went on. -/
theorem kind_of_isWord {text : String} {p : Piece} (hp : p ∈ piecesOf text)
    (hword : isWord p.text.toList = true) : p.kind = word.kindOf p.text.toList := by
  obtain ⟨t, ht, rfl⟩ := List.mem_map.1 hp
  obtain ⟨rest, hnext⟩ := (covers_scanFrom 0 text.toList).exists_matched t
    (List.mem_filter.1 ht).1
  dsimp only at hword ⊢
  generalize t.text.toList = w at hnext hword ⊢
  obtain ⟨more, behind, hrest, hmore, hstops⟩ := exists_run isWordChar rest
  have hlong : isWord (w ++ more) = true := by
    cases w with
    | nil => cases hword
    | cons c w =>
      rw [isWord, Bool.and_eq_true] at hword
      rw [List.cons_append, isWord, Bool.and_eq_true, List.all_append, Bool.and_eq_true]
      exact ⟨hword.1, hword.2, List.all_eq_true.2 hmore⟩
  have hwhole := next_word hlong hstops
  rw [List.append_assoc, ← hrest, hnext, Prod.mk.injEq] at hwhole
  obtain ⟨hkind, hlength⟩ := hwhole
  have hnil : more = [] := by simpa using hlength
  rw [hkind, hnil, List.append_nil]

end Token

/-- The texts of the tokens of a text. -/
def lexemes (text : String) : List String := (piecesOf text).map (·.text)

/-- A word as a token. -/
def wordPiece (w : String) : Piece := ⟨word.kindOf w.toList, w⟩

/-- Tokens that are words are the words as tokens. -/
theorem piecesOf_eq_words {text : String} (h : ∀ w ∈ lexemes text, isWord w.toList = true) :
    piecesOf text = (lexemes text).map wordPiece := by
  have hself : ∀ p ∈ piecesOf text, wordPiece p.text = p := by
    intro p hp
    rw [wordPiece, ← Token.kind_of_isWord hp (h _ (List.mem_map_of_mem hp))]
  rw [lexemes, List.map_map]
  exact ((List.map_congr_left hself).trans (List.map_id' _)).symm

/-- Words with blanks between them are cut into these words. -/
theorem lexemes_intercalate {ws : List String} (h : ∀ w ∈ ws, isWord w.toList = true) :
    lexemes (" ".intercalate ws) = ws := by
  induction ws with
  | nil => exact congrArg (List.map (·.text)) Token.pieces_nil
  | cons w ws ih =>
    obtain ⟨hw, hws⟩ := List.forall_mem_cons.1 h
    have htrivia := Token.isTrivia_kindOf_word w.toList
    cases ws with
    | nil =>
      have hpieces := Token.pieces_word hw (stops_nil isWordChar) htrivia
      rw [List.append_nil, Token.pieces_nil, String.ofList_toList] at hpieces
      rw [String.intercalate_singleton, lexemes, piecesOf_eq, hpieces]
      rfl
    | cons v ws =>
      have htext : (" ".intercalate (w :: v :: ws)).toList =
          w.toList ++ ' ' :: (" ".intercalate (v :: ws)).toList := by
        simp [String.intercalate_cons_cons]
      have hpieces := Token.pieces_word_blank hw htrivia (" ".intercalate (v :: ws)).toList
      rw [← htext, String.ofList_toList] at hpieces
      rw [lexemes, piecesOf_eq, hpieces, List.map_cons, ← piecesOf_eq, ← lexemes, ih hws]

/-! ## Counting words -/

namespace TypeExpr

/-- The words that give a sign or a size, and `int`, which any other name takes the place of. -/
def modifierWords : List String := ["signed", "unsigned", "short", "long", "int"]

/-- Words that spell a fundamental type: not more than one of them, written once or more often,
names a type of its own. -/
structure NamesFundamental (words : List String) : Prop where
  ne_nil : words ≠ []
  fundamental : ∀ w ∈ words, w ∈ Grammar.fundamentalWords
  agree : ∀ u ∈ words, ∀ v ∈ words, u ∉ modifierWords → v ∉ modifierWords → u = v

namespace WordCount

/-- A word that is no modifier takes the place of the name. -/
theorem add_of_not_mem {word : String} (h : word ∉ modifierWords) (w : WordCount) :
    w.add word = { w with base := some word } := by
  simp only [modifierWords, List.mem_cons, List.not_mem_nil, or_false, not_or] at h
  simp [add, h]

/-- The order of two words is of no account, unless they are two names. -/
theorem add_right_comm {u v : String} (h : u ∉ modifierWords → v ∉ modifierWords → u = v)
    (w : WordCount) : (w.add u).add v = (w.add v).add u := by
  have hname {m x : String} (hm : m ∈ modifierWords) (hx : x ∉ modifierWords) :
      (w.add m).add x = (w.add x).add m := by
    rw [add_of_not_mem hx, add_of_not_mem hx]
    simp only [modifierWords, List.mem_cons, List.not_mem_nil, or_false] at hm
    rcases hm with rfl | rfl | rfl | rfl | rfl <;> simp [add]
  by_cases hu : u ∈ modifierWords
  · by_cases hv : v ∈ modifierWords
    · simp only [modifierWords, List.mem_cons, List.not_mem_nil, or_false] at hu hv
      rcases hu with rfl | rfl | rfl | rfl | rfl <;>
        rcases hv with rfl | rfl | rfl | rfl | rfl <;> simp [add]
    · exact hname hu hv
  · by_cases hv : v ∈ modifierWords
    · exact (hname hv hu).symm
    · rw [h hu hv]

/-- A word of a fundamental type under which the words are counted. -/
def IsName (b : String) : Prop := b ∈ Grammar.fundamentalWords ∧ (b ∈ modifierWords → b = "int")

/-- Words are counted under `int` or under a name of its own, if under any. -/
theorem isName_of_base_foldl {words : List String} (h : ∀ w ∈ words, w ∈ Grammar.fundamentalWords)
    {start : WordCount} (hstart : ∀ b ∈ start.base, IsName b) :
    ∀ b ∈ (words.foldl add start).base, IsName b := by
  induction words generalizing start with
  | nil => exact hstart
  | cons word words ih =>
    obtain ⟨hword, hwords⟩ := List.forall_mem_cons.1 h
    refine ih hwords fun b hb => ?_
    by_cases hmodifier : word ∈ modifierWords
    · have hbase : b ∈ start.base ∨ b = "int" := by
        simp only [modifierWords, List.mem_cons, List.not_mem_nil, or_false] at hmodifier
        rcases hmodifier with rfl | rfl | rfl | rfl | rfl
        · exact .inl hb
        · exact .inl hb
        · exact .inl hb
        · exact .inl hb
        · cases hname : start.base with
          | none => exact .inr (by simpa [add, hname, eq_comm] using hb)
          | some name => exact .inl (by simpa [add, hname] using hb)
      rcases hbase with hbase | rfl
      · exact hstart b hbase
      · exact ⟨by decide, fun _ => rfl⟩
    · rw [add_of_not_mem hmodifier] at hb
      obtain rfl := Option.some_inj.1 hb
      exact ⟨hword, fun hmem => absurd hmem hmodifier⟩

/-- The spelling of an integer type is made of the words it is counted from. -/
theorem isCanonical_integer (w : WordCount) : IsCanonical w.integer := by
  simp only [integer]
  split_ifs
  · exact ⟨["unsigned", "short"], by decide, by decide, by decide⟩
  · exact ⟨["unsigned", "long", "long"], by decide, by decide, by decide⟩
  · exact ⟨["unsigned", "long"], by decide, by decide, by decide⟩
  · exact ⟨["unsigned", "int"], by decide, by decide, by decide⟩
  · exact ⟨["short"], by decide, by decide, by decide⟩
  · exact ⟨["long", "long"], by decide, by decide, by decide⟩
  · exact ⟨["long"], by decide, by decide, by decide⟩
  · exact ⟨["int"], by decide, by decide, by decide⟩

/-- A name that is not `int` is its own spelling. -/
theorem IsName.isCanonical {b : String} (h : IsName b) (hint : b ≠ "int") : IsCanonical b := by
  have halone : ∀ w ∈ Grammar.fundamentalWords, w ∉ modifierWords →
      " ".intercalate [w] = w ∧ canonical [w] = w := by decide
  obtain ⟨hspelled, hcanonical⟩ := halone b h.1 fun hmem => hint (h.2 hmem)
  exact ⟨[b], by simpa using h.1, hspelled, hcanonical⟩

end WordCount

/-- The canonical spelling of words is made of words, of which it is the canonical spelling. -/
theorem isCanonical_canonical {words : List String}
    (h : ∀ w ∈ words, w ∈ Grammar.fundamentalWords) : IsCanonical (canonical words) := by
  have hname : ∀ b ∈ (words.foldl WordCount.add {}).base, WordCount.IsName b :=
    WordCount.isName_of_base_foldl h (by simp)
  simp only [canonical]
  split
  · exact WordCount.isCanonical_integer _
  · rename_i base hbase
    split_ifs with hint
    · exact WordCount.isCanonical_integer _
    · exact ⟨["signed", "char"], by decide, by decide, by decide⟩
    · exact ⟨["unsigned", "char"], by decide, by decide, by decide⟩
    · exact ⟨["long", "double"], by decide, by decide, by decide⟩
    · exact (hname base hbase).isCanonical hint

/-- Counting does not depend on the order of the words. -/
theorem canonical_perm {us vs : List String} (h : us.Perm vs)
    (hagree : ∀ u ∈ us, ∀ v ∈ us, u ∉ modifierWords → v ∉ modifierWords → u = v) :
    canonical us = canonical vs := by
  have hcount : us.foldl WordCount.add {} = vs.foldl WordCount.add {} :=
    h.foldl_eq' (fun u hu v hv w => WordCount.add_right_comm (hagree u hu v hv) w) {}
  rw [canonical, canonical, hcount]

/-! ## Reading words -/

/-- The qualifiers. -/
def qualifierWords : List String := ["const", "volatile"]

/-- Words that stand for these, in some order, with qualifiers in front of, between and behind
them. -/
def Spells (ws words : List String) : Prop := (ws.filter (· ∉ qualifierWords)).Perm words

/-- Qualifiers together with those among some words. -/
def Qualifiers.along (q : Qualifiers) (ws : List String) : Qualifiers :=
  ⟨q.isConst || decide ("const" ∈ ws), q.isVolatile || decide ("volatile" ∈ ws)⟩

theorem Qualifiers.along_nil (q : Qualifiers) : q.along [] = q := by simp [along]

theorem Qualifiers.along_const (q : Qualifiers) (ws : List String) :
    q.along ("const" :: ws) = ({ q with isConst := true } : Qualifiers).along ws := by
  simp [along]

theorem Qualifiers.along_volatile (q : Qualifiers) (ws : List String) :
    q.along ("volatile" :: ws) = ({ q with isVolatile := true } : Qualifiers).along ws := by
  simp [along]

theorem Qualifiers.along_of_not_mem (q : Qualifiers) {w : String} (h : w ∉ qualifierWords)
    (ws : List String) : q.along (w :: ws) = q.along ws := by
  simp only [qualifierWords, List.mem_cons, List.not_mem_nil, or_false, not_or] at h
  simp [along, Ne.symm h.1, Ne.symm h.2]

theorem Qualifiers.along_append (q : Qualifiers) (us vs : List String) :
    q.along (us ++ vs) = (q.along us).along vs := by
  simp [along, Bool.or_assoc, Bool.decide_or]

theorem wordPiece_const : wordPiece "const" = ⟨.constKw, "const"⟩ := by decide

theorem wordPiece_volatile : wordPiece "volatile" = ⟨.volatileKw, "volatile"⟩ := by decide

theorem wordPiece_fundamental {w : String} (h : w ∈ Grammar.fundamentalWords) :
    wordPiece w = ⟨.ident, w⟩ := by
  rw [wordPiece, (isWord_fundamentalWords w h).2]

theorem not_mem_qualifierWords : ∀ w ∈ Grammar.fundamentalWords, w ∉ qualifierWords := by decide

/-- The qualifiers in front of a type are collected. -/
theorem readLead_words (q : Qualifiers) {front : List String}
    (h : ∀ w ∈ front, w ∈ qualifierWords) (ps : List Piece) :
    readLead q (front.map wordPiece ++ ps) = readLead (q.along front) ps := by
  induction front generalizing q with
  | nil =>
    rw [Qualifiers.along_nil]
    rfl
  | cons w front ih =>
    obtain ⟨hw, hfront⟩ := List.forall_mem_cons.1 h
    rw [List.map_cons, List.cons_append]
    simp only [qualifierWords, List.mem_cons, List.not_mem_nil, or_false] at hw
    rcases hw with rfl | rfl
    · rw [wordPiece_const, Qualifiers.along_const, ← ih _ hfront]
      rfl
    · rw [wordPiece_volatile, Qualifiers.along_volatile, ← ih _ hfront]
      rfl

/-- Words are read in their order, and the qualifiers between them are collected. -/
theorem readFundamental_mixed (q : Qualifiers) {ws : List String}
    (h : ∀ w ∈ ws, w ∈ Grammar.fundamentalWords ∨ w ∈ qualifierWords) :
    readFundamental q (ws.map wordPiece) = (ws.filter (· ∉ qualifierWords), q.along ws, []) := by
  induction ws generalizing q with
  | nil =>
    rw [Qualifiers.along_nil]
    rfl
  | cons w ws ih =>
    obtain ⟨hw, hws⟩ := List.forall_mem_cons.1 h
    rw [List.map_cons]
    rcases hw with hw | hw
    · have hnot := not_mem_qualifierWords w hw
      have hword : isFundamentalWord ⟨.ident, w⟩ = true := by simpa [isFundamentalWord] using hw
      rw [wordPiece_fundamental hw, readFundamental, if_pos hword, ih q hws,
        List.filter_cons_of_pos (by simpa using hnot), q.along_of_not_mem hnot]
    · rw [List.filter_cons_of_neg (by simpa using hw)]
      simp only [qualifierWords, List.mem_cons, List.not_mem_nil, or_false] at hw
      rcases hw with rfl | rfl
      · rw [wordPiece_const, Qualifiers.along_const, ← ih _ hws]
        rfl
      · rw [wordPiece_volatile, Qualifiers.along_volatile, ← ih _ hws]
        rfl

/-- Words and qualifiers, of which one at least is a word, are read as one type. -/
theorem read_words (depth : ℕ) {ws : List String}
    (h : ∀ w ∈ ws, w ∈ Grammar.fundamentalWords ∨ w ∈ qualifierWords)
    (hne : ws.filter (· ∉ qualifierWords) ≠ []) :
    TypeExpr.read (depth + 1) (ws.map wordPiece) =
      some (⟨decide ("const" ∈ ws), decide ("volatile" ∈ ws),
        .fundamental (canonical (ws.filter (· ∉ qualifierWords))), []⟩, []) := by
  -- The leading loop ends at the first word, and everything behind it is read as words.
  obtain ⟨w, hfind⟩ : ∃ w, ws.find? (· ∉ qualifierWords) = some w := by
    rwa [← List.head?_filter, ← Option.isSome_iff_exists, List.isSome_head?]
  obtain ⟨hw, front, back, rfl, hfront⟩ := List.find?_eq_some_iff_append.1 hfind
  have hfront : ∀ v ∈ front, v ∈ qualifierWords := by simpa using hfront
  have hword : w ∈ Grammar.fundamentalWords := (h w (by simp)).resolve_right (by simpa using hw)
  have hfilter : (front ++ w :: back).filter (· ∉ qualifierWords) =
      (w :: back).filter (· ∉ qualifierWords) := by
    rw [List.filter_append, List.filter_eq_nil_iff.2 (by simpa using hfront), List.nil_append]
  have hlead : readLead {} ((front ++ w :: back).map wordPiece) =
      (({} : Qualifiers).along front, (w :: back).map wordPiece) := by
    rw [List.map_append, readLead_words {} hfront, List.map_cons, wordPiece_fundamental hword]
    simp [readLead, TokenKind.isClassKey]
  have hhead : ((w :: back).map wordPiece).head?.any isFundamentalWord = true := by
    simpa [wordPiece_fundamental hword, isFundamentalWord] using hword
  have hback : ∀ v ∈ w :: back, v ∈ Grammar.fundamentalWords ∨ v ∈ qualifierWords :=
    fun v hv => h v (List.mem_append_right front hv)
  have hread := readFundamental_mixed (({} : Qualifiers).along front) hback
  rw [← Qualifiers.along_append] at hread
  rw [TypeExpr.read, hfilter]
  simp only [hlead, hhead, if_true, hread]
  simp [readQualifiers, readDeclarators, Qualifiers.along]

/-! ## All spellings of a type -/

/-- Words and qualifiers are words of the language. -/
theorem Spells.mem {ws words : List String} (h : Spells ws words)
    (hwords : ∀ w ∈ words, w ∈ Grammar.fundamentalWords) :
    ∀ w ∈ ws, w ∈ Grammar.fundamentalWords ∨ w ∈ qualifierWords := by
  intro w hw
  by_cases hqualifier : w ∈ qualifierWords
  · exact .inr hqualifier
  · exact .inl (hwords w (h.mem_iff.1 (List.mem_filter.2 ⟨hw, by simpa using hqualifier⟩)))

theorem Spells.isWord {ws words : List String} (h : Spells ws words)
    (hwords : ∀ w ∈ words, w ∈ Grammar.fundamentalWords) : ∀ w ∈ ws, isWord w.toList = true := by
  have hqualifiers : ∀ w ∈ qualifierWords, Pattern.isWord w.toList = true := by decide
  intro w hw
  rcases h.mem hwords w hw with hword | hqualifier
  · exact (isWord_fundamentalWords w hword).1
  · exact hqualifiers w hqualifier

theorem text_fundamental (name : String) : (TypeExpr.fundamental name).text = name := by
  simp [TypeExpr.fundamental, TypeExpr.ofBase, TypeExpr.text, TypeBase.text, String.join]

/-- **A fundamental type is read from every spelling of it.** Let the words be given, in any number,
of which at most one, written once or more often, names a type of its own. Every text whose tokens
are these words in some order, with qualifiers in front of, between and behind them, is read as the
same fundamental type, qualified by the qualifiers that occur. Every such order is that of a text.
The spelling of the type is read as the type. -/
theorem parse_spelled {words : List String} (h : NamesFundamental words) :
    (∀ text, Spells (lexemes text) words → parse text = .ok
      ⟨decide ("const" ∈ lexemes text), decide ("volatile" ∈ lexemes text),
        .fundamental (canonical words), []⟩) ∧
    (∀ ws, Spells ws words → lexemes (" ".intercalate ws) = ws) ∧
    parse (canonical words) = .ok (.fundamental (canonical words)) := by
  refine ⟨fun text hspells => ?_, fun ws hspells => lexemes_intercalate
    (hspells.isWord h.fundamental), ?_⟩
  · have hpieces := piecesOf_eq_words (hspells.isWord h.fundamental)
    have hne : (lexemes text).filter (· ∉ qualifierWords) ≠ [] := fun hnil =>
      h.ne_nil (List.nil_perm.1 (hnil ▸ hspells))
    have hread := read_words (5 * (piecesOf text).length + 4) (hspells.mem h.fundamental) hne
    rw [canonical_perm hspells.symm h.agree |>.symm, ← hpieces] at hread
    rw [parse, readDepth]
    simp only [hread]
  · have hcanonical := isCanonical_canonical h.fundamental
    generalize canonical words = name at hcanonical
    have hparse := parse_text (t := .fundamental name) ⟨hcanonical, .nil⟩
    rwa [text_fundamental] at hparse

/-- Two orders of the words of one type, and its canonical spelling. -/
theorem parse_spelled_unsignedLong : NamesFundamental ["unsigned", "long", "int"] ∧
    parse "int const long volatile unsigned const" =
      .ok ⟨true, true, .fundamental "unsigned long", []⟩ ∧
    parse "const long/**/int\nconst unsigned" =
      .ok ⟨true, false, .fundamental "unsigned long", []⟩ ∧
    parse "unsigned long" = .ok (.fundamental "unsigned long") := by
  have hwords : NamesFundamental ["unsigned", "long", "int"] := ⟨by decide, by decide, by decide⟩
  have hcanonical : canonical ["unsigned", "long", "int"] = "unsigned long" := by decide
  obtain ⟨hparse, hlexemes, hself⟩ := parse_spelled hwords
  rw [hcanonical] at hparse hself
  have htext : " ".intercalate ["int", "const", "long", "volatile", "unsigned", "const"] =
      "int const long volatile unsigned const" := by decide
  have hfirst := hlexemes ["int", "const", "long", "volatile", "unsigned", "const"]
    (by unfold Spells; decide)
  rw [htext] at hfirst
  have hsecond : lexemes "const long/**/int\nconst unsigned" =
      ["const", "long", "int", "const", "unsigned"] := by decide +kernel
  have hmixed := hparse "int const long volatile unsigned const"
    (by rw [hfirst]; unfold Spells; decide)
  have hcomment := hparse "const long/**/int\nconst unsigned"
    (by rw [hsecond]; unfold Spells; decide)
  rw [hfirst] at hmixed
  rw [hsecond] at hcomment
  exact ⟨hwords, hmixed, hcomment, hself⟩

end TypeExpr
end Bindery
