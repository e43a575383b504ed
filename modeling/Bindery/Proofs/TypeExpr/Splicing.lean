import Bindery.Proofs.Token.Fusion
import Bindery.Proofs.TypeExpr.Arithmetic
import Bindery.TypeExpr.Substitution

/-!
# Replacing parameters in values

A value is replaced by its text: the printed arguments take the place of the parameters among its
tokens, and the tokens are spelled again. No parentheses are put around an argument, so precedence
can group the new text otherwise than the old one with a number for each name. This happens where an
argument that is a sum comes under a sign, into a product or behind a minus, and nowhere else.

## Main definitions

* `Spelling.Written`: a text is some tokens in order, with blanks between them.
* `ValueExpr.Reads`: a text is read as an expression.
* `ValueExpr.Denotes`: the number that a text stands for.

## Main statements

* `ValueExpr.Reads.denotes`: a text that is read as an expression stands for its number.
* `TemplateArg.denotes_substitute`: when replacing parameters by their texts keeps the number.
-/
namespace Bindery

open Pattern

/-! ## Written tokens -/

/-- The text is the tokens in order, with blanks in front of them, between them and behind them. -/
inductive Spelling.Written : List Piece → List Char → Prop
  | nil : Written [] []
  | blank {c : Char} {ps : List Piece} {cs : List Char} (space : isSpace c = true)
      (rest : Written ps cs) : Written ps (c :: cs)
  | token {p : Piece} {ps : List Piece} {cs : List Char} (scanned : p.Scanned)
      (rest : Written ps cs) : Written (p :: ps) (p.text.toList ++ cs)

/-- The kinds of the tokens of expressions. -/
def TokenKind.arithmetic : List TokenKind :=
  [.intNumber, .ident, .plus, .minus, .star, .lParen, .rParen]

namespace Spelling

variable {ps qs : List Piece} {cs ds : List Char}

theorem Written.append (h : Written ps cs) (h' : Written qs ds) :
    Written (ps ++ qs) (cs ++ ds) := by
  induction h with
  | nil => exact h'
  | blank space _ ih => exact .blank space ih
  | token scanned _ ih =>
    rw [List.cons_append, List.append_assoc]
    exact .token scanned ih

/-- A list of tokens in which blanks can be left out: no number and no name stands behind another
one. -/
structure Apart (ps : List Piece) : Prop where
  arithmetic : ∀ p ∈ ps, p.kind ∈ TokenKind.arithmetic
  separated : ps.IsChain fun p q => isWordLike p.kind = true → isWordLike q.kind = false

theorem Written.scanned (h : Written ps cs) : ∀ p ∈ ps, p.Scanned := by
  induction h with
  | nil => simp
  | blank _ _ ih => exact ih
  | token scanned _ ih => exact List.forall_mem_cons.2 ⟨scanned, ih⟩

theorem written_singleton {p : Piece} (h : p.Scanned) : Written [p] p.text.toList := by
  simpa using Written.token h .nil

theorem isWordOrTick_eq_false_of_isSpace {c : Char} (h : isSpace c = true) :
    isWordOrTick c = false := by
  simp only [isSpace, Bool.or_eq_true, decide_eq_true_eq] at h
  rcases h with (((rfl | rfl) | rfl) | rfl) | rfl <;> rfl

theorem Written.stops_isWordOrTick (h : Written ps cs)
    (hps : ∀ p ∈ ps.head?, isWordLike p.kind = false) : Stops isWordOrTick cs := by
  cases h with
  | nil => exact stops_nil _
  | blank space rest => exact stops_cons (isWordOrTick_eq_false_of_isSpace space)
  | token scanned rest =>
    obtain ⟨q, htaken⟩ := scanned.exists_taken
    exact htaken.stops (hps _ rfl) _

/-- No token of an expression starts with a point or a closing angle bracket. -/
theorem Written.head?_ne (h : Written ps cs) (hps : ∀ p ∈ ps, p.kind ∈ TokenKind.arithmetic) :
    cs.head? ≠ some '.' ∧ cs.head? ≠ some '>' := by
  cases h with
  | nil => simp
  | blank space rest => constructor <;> (rintro ⟨⟩; cases space)
  | @token p ps cs scanned rest =>
    obtain ⟨q, hmem, hkind, -, c, w, htext, hopens⟩ := scanned.exists_taken
    have hpatterns : ∀ q ∈ all, q.opens '.' = true ∨ q.opens '>' = true →
        q = fraction ∨ ∃ m ∈ [(".", .dot), ("...", .ellipsis), (">", .rAngle)],
          q = .mark m.1.toList m.2 := by decide
    have harithmetic : q.kindOf p.text.toList ∈ TokenKind.arithmetic :=
      hkind ▸ hps p List.mem_cons_self
    have hopens' : ¬ (q.opens '.' = true ∨ q.opens '>' = true) := by
      intro hopens'
      rcases hpatterns q hmem hopens' with rfl | ⟨m, hm, rfl⟩
      · change TokenKind.floatNumber ∈ TokenKind.arithmetic at harithmetic
        exact absurd harithmetic (by decide)
      · have hmarks : ∀ m ∈ [(".", .dot), ("...", .ellipsis), (">", .rAngle)],
            m.2 ∉ TokenKind.arithmetic := by decide
        exact hmarks m hm harithmetic
    rw [htext]
    constructor
    · rintro ⟨⟩
      exact hopens' (.inl hopens)
    · rintro ⟨⟩
      exact hopens' (.inr hopens)

/-- Tokens that are apart are read again from what is written. -/
theorem Written.pieces_eq (h : Written ps cs) (hps : Apart ps) : Token.pieces cs = ps := by
  induction h with
  | nil => exact Token.pieces_nil
  | blank space _ ih => rw [Token.pieces_space space, ih hps]
  | @token p ps cs scanned rest ih =>
    obtain ⟨harithmetic, hseparated⟩ := hps
    obtain ⟨hhead, htail⟩ := List.isChain_cons.1 hseparated
    obtain ⟨hp, harithmetic⟩ := List.forall_mem_cons.1 harithmetic
    obtain ⟨q, hmem, hkind, hshape, c, w, htext, -⟩ := scanned.exists_taken
    -- Behind a name or a number there is a blank, an operator or nothing: it ends where it is cut.
    have hstops (hpunct : (q.kindOf p.text.toList).isPunct = false) : Stops isWordOrTick cs := by
      refine rest.stops_isWordOrTick fun p' hp' => hhead p' hp' ?_
      exact TokenKind.isWordLike_of_isPunct scanned.readable scanned.isTrivia_eq_false
        (hkind ▸ hpunct)
    have hgoes : Token.goesOn (q.kindOf p.text.toList) p.text.toList cs = false := by
      obtain ⟨hpoint, hangle⟩ := rest.head?_ne harithmetic
      have hkinds : ∀ kind ∈ TokenKind.arithmetic, ∀ w : List Char,
          Token.goesOn kind w cs = false := by
        simp [TokenKind.arithmetic, Token.goesOn, hpoint, hangle]
      exact hkinds _ (hkind ▸ hp) _
    have hnext := Token.next_append hmem hshape hstops hgoes
    rw [Token.pieces_append (by simp [htext]) hnext, hkind, scanned.isTrivia_eq_false,
      String.ofList_toList, ih ⟨harithmetic, htail⟩]
    rfl

/-! ## Spelled tokens -/

/-- What is spelled from texts in which tokens are written has these tokens in order. -/
theorem written_spellBehind {g : Piece → List Piece} {h : Piece → Piece}
    (hps : ∀ p ∈ ps, Written (g p) (h p).text.toList) (isFirst : Bool) (before : TokenKind) :
    Written (ps.flatMap g)
      ((TemplateArg.spellBehind isFirst before (ps.map h)).flatMap String.toList) := by
  induction ps generalizing isFirst before with
  | nil => exact .nil
  | cons p ps ih =>
    obtain ⟨hp, hps⟩ := List.forall_mem_cons.1 hps
    have hwritten := hp.append (ih hps false (h p).kind)
    rw [List.map_cons, List.flatMap_cons, TemplateArg.spellBehind]
    split
    · exact .blank rfl hwritten
    · exact hwritten

theorem written_spell {g : Piece → List Piece} {h : Piece → Piece}
    (hps : ∀ p ∈ ps, Written (g p) (h p).text.toList) :
    Written (ps.flatMap g) (TemplateArg.spell (ps.map h)).toList := by
  cases ps with
  | nil => exact .nil
  | cons p ps =>
    obtain ⟨hp, hps⟩ := List.forall_mem_cons.1 hps
    rw [List.map_cons, TemplateArg.spell, String.toList_join, List.flatMap_cons, List.flatMap_cons]
    exact hp.append (written_spellBehind hps true (h p).kind)

end Spelling

/-! ## Expressions in texts -/

namespace ValueExpr

variable {e : ValueExpr} {f : String → ValueExpr} {text : String}

/-- Operands of an expression stand apart from each other. -/
theorem apart_pieces (e : ValueExpr) : Spelling.Apart e.pieces := by
  constructor
  · induction e with
    | literal | name => simp [pieces, TokenKind.arithmetic]
    | neg e ih => simpa [pieces, TokenKind.arithmetic] using ih
    | bin op l r ihl ihr =>
      rw [pieces, List.forall_mem_append, List.forall_mem_cons]
      exact ⟨ihl, by cases op <;> decide, ihr⟩
    | paren e ih =>
      rw [pieces, List.forall_mem_cons, List.forall_mem_append]
      exact ⟨by decide, ih, by simp [TokenKind.arithmetic]⟩
  · induction e with
    | literal | name => exact List.isChain_singleton _
    | neg e ih => exact List.isChain_cons.2 ⟨fun _ _ h => (by cases h), ih⟩
    | bin op l r ihl ihr =>
      have hop : Spelling.isWordLike op.piece.kind = false := by cases op <;> rfl
      rw [pieces, List.isChain_append, List.isChain_cons]
      refine ⟨ihl, ⟨fun _ _ h => ?_, ihr⟩, ?_⟩
      · rw [hop] at h
        cases h
      · rintro _ _ _ ⟨⟩ _
        exact hop
    | paren e ih =>
      rw [pieces, List.isChain_cons, List.isChain_append]
      refine ⟨fun _ _ h => (by cases h), ih, List.isChain_singleton _, ?_⟩
      rintro _ _ _ ⟨⟩ _
      rfl

/-- The text is read as the expression. -/
structure Reads (e : ValueExpr) (text : String) : Prop where
  grouped : e.Grouped
  written : Spelling.Written e.pieces text.toList

/-- The text is read as an expression, and stands for the number in every way to read it. -/
def Denotes (readLiteral env : String → Int) (text : String) (n : Int) : Prop :=
  (∃ e : ValueExpr, e.Reads text) ∧ ∀ e : ValueExpr, e.Reads text → e.value readLiteral env = n

theorem Reads.piecesOf_eq (h : e.Reads text) : piecesOf text = e.pieces :=
  h.written.pieces_eq e.apart_pieces

/-- A text that is read as an expression stands for its number. -/
theorem Reads.denotes (h : e.Reads text) (readLiteral env : String → Int) :
    Denotes readLiteral env text (e.value readLiteral env) := by
  refine ⟨⟨e, h⟩, fun e' h' => ?_⟩
  exact value_eq_of_pieces_eq h'.grouped.tight h.grouped.tight
    (h'.piecesOf_eq.symm.trans h.piecesOf_eq) readLiteral env

/-- The spelling of the tokens of an expression is read as the expression. -/
theorem reads_of_spell (he : e.Grouped) (hpieces : piecesOf text = e.pieces)
    (hspell : TemplateArg.spell e.pieces = text) : e.Reads text := by
  have hscanned (p : Piece) (hp : p ∈ e.pieces) : p.Scanned := by
    refine ⟨?_, text, hpieces ▸ hp⟩
    have hkind := e.apart_pieces.arithmetic p hp
    intro herror
    rw [herror] at hkind
    exact absurd hkind (by decide)
  refine ⟨he, ?_⟩
  have hwritten := Spelling.written_spell (g := fun p => [p]) (h := id) fun p hp =>
    Spelling.written_singleton (hscanned p hp)
  rwa [List.flatMap_singleton', List.map_id, hspell] at hwritten

theorem mem_names_of_ident {p : Piece} (h : p ∈ e.pieces) (hkind : p.kind = .ident) :
    p.text ∈ e.names := by
  induction e with
  | literal | name => simp_all [pieces, names]
  | neg e ih =>
    rcases List.mem_cons.1 h with rfl | h
    · cases hkind
    · exact ih h
  | bin op l r ihl ihr =>
    rw [names, List.mem_append]
    rw [pieces, List.mem_append, List.mem_cons] at h
    rcases h with h | rfl | h
    · exact .inl (ihl h)
    · cases op <;> cases hkind
    · exact .inr (ihr h)
  | paren e ih =>
    rw [pieces, List.mem_cons, List.mem_append, List.mem_singleton] at h
    rcases h with rfl | h | rfl
    · cases hkind
    · exact ih h
    · cases hkind

/-- Replacing parameters by their texts is replacing names by their expressions. -/
theorem Reads.written_substituteText {b : Bindings} (he : e.Reads text)
    (hb : ∀ x ∈ e.names, ∃ bound, b.find? x = some (.value bound) ∧ (f x).Reads bound) :
    Spelling.Written (e.replace f).pieces (TemplateArg.substituteText b text).toList := by
  rw [pieces_replace, TemplateArg.substituteText, he.piecesOf_eq]
  refine Spelling.written_spell fun p hp => ?_
  rw [splice]
  split
  · rename_i hkind
    obtain ⟨bound, hfound, hbound⟩ := hb _ (mem_names_of_ident hp hkind)
    rw [hfound]
    exact hbound.written
  · exact Spelling.written_singleton (he.written.scanned p hp)

end ValueExpr

/-- **Replacing parameters in a value** keeps the number that it stands for, with each parameter
standing for the number of its argument, if no argument that is a sum comes under a sign, into a
product or behind a minus. -/
theorem TemplateArg.denotes_substitute {text : String} {e : ValueExpr} {f : String → ValueExpr}
    {b : Bindings} (he : e.Reads text)
    (hb : ∀ x ∈ e.names, ∃ bound, b.find? x = some (.value bound) ∧ (f x).Reads bound)
    (hexposed : ∀ x ∈ e.exposed, 1 ≤ (f x).level) :
    ∃ result, (TemplateArg.value text).substitute b = .value result ∧
      ∀ readLiteral env : String → Int, ValueExpr.Denotes readLiteral env result
        (e.value readLiteral fun x => (f x).value readLiteral env) := by
  have hgrouped (x : String) (hx : x ∈ e.names) : (f x).Grouped := by
    obtain ⟨_, _, hbound⟩ := hb x hx
    exact hbound.grouped
  obtain ⟨e', he', hpieces, hvalue⟩ := ValueExpr.exists_grouped_replace he.grouped hgrouped hexposed
  have hreads : e'.Reads (TemplateArg.substituteText b text) :=
    ⟨he', hpieces ▸ he.written_substituteText hb⟩
  refine ⟨_, by rw [TemplateArg.substitute], fun readLiteral env => ?_⟩
  rw [← hvalue]
  exact hreads.denotes readLiteral env

/-- A sum in front of a minus and a negative factor. -/
theorem TemplateArg.denotes_substitute_sum :
    let e : ValueExpr := .bin .sub (.name "P") (.bin .mul (.literal "2") (.name "N"))
    let f : String → ValueExpr := fun x =>
      if x = "P" then .bin .add (.literal "1") (.literal "2") else .neg (.literal "1")
    let b : Bindings := ⟨[("N", .value "-1"), ("P", .value "1 + 2")]⟩
    e.Reads "P - 2 * N" ∧
      (∀ x ∈ e.names, ∃ bound, b.find? x = some (.value bound) ∧ (f x).Reads bound) ∧
      (∀ x ∈ e.exposed, 1 ≤ (f x).level) ∧
      ∃ result, (TemplateArg.value "P - 2 * N").substitute b = .value result ∧
        ∀ readLiteral env : String → Int, ValueExpr.Denotes readLiteral env result
          (e.value readLiteral fun x => (f x).value readLiteral env) := by
  intro e f b
  have he : e.Reads "P - 2 * N" :=
    ValueExpr.reads_of_spell (by decide) (by decide +kernel) (by decide)
  have hb : ∀ x ∈ e.names, ∃ bound, b.find? x = some (.value bound) ∧ (f x).Reads bound := by
    have hnames : e.names = ["P", "N"] := rfl
    simp only [hnames, List.forall_mem_cons, List.not_mem_nil, false_implies, implies_true,
      and_true]
    exact ⟨⟨"1 + 2", rfl, ValueExpr.reads_of_spell (by decide) (by decide +kernel) (by decide)⟩,
      ⟨"-1", rfl, ValueExpr.reads_of_spell (by decide) (by decide +kernel) (by decide)⟩⟩
  have hexposed : ∀ x ∈ e.exposed, 1 ≤ (f x).level := by decide
  exact ⟨he, hb, hexposed, TemplateArg.denotes_substitute he hb hexposed⟩

/-- A sum that comes into a product: `(1 + 2) * 2` is 6, and `1 + 2 * 2` is 5. -/
theorem TemplateArg.denotes_substitute_product :
    let readLiteral : String → Int := fun digits => digits.toNat?.getD 0
    let env : String → Int := fun _ => 0
    let e : ValueExpr := .bin .mul (.name "N") (.literal "2")
    let sum : ValueExpr := .bin .add (.literal "1") (.literal "2")
    e.Reads "N * 2" ∧ sum.Reads "1 + 2" ∧
      e.value readLiteral (fun _ => sum.value readLiteral env) = 6 ∧
      (TemplateArg.value "N * 2").substitute ⟨[("N", .value "1 + 2")]⟩ = .value "1 + 2 * 2" ∧
      ¬ ValueExpr.Denotes readLiteral env "1 + 2 * 2" 6 := by
  intro readLiteral env e sum
  let spliced : ValueExpr := .bin .add (.literal "1") (.bin .mul (.literal "2") (.literal "2"))
  have hsubstitute : TemplateArg.substituteText ⟨[("N", .value "1 + 2")]⟩ "N * 2" =
      "1 + 2 * 2" := by decide +kernel
  have hspliced : spliced.Reads "1 + 2 * 2" :=
    ValueExpr.reads_of_spell (by decide) (by decide +kernel) (by decide)
  refine ⟨ValueExpr.reads_of_spell (by decide) (by decide +kernel) (by decide),
    ValueExpr.reads_of_spell (by decide) (by decide +kernel) (by decide), by cbv,
    by rw [TemplateArg.substitute, hsubstitute], fun hdenotes => ?_⟩
  have hfive : spliced.value readLiteral env = 5 := by cbv
  exact absurd (hfive.symm.trans (hdenotes.2 _ hspliced)) (by decide)

end Bindery
