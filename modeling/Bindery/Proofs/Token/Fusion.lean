import Bindery.Proofs.Token.Shape
import Bindery.Proofs.TypeExpr.Respelling

/-!
# Tokens that fuse in their spelling

A spelling puts blanks between words, numbers and literals, and behind commas. Whatever else stands
side by side in it touches, also where the source has a blank. So a token that is the start of a
longer one is not cut off again: two ampersands become one token, a slash and a star open a comment,
an integer takes the point behind it along. The lemmas of this module show that nothing else can go
wrong, for tokens of any text in any order.

## Main definitions

* `Piece.Scanned`: a token of some text that carries meaning and could be read.
* `Spelling.Fuses`: some token of a list goes on with what is spelled behind it.

## Main statements

* `Spelling.piecesOf_ofPieces_iff`: the spelling of a list of tokens is cut into the same tokens
  just if none of them goes on with what is spelled behind it.
-/
namespace Bindery

open Pattern

/-- Words, numbers and literals are all the tokens that are no marks. -/
theorem TokenKind.isWordLike_of_isPunct {kind : TokenKind} (herror : kind ≠ .error)
    (htrivia : kind.isTrivia = false) (h : kind.isPunct = false) :
    Spelling.isWordLike kind = true := by
  cases kind <;>
    first
    | rfl
    | exact absurd rfl herror
    | exact absurd htrivia (by decide)
    | exact absurd h (by decide)

/-! ## Tokens of a text -/

/-- A token that a text is cut into, which carries meaning and is no error. -/
structure Piece.Scanned (p : Piece) : Prop where
  readable : p.kind ≠ .error
  mem : ∃ text, p ∈ piecesOf text

/-- A token was taken by a pattern from the front of some text. -/
structure Piece.Taken (p : Piece) (q : Pattern) : Prop where
  mem : q ∈ all
  kind : q.kindOf p.text.toList = p.kind
  shape : q.Shape p.text.toList
  opens : ∃ c cs, p.text.toList = c :: cs ∧ q.opens c = true

namespace Token

/-- What is no error was taken by a pattern. -/
theorem exists_pattern_of_next {cs : List Char} {kind : TokenKind} {n : ℕ}
    (h : next cs = (kind, n)) (hkind : kind ≠ .error) :
    ∃ q ∈ all, q.scan cs = n ∧ 0 < n ∧ q.kindOf (cs.take n) = kind := by
  rw [next] at h
  cases hopen : opensComment cs with
  | true =>
    rw [if_pos hopen] at h
    exact absurd (congrArg Prod.fst h).symm hkind
  | false =>
    rw [if_neg (by simp [hopen])] at h
    cases hlongest : longest cs all with
    | none =>
      rw [hlongest] at h
      exact absurd (congrArg Prod.fst h).symm hkind
    | some best =>
      obtain ⟨q, m⟩ := best
      rw [hlongest] at h
      obtain ⟨rfl, rfl⟩ : q.kindOf (cs.take m) = kind ∧ m = n := by simpa using h
      obtain ⟨hq, hscan, -⟩ := longest_spec hlongest
      exact ⟨q, hq, hscan, longest_pos hlongest, rfl⟩

/-- Each token is what is matched in front of all the text that is left. -/
theorem Covers.exists_matched {offset : ℕ} {cs : List Char} {tokens : List Token}
    (h : Covers offset cs tokens) :
    ∀ t ∈ tokens, ∃ rest, next (t.text.toList ++ rest) = (t.kind, t.text.toList.length) := by
  induction h with
  | nil => simp
  | @cons _ _ rest _ _ _ matched _ ih =>
    refine List.forall_mem_cons.2 ⟨⟨rest, ?_⟩, ih⟩
    simpa using matched

/-- The characters of the tokens that carry meaning stand in the text, in this order. -/
theorem pieces_sublist (cs : List Char) :
    ((pieces cs).flatMap (·.text.toList)).Sublist cs := by
  have hfilter : ((scanFrom 0 cs).filter (!·.kind.isTrivia)).Sublist (scanFrom 0 cs) :=
    List.filter_sublist
  have hsub := hfilter.flatMap (·.text.toList)
  rw [(covers_scanFrom 0 cs).flatMap_text] at hsub
  rwa [pieces, List.flatMap_map]

/-- A text whose first character is in its tokens as often as in the text starts with the first of
its tokens: what carries no meaning would take the character away. -/
theorem next_of_pieces {c : Char} {cs : List Char} {p : Piece} {ps : List Piece}
    (h : pieces (c :: cs) = p :: ps)
    (hcount : (c :: cs).count c = ((p :: ps).flatMap (·.text.toList)).count c) :
    next (c :: cs) = (p.kind, p.text.toList.length) ∧
      pieces ((c :: cs).drop p.text.toList.length) = ps := by
  obtain ⟨kind, n, hnext⟩ : ∃ kind n, next (c :: cs) = (kind, n) := ⟨_, _, rfl⟩
  have hpos : 0 < n := by simpa [hnext] using next_pos c cs
  have hlength : ((c :: cs).take n).length = n := by
    simpa [hnext] using List.length_take_of_le (next_le_length (c :: cs))
  have hcut : (c :: cs).take n ++ (c :: cs).drop n = c :: cs := List.take_append_drop n (c :: cs)
  have hne : (c :: cs).take n ≠ [] := by
    rw [← List.length_pos_iff, hlength]
    exact hpos
  have hmatched : next ((c :: cs).take n ++ (c :: cs).drop n) =
      (kind, ((c :: cs).take n).length) := by rw [hcut, hlength, hnext]
  have hpieces := pieces_append hne hmatched
  rw [hcut, h] at hpieces
  cases htrivia : kind.isTrivia with
  | true =>
    rw [htrivia, if_pos rfl, List.nil_append] at hpieces
    have hle := (pieces_sublist ((c :: cs).drop n)).count_le c
    rw [← hpieces, ← hcount] at hle
    have htaken : 0 < ((c :: cs).take n).count c := by
      obtain ⟨m, rfl⟩ := Nat.exists_eq_succ_of_ne_zero hpos.ne'
      simp
    have hsum := congrArg (List.count c) hcut
    rw [List.count_append] at hsum
    omega
  | false =>
    rw [htrivia] at hpieces
    obtain ⟨rfl, hps⟩ : p = ⟨kind, String.ofList ((c :: cs).take n)⟩ ∧
        ps = pieces ((c :: cs).drop n) := by simpa using hpieces
    rw [String.toList_ofList, hlength]
    exact ⟨hnext, hps.symm⟩

end Token

theorem Piece.Scanned.isTrivia_eq_false {p : Piece} (h : p.Scanned) : p.kind.isTrivia = false := by
  obtain ⟨text, hmem⟩ := h.mem
  obtain ⟨t, ht, rfl⟩ := List.mem_map.1 hmem
  simpa using (List.mem_filter.1 ht).2

theorem Piece.Scanned.exists_taken {p : Piece} (h : p.Scanned) : ∃ q, p.Taken q := by
  obtain ⟨text, hmem⟩ := h.mem
  obtain ⟨t, ht, rfl⟩ := List.mem_map.1 hmem
  have hcovers := Token.covers_scanFrom 0 text.toList
  obtain ⟨rest, hnext⟩ := hcovers.exists_matched t (List.mem_filter.1 ht).1
  obtain ⟨q, hq, hscan, hpos, hkind⟩ := Token.exists_pattern_of_next hnext h.readable
  rw [List.take_left' rfl] at hkind
  have htrivia := h.isTrivia_eq_false
  have hscanned : q.scan (t.text.toList ++ rest) ≠ 0 := by omega
  refine ⟨q, hq, hkind, ?_, ?_⟩
  · have hshape := shape_take hscanned (by rwa [hkind])
    rwa [hscan, List.take_left' rfl] at hshape
  · obtain ⟨c, cs, htext⟩ := List.exists_cons_of_length_pos hpos
    refine ⟨c, cs, htext, ?_⟩
    by_contra hopens
    rw [htext] at hscanned
    exact hscanned (scan_eq_zero (by simpa using hopens) (cs ++ rest))

/-- A token that is no word, number or literal starts with a character that no word goes on with. -/
theorem Piece.Taken.stops {p : Piece} {q : Pattern} (h : p.Taken q)
    (hkind : Spelling.isWordLike p.kind = false) (rest : List Char) :
    Stops isWordOrTick (p.text.toList ++ rest) := by
  obtain ⟨hmem, hkindOf, hshape, -⟩ := h
  rw [← hkindOf] at hkind
  generalize p.text.toList = w at hkind hshape
  cases hshape with
  | word hw =>
    rw [Spelling.isWordLike, Token.isWord_kindOf_word] at hkind
    cases hkind
  | mark =>
    obtain ⟨m, hm, rfl, rfl⟩ := exists_of_mark_mem_all hmem
    have hmarks : ∀ m ∈ TokenKind.marks,
        m.1.toList ≠ [] ∧ m.1.toList.head?.all (!isWordOrTick ·) = true := by decide
    obtain ⟨hne, hhead⟩ := hmarks m hm
    obtain ⟨c, cs, hlist⟩ := List.exists_cons_of_ne_nil hne
    rw [hlist] at hhead ⊢
    exact stops_cons (by simpa using hhead)
  | _ => cases hkind

namespace Spelling

/-- Some token of the list goes on with what is spelled behind it. -/
def Fuses : List Piece → Bool
  | [] => false
  | p :: ps => Token.goesOn p.kind p.text.toList (tail p.kind ps) || Fuses ps

variable {p : Piece} {ps : List Piece}

/-- No word, number or literal goes on with what is spelled behind it. -/
theorem stops_tail {kind : TokenKind} (hkind : isWordLike kind = true)
    (h : ∀ q ∈ ps.head?, q.Scanned) : Stops isWordOrTick (tail kind ps) := by
  cases ps with
  | nil => exact stops_nil _
  | cons q ps =>
    rw [tail_cons, needsBlank, hkind, Bool.true_and]
    cases hq : isWordLike q.kind with
    | true => exact stops_cons rfl
    | false =>
      obtain ⟨pattern, htaken⟩ := (h q rfl).exists_taken
      rw [toList_ofPieces_cons, Bool.false_or]
      split
      · exact stops_cons rfl
      · exact htaken.stops hq _

/-- What is not a blank is spelled as often as it stands in the tokens. -/
theorem count_tail {c : Char} (hc : c ≠ ' ') (kind : TokenKind) (ps : List Piece) :
    (tail kind ps).count c = (ps.flatMap (·.text.toList)).count c := by
  induction ps generalizing kind with
  | nil => simp
  | cons p ps ih =>
    rw [tail_cons, toList_ofPieces_cons, List.flatMap_cons, List.count_append, List.count_append,
      List.count_append, ih]
    split
    · simp [hc.symm]
    · simp

/-- A token is cut off in front of spelled ones just if it is what is matched there. -/
theorem respells_cons_iff (h : p.Scanned) : Respells (p :: ps) ↔
    Token.next (p.text.toList ++ tail p.kind ps) = (p.kind, p.text.toList.length) ∧
      Respells ps := by
  obtain ⟨q, htaken⟩ := h.exists_taken
  obtain ⟨c, cs, htext, hopens⟩ := htaken.opens
  have hne : p.text.toList ≠ [] := by simp [htext]
  have hc : c ≠ ' ' := by
    rintro rfl
    have hblank : ∀ q ∈ all, q.opens ' ' = true → q = blank := by decide
    have hkind := htaken.kind
    rw [hblank q htaken.mem hopens] at hkind
    have htrivia := h.isTrivia_eq_false
    rw [← hkind] at htrivia
    cases htrivia
  constructor
  · intro hrespells
    rw [Respells, toList_ofPieces_cons, htext, List.cons_append] at hrespells
    have hcount : (c :: (cs ++ tail p.kind ps)).count c =
        ((p :: ps).flatMap (·.text.toList)).count c := by
      rw [List.flatMap_cons, htext, ← List.cons_append, List.count_append, List.count_append,
        count_tail hc]
    obtain ⟨hnext, hrest⟩ := Token.next_of_pieces hrespells hcount
    rw [← List.cons_append, ← htext] at hnext hrest
    rw [List.drop_left' rfl, pieces_tail] at hrest
    exact ⟨hnext, hrest⟩
  · rintro ⟨hnext, hrespells⟩
    refine hrespells.cons ?_
    rw [Token.pieces_append hne hnext, h.isTrivia_eq_false, String.ofList_toList]
    rfl

/-- The spelling of a list of tokens, each of which stands in some text, is cut into the same tokens
just if none of them is the start of something longer in front of what is spelled behind it. -/
theorem piecesOf_ofPieces_iff (h : ∀ p ∈ ps, p.Scanned) :
    piecesOf (ofPieces ps) = ps ↔ Fuses ps = false := by
  change Respells ps ↔ Fuses ps = false
  induction ps with
  | nil => exact ⟨fun _ => rfl, fun _ => respells_nil⟩
  | cons p ps ih =>
    obtain ⟨hp, hps⟩ := List.forall_mem_cons.1 h
    obtain ⟨q, hmem, hkind, hshape, -⟩ := hp.exists_taken
    have hstops : (q.kindOf p.text.toList).isPunct = false →
        Stops isWordOrTick (tail p.kind ps) := fun hpunct =>
      stops_tail (TokenKind.isWordLike_of_isPunct hp.readable hp.isTrivia_eq_false
        (by rwa [← hkind])) fun q hq => hps q (List.mem_of_mem_head? hq)
    have hnext := Token.next_append_iff hmem hshape hstops
    rw [hkind] at hnext
    rw [respells_cons_iff hp, ih hps, hnext, Fuses, Bool.or_eq_false_iff]

/-- Blanks that only part marks are not spelled, and need not be where the marks do not fuse. -/
theorem piecesOf_ofPieces_iff_call :
    (∀ p ∈ piecesOf "f ( a [ 3u ] . b , * & c )", p.Scanned) ∧
    ofPieces (piecesOf "f ( a [ 3u ] . b , * & c )") = "f(a[3u].b, *&c)" ∧
    piecesOf (ofPieces (piecesOf "f ( a [ 3u ] . b , * & c )")) =
      piecesOf "f ( a [ 3u ] . b , * & c )" := by
  have hscanned : ∀ p ∈ piecesOf "f ( a [ 3u ] . b , * & c )", p.Scanned := by
    have hreadable : ∀ p ∈ piecesOf "f ( a [ 3u ] . b , * & c )", p.kind ≠ .error := by
      decide +kernel
    exact fun p hp => ⟨hreadable p hp, _, hp⟩
  exact ⟨hscanned, by decide +kernel,
    (piecesOf_ofPieces_iff hscanned).2 (by decide +kernel)⟩

/-- The address of an operand of a bitwise conjunction is spelled as a logical one. -/
theorem piecesOf_ofPieces_amp :
    (∀ p ∈ piecesOf "a & &b", p.Scanned) ∧ ofPieces (piecesOf "a & &b") = "a&&b" ∧
    piecesOf (ofPieces (piecesOf "a & &b")) ≠ piecesOf "a & &b" := by
  have hreadable : ∀ p ∈ piecesOf "a & &b", p.kind ≠ .error := by decide +kernel
  exact ⟨fun p hp => ⟨hreadable p hp, _, hp⟩, by decide +kernel, by decide +kernel⟩

end Spelling
end Bindery
