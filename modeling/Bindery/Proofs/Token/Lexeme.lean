import Bindery.Token.Scan
import Bindery.Preprocess.MacroTable
import Mathlib

/-!
# Tokens in front of a rest

A token is read with the rest of the text behind it in view, since the longest match may reach
into that rest. The lemmas of this module say of each sort of token which rests cannot extend
it, so that a text put together from tokens is cut at its seams.

## Main definitions

* `Pattern.Stops`: a rest does not go on with a class of characters.
* `Pattern.isWord`: the texts of identifiers and reserved words.
* `Token.pieces`: the tokens of a text that carry meaning, without their offsets.
-/
namespace Bindery

namespace Pattern

/-! ## Runs of characters -/

/-- The text does not start with a character of a class. -/
def Stops (p : Char → Bool) (rest : List Char) : Prop := ∀ c ∈ rest.head?, p c = false

theorem stops_nil (p : Char → Bool) : Stops p [] := by simp [Stops]

theorem stops_cons {p : Char → Bool} {c : Char} {cs : List Char} (h : p c = false) :
    Stops p (c :: cs) := by simp [Stops, h]

/-- A text that does not go on with a class does not go on with a part of it. -/
theorem Stops.mono {p q : Char → Bool} {rest : List Char} (h : Stops p rest)
    (hpq : ∀ c, q c = true → p c = true) : Stops q rest := by
  intro c hc
  have hp := h c hc
  cases hq : q c with
  | false => rfl
  | true => rw [hpq c hq] at hp; exact hp

theorem run_le_length (p : Char → Bool) (cs : List Char) : run p cs ≤ cs.length :=
  (List.takeWhile_sublist p).length_le

theorem run_eq_zero {p : Char → Bool} {rest : List Char} (h : Stops p rest) : run p rest = 0 := by
  cases rest with
  | nil => rfl
  | cons c cs => simp [run, h c (by simp)]

/-- A run ends where the rest does not go on with its class. -/
theorem run_append {p : Char → Bool} {rest : List Char} (h : Stops p rest) (cs : List Char) :
    run p (cs ++ rest) = run p cs := by
  induction cs with
  | nil => exact run_eq_zero h
  | cons c cs ih =>
      simp only [run] at ih ⊢
      cases hc : p c with
      | false => simp [hc]
      | true => simp [hc, ih]

/-! ## Words -/

/-- A letter or underscore, followed by letters, digits and underscores. -/
def isWord : List Char → Bool
  | [] => false
  | c :: cs => isWordStart c && cs.all isWordChar

theorem toNat_of_isWordStart {c : Char} (h : isWordStart c = true) :
    65 ≤ c.toNat ∧ c.toNat ≤ 90 ∨ 97 ≤ c.toNat ∧ c.toNat ≤ 122 ∨ c.toNat = 95 := by
  simp only [isWordStart, Char.isAlpha, Char.isUpper, Char.isLower, Bool.or_eq_true,
    Bool.and_eq_true, decide_eq_true_eq] at h
  rcases h with (h | h) | h
  · exact .inl h
  · exact .inr (.inl h)
  · subst h
    exact .inr (.inr rfl)

theorem isDigit_eq_false_of_isWordStart {c : Char} (h : isWordStart c = true) :
    c.isDigit = false := by
  have hnat := toNat_of_isWordStart h
  have hlt : ¬ c.toNat ≤ 57 := by omega
  simp only [Char.isDigit, Bool.and_eq_false_iff, decide_eq_false_iff_not]
  exact .inr hlt

theorem isSpace_eq_false_of_isWordStart {c : Char} (h : isWordStart c = true) :
    isSpace c = false := by
  by_contra hspace
  simp only [Bool.not_eq_false, isSpace, Bool.or_eq_true, decide_eq_true_eq] at hspace
  rcases hspace with (((rfl | rfl) | rfl) | rfl) | rfl <;> exact absurd h (by decide)

/-- The pattern of a mark comes from the table of marks. -/
theorem exists_of_mark_mem_all {spelling : List Char} {kind : TokenKind}
    (hp : mark spelling kind ∈ all) :
    ∃ m ∈ TokenKind.marks, m.1.toList = spelling ∧ m.2 = kind := by
  simp only [all, List.mem_append, List.mem_map] at hp
  rcases hp with hp | ⟨m, hm, heq⟩
  · simp at hp
  · injection heq with hspelling hkind
    exact ⟨m, hm, hspelling, hkind⟩

/-- A match of the pattern can start with the character. -/
def opens (c : Char) : Pattern → Bool
  | blank => isSpace c
  | lineComment | blockComment => c = '/'
  | directive => c = '#'
  | word => isWordStart c
  | decimal | hexadecimal | pointed | exponential => c.isDigit
  | fraction => c = '.'
  | string => c = '"'
  | character => c = '\''
  | mark spelling _ => spelling.head? = some c

theorem scan_eq_zero {p : Pattern} {c : Char} (h : p.opens c = false) (cs : List Char) :
    p.scan (c :: cs) = 0 := by
  cases p with
  | blank => exact run_eq_zero (stops_cons h)
  | hexadecimal =>
      have hc : c ≠ '0' := by
        rintro rfl
        exact absurd h (by decide)
      simp [scan, hc]
  | mark spelling kind =>
      cases spelling with
      | nil => rfl
      | cons d ds =>
          have hdc : (d == c) = false := by simpa [opens] using h
          simp [scan, List.isPrefixOf, hdc]
  | _ =>
      simp only [opens, decide_eq_false_iff_not] at h
      simp [scan, quoted, leadingDigits, h]

/-- Where a word starts, no other pattern matches. -/
theorem opens_of_isWordStart {c : Char} (h : isWordStart c = true) {p : Pattern} (hp : p ∈ all)
    (hne : p ≠ .word) : p.opens c = false := by
  have hc (d : Char) (hd : isWordStart d = false) : c ≠ d := by
    rintro rfl
    rw [hd] at h
    exact absurd h (by decide)
  have hmarks : ∀ m ∈ TokenKind.marks, m.1.toList.head?.all (!isWordStart ·) = true := by decide
  cases p with
  | blank => exact isSpace_eq_false_of_isWordStart h
  | word => exact absurd rfl hne
  | decimal => exact isDigit_eq_false_of_isWordStart h
  | hexadecimal => exact isDigit_eq_false_of_isWordStart h
  | pointed => exact isDigit_eq_false_of_isWordStart h
  | exponential => exact isDigit_eq_false_of_isWordStart h
  | mark spelling kind =>
      obtain ⟨m, hm, rfl, rfl⟩ := exists_of_mark_mem_all hp
      refine decide_eq_false fun hhead => ?_
      have hmark := hmarks m hm
      rw [hhead, Option.all_some, h] at hmark
      exact absurd hmark (by decide)
  | _ => exact decide_eq_false (hc _ rfl)

theorem scan_word_append {w rest : List Char} (hw : isWord w = true)
    (hrest : Stops isWordChar rest) : word.scan (w ++ rest) = w.length := by
  cases w with
  | nil => simp [isWord] at hw
  | cons c cs =>
      simp only [isWord, Bool.and_eq_true] at hw
      have hall : cs.takeWhile isWordChar = cs := by
        rw [List.takeWhile_eq_self_iff]
        exact List.all_eq_true.mp hw.2
      have hrun : run isWordChar (cs ++ rest) = cs.length := by
        rw [run_append hrest, run, hall]
      simp [scan, hw.1, hrun, Nat.add_comm]

end Pattern

namespace Token

/-! ## The longest match -/

theorem longest_eq_none {cs : List Char} {ps : List Pattern} (h : longest cs ps = none) :
    ∀ p ∈ ps, p.scan cs = 0 := by
  induction ps with
  | nil => simp
  | cons q qs ih =>
      rw [longest] at h
      cases hscan : q.scan cs with
      | zero =>
          rw [hscan] at h
          exact List.forall_mem_cons.mpr ⟨hscan, ih h⟩
      | succ m =>
          exfalso
          rw [hscan] at h
          cases hbest : longest cs qs with
          | none => simp [hbest] at h
          | some best =>
              rw [hbest] at h
              dsimp only at h
              split at h <;> simp at h

/-- What a longest match is: one of the patterns matches so much, and none matches more. -/
theorem longest_spec {cs : List Char} {ps : List Pattern} {p : Pattern} {n : ℕ}
    (h : longest cs ps = some (p, n)) :
    p ∈ ps ∧ p.scan cs = n ∧ ∀ q ∈ ps, q.scan cs ≤ n := by
  induction ps generalizing p n with
  | nil => simp [longest] at h
  | cons q qs ih =>
      rw [longest] at h
      cases hscan : q.scan cs with
      | zero =>
          rw [hscan] at h
          obtain ⟨hp, hn, hle⟩ := ih h
          exact ⟨List.mem_cons_of_mem q hp, hn, List.forall_mem_cons.mpr ⟨by omega, hle⟩⟩
      | succ m =>
          rw [hscan] at h
          cases hbest : longest cs qs with
          | none =>
              rw [hbest] at h
              obtain ⟨rfl, rfl⟩ : q = p ∧ m + 1 = n := by simpa using h
              have hzero := longest_eq_none hbest
              refine ⟨List.mem_cons_self, hscan, List.forall_mem_cons.mpr ⟨by omega, ?_⟩⟩
              intro r hr
              rw [hzero r hr]
              omega
          | some best =>
              obtain ⟨r, k⟩ := best
              obtain ⟨hr, hk, hle⟩ := ih hbest
              rw [hbest] at h
              by_cases hlt : m + 1 < k
              · obtain ⟨rfl, rfl⟩ : r = p ∧ k = n := by simpa [hlt] using h
                exact ⟨List.mem_cons_of_mem q hr, hk, List.forall_mem_cons.mpr ⟨by omega, hle⟩⟩
              · obtain ⟨rfl, rfl⟩ : q = p ∧ m + 1 = n := by simpa [hlt] using h
                refine ⟨List.mem_cons_self, hscan, List.forall_mem_cons.mpr ⟨by omega, ?_⟩⟩
                intro u hu
                have huk := hle u hu
                omega

/-- Only the lengths of the matches decide which one is the longest. -/
theorem longest_congr {cs ds : List Char} {ps : List Pattern}
    (h : ∀ p ∈ ps, p.scan cs = p.scan ds) : longest cs ps = longest ds ps := by
  induction ps with
  | nil => rfl
  | cons p ps ih =>
      rw [longest, longest, h p List.mem_cons_self,
        ih fun q hq => h q (List.mem_cons_of_mem p hq)]

/-- A pattern that matches more than every other one has the longest match. -/
theorem longest_eq_of_greatest {cs : List Char} {ps : List Pattern} {p : Pattern} (hp : p ∈ ps)
    (hpos : 0 < p.scan cs) (hgreatest : ∀ q ∈ ps, q ≠ p → q.scan cs < p.scan cs) :
    longest cs ps = some (p, p.scan cs) := by
  cases hl : longest cs ps with
  | none =>
      have hzero := longest_eq_none hl p hp
      omega
  | some r =>
      obtain ⟨q, n⟩ := r
      obtain ⟨hq, hscan, hle⟩ := longest_spec hl
      have hqp : q = p := by
        by_contra hne
        have hlt := hgreatest q hq hne
        have hpn := hle p hp
        omega
      rw [← hscan, hqp]

/-- A pattern that is the only one to match has the longest match. -/
theorem longest_eq_of_only {cs : List Char} {ps : List Pattern} {p : Pattern} (hp : p ∈ ps)
    (hpos : 0 < p.scan cs) (honly : ∀ q ∈ ps, q ≠ p → q.scan cs = 0) :
    longest cs ps = some (p, p.scan cs) :=
  longest_eq_of_greatest hp hpos fun q hq hne => by rwa [honly q hq hne]

/-! ## The next token -/

theorem next_of_longest {cs : List Char} {p : Pattern} {n : ℕ} (hopen : opensComment cs = false)
    (h : longest cs Pattern.all = some (p, n)) : next cs = (p.kindOf (cs.take n), n) := by
  rw [next, hopen, h]
  rfl

/-- A word in front of a rest that does not go on with it. -/
theorem next_word {w rest : List Char} (hw : Pattern.isWord w = true)
    (hrest : Pattern.Stops Pattern.isWordChar rest) :
    next (w ++ rest) = (Pattern.word.kindOf w, w.length) := by
  have hscan := Pattern.scan_word_append hw hrest
  cases w with
  | nil => simp [Pattern.isWord] at hw
  | cons c cs =>
      have hstart : Pattern.isWordStart c = true := by
        simp only [Pattern.isWord, Bool.and_eq_true] at hw
        exact hw.1
      have hlongest : longest (c :: cs ++ rest) Pattern.all =
          some (.word, (c :: cs).length) := by
        rw [← hscan]
        refine longest_eq_of_only (by decide) (by rw [hscan]; simp) fun q hq hne => ?_
        exact Pattern.scan_eq_zero (Pattern.opens_of_isWordStart hstart hq hne) (cs ++ rest)
      have hopen : opensComment (c :: cs ++ rest) = false := by
        have hne : c ≠ '/' := by
          rintro rfl
          exact absurd hstart (by decide)
        simp [opensComment, hne]
      rw [next_of_longest hopen hlongest, List.take_left' rfl]

/-! ## Marks and blanks -/

/-- A mark of one character in front of a rest that makes no other pattern match. -/
theorem next_mark {c : Char} {kind : TokenKind} {cs : List Char}
    (hp : .mark [c] kind ∈ Pattern.all) (hopen : opensComment (c :: cs) = false)
    (hothers : ∀ q ∈ Pattern.all, q ≠ .mark [c] kind → q.opens c = true → q.scan (c :: cs) = 0) :
    next (c :: cs) = (kind, 1) := by
  have hscan : (Pattern.mark [c] kind).scan (c :: cs) = 1 := by
    simp [Pattern.scan, List.isPrefixOf]
  have hlongest : longest (c :: cs) Pattern.all = some (.mark [c] kind, 1) := by
    rw [← hscan]
    refine longest_eq_of_only hp (by omega) fun q hq hne => ?_
    cases hopens : q.opens c with
    | false => exact Pattern.scan_eq_zero hopens cs
    | true => exact hothers q hq hne hopens
  exact next_of_longest hopen hlongest

/-- A mark of one character that can only be the start of one of two. -/
theorem next_mark_of_pair {c d : Char} {kind : TokenKind} (pair : TokenKind) {cs : List Char}
    (hp : .mark [c] kind ∈ Pattern.all) (hopen : opensComment (c :: cs) = false)
    (hpair : ∀ q ∈ Pattern.all, q ≠ .mark [c] kind → q.opens c = true → q = .mark [c, d] pair)
    (h : Pattern.Stops (· = d) cs) : next (c :: cs) = (kind, 1) := by
  refine next_mark hp hopen fun q hq hne hopens => ?_
  rw [hpair q hq hne hopens]
  cases cs with
  | nil => simp [Pattern.scan, List.isPrefixOf]
  | cons e cs =>
      have he : d ≠ e := by simpa [eq_comm] using h e (by simp)
      simp [Pattern.scan, List.isPrefixOf, he]

theorem next_amp {cs : List Char} (h : Pattern.Stops (· = '&') cs) :
    next ('&' :: cs) = (.amp, 1) :=
  next_mark_of_pair .ampAmp (by decide) rfl (by decide) h

theorem next_minus {cs : List Char} (h : Pattern.Stops (· = '>') cs) :
    next ('-' :: cs) = (.minus, 1) :=
  next_mark_of_pair .arrow (by decide) rfl (by decide) h

theorem next_colon {cs : List Char} (h : Pattern.Stops (· = ':') cs) :
    next (':' :: cs) = (.colon, 1) :=
  next_mark_of_pair .colonColon (by decide) rfl (by decide) h

/-- A separating character takes all those behind it along. -/
theorem next_space {c : Char} (h : Pattern.isSpace c = true) (cs : List Char) :
    next (c :: cs) = (.blank, 1 + Pattern.run Pattern.isSpace cs) := by
  have hrun : Pattern.run Pattern.isSpace (c :: cs) = 1 + Pattern.run Pattern.isSpace cs := by
    simp [Pattern.run, h, Nat.add_comm]
  simp only [Pattern.isSpace, Bool.or_eq_true, decide_eq_true_eq] at h
  have hlongest : longest (c :: cs) Pattern.all =
      some (.blank, Pattern.run Pattern.isSpace (c :: cs)) := by
    refine longest_eq_of_only (by decide) (by simp only [Pattern.scan, hrun]; omega) ?_
    intro q hq hne
    refine Pattern.scan_eq_zero ?_ cs
    rcases h with (((rfl | rfl) | rfl) | rfl) | rfl <;> revert q <;> decide
  have hopen : opensComment (c :: cs) = false := by
    rcases h with (((rfl | rfl) | rfl) | rfl) | rfl <;> rfl
  rw [next_of_longest hopen hlongest, hrun]
  rfl

/-! ## Tokens that carry meaning -/

/-- The tokens of a text that carry meaning, without their offsets. -/
def pieces (cs : List Char) : List Piece :=
  ((scanFrom 0 cs).filter (!·.kind.isTrivia)).map fun t => ⟨t.kind, t.text⟩

@[simp] theorem pieces_nil : pieces [] = [] := by simp [pieces]

/-- Where a text starts makes no difference to its tokens but their offsets. -/
theorem pieces_scanFrom (offset : ℕ) (cs : List Char) :
    ((scanFrom offset cs).filter (!·.kind.isTrivia)).map (fun t => (⟨t.kind, t.text⟩ : Piece)) =
      pieces cs := by
  have hoffset : ∀ n (cs : List Char), cs.length = n → ∀ a b : ℕ,
      ((scanFrom a cs).filter (!·.kind.isTrivia)).map (fun t => (⟨t.kind, t.text⟩ : Piece)) =
      ((scanFrom b cs).filter (!·.kind.isTrivia)).map (fun t => (⟨t.kind, t.text⟩ : Piece)) := by
    intro n
    induction n using Nat.strong_induction_on with
    | _ n ih =>
        intro cs hn a b
        cases cs with
        | nil => simp
        | cons c cs =>
            have hpos := next_pos c cs
            have hshort : ((c :: cs).drop (next (c :: cs)).2).length < n := by
              rw [List.length_drop, hn]
              simp only [List.length_cons] at hn
              omega
            have hrest := ih _ hshort _ rfl
            rw [scanFrom, scanFrom]
            simp only [List.filter_cons]
            split
            · simp only [List.map_cons, List.cons.injEq, true_and]
              exact hrest _ _
            · exact hrest _ _
  exact hoffset _ cs rfl offset 0

/-- A token in front of a rest is read, and then the rest is. -/
theorem pieces_append {w rest : List Char} {k : TokenKind} (hw : w ≠ [])
    (h : next (w ++ rest) = (k, w.length)) :
    pieces (w ++ rest) = (if k.isTrivia then [] else [⟨k, String.ofList w⟩]) ++ pieces rest := by
  cases w with
  | nil => exact absurd rfl hw
  | cons c cs =>
      have htake : (c :: (cs ++ rest)).take (c :: cs).length = c :: cs := by
        rw [← List.cons_append]
        exact List.take_left' rfl
      have hdrop : (c :: (cs ++ rest)).drop (c :: cs).length = rest := by
        rw [← List.cons_append]
        exact List.drop_left' rfl
      rw [List.cons_append] at h ⊢
      rw [pieces, scanFrom]
      simp only [h, htake, hdrop, List.filter_cons]
      cases k.isTrivia with
      | false => simp [pieces_scanFrom]
      | true => simp [pieces_scanFrom]

/-- Separating characters at the front carry no meaning. -/
theorem pieces_space {c : Char} (h : Pattern.isSpace c = true) (cs : List Char) :
    pieces (c :: cs) = pieces cs := by
  have hskip (d : Char) (ds : List Char) (hd : Pattern.isSpace d = true) :
      pieces (d :: ds) = pieces (ds.dropWhile Pattern.isSpace) := by
    have happ : d :: ds =
        (d :: ds.takeWhile Pattern.isSpace) ++ ds.dropWhile Pattern.isSpace := by
      rw [List.cons_append, List.takeWhile_append_dropWhile]
    have hlen : 1 + Pattern.run Pattern.isSpace ds =
        (d :: ds.takeWhile Pattern.isSpace).length := by
      rw [Pattern.run, List.length_cons, Nat.add_comm]
    have hnext := next_space hd ds
    rw [happ, hlen] at hnext
    rw [happ, pieces_append (by simp) hnext]
    rfl
  rw [hskip c cs h]
  cases cs with
  | nil => rfl
  | cons d ds =>
      cases hd : Pattern.isSpace d with
      | false => rw [List.dropWhile_cons_of_neg (by simp [hd])]
      | true => rw [List.dropWhile_cons_of_pos hd, hskip d ds hd]

/-- A word in front of a rest that does not go on with it is one token. -/
theorem pieces_word {w rest : List Char} (hw : Pattern.isWord w = true)
    (hrest : Pattern.Stops Pattern.isWordChar rest)
    (hkind : (Pattern.word.kindOf w).isTrivia = false) :
    pieces (w ++ rest) = ⟨Pattern.word.kindOf w, String.ofList w⟩ :: pieces rest := by
  have hne : w ≠ [] := by
    rintro rfl
    exact absurd hw (by decide)
  rw [pieces_append hne (next_word hw hrest), hkind]
  rfl

/-- A word in front of a blank is one token. -/
theorem pieces_word_blank {w : List Char} (hw : Pattern.isWord w = true)
    (hkind : (Pattern.word.kindOf w).isTrivia = false) (rest : List Char) :
    pieces (w ++ ' ' :: rest) = ⟨Pattern.word.kindOf w, String.ofList w⟩ :: pieces rest := by
  rw [pieces_word hw (Pattern.stops_cons (by decide)) hkind, pieces_space (by decide)]

@[simp] theorem pieces_lAngle (cs : List Char) :
    pieces ('<' :: cs) = ⟨.lAngle, "<"⟩ :: pieces cs :=
  pieces_append (w := ['<']) (by decide) rfl

@[simp] theorem pieces_rAngle (cs : List Char) :
    pieces ('>' :: cs) = ⟨.rAngle, ">"⟩ :: pieces cs :=
  pieces_append (w := ['>']) (by decide) rfl

@[simp] theorem pieces_comma (cs : List Char) :
    pieces (',' :: cs) = ⟨.comma, ","⟩ :: pieces cs :=
  pieces_append (w := [',']) (by decide) rfl

@[simp] theorem pieces_star (cs : List Char) : pieces ('*' :: cs) = ⟨.star, "*"⟩ :: pieces cs :=
  pieces_append (w := ['*']) (by decide) rfl

@[simp] theorem pieces_colonColon (cs : List Char) :
    pieces (':' :: ':' :: cs) = ⟨.colonColon, "::"⟩ :: pieces cs :=
  pieces_append (w := [':', ':']) (by decide) rfl

@[simp] theorem pieces_ampAmp (cs : List Char) :
    pieces ('&' :: '&' :: cs) = ⟨.ampAmp, "&&"⟩ :: pieces cs :=
  pieces_append (w := ['&', '&']) (by decide) rfl

theorem pieces_amp {cs : List Char} (h : Pattern.Stops (· = '&') cs) :
    pieces ('&' :: cs) = ⟨.amp, "&"⟩ :: pieces cs :=
  pieces_append (w := ['&']) (by decide) (next_amp h)

theorem pieces_minus {cs : List Char} (h : Pattern.Stops (· = '>') cs) :
    pieces ('-' :: cs) = ⟨.minus, "-"⟩ :: pieces cs :=
  pieces_append (w := ['-']) (by decide) (next_minus h)

/-! ## Texts that are one token -/

/-- The whole text is one token of a kind. -/
def IsSingle (kind : TokenKind) (text : String) : Prop := scan text = [⟨kind, text, 0⟩]

theorem isSingle_of_next {kind : TokenKind} {text : String} (hne : text.toList ≠ [])
    (h : next text.toList = (kind, text.toList.length)) : IsSingle kind text := by
  obtain ⟨c, cs, htext⟩ := List.exists_cons_of_ne_nil hne
  rw [IsSingle, scan, htext, scanFrom, ← htext, h]
  simp

/-- A text that is one token is covered by the longest match of a pattern of its kind. -/
theorem IsSingle.exists_longest {kind : TokenKind} {text : String} (h : IsSingle kind text)
    (hkind : kind ≠ .error) : ∃ p n, longest text.toList Pattern.all = some (p, n) ∧
      p.kindOf text.toList = kind ∧ text.toList.length ≤ n ∧
      opensComment text.toList = false := by
  rw [IsSingle, scan] at h
  cases htext : text.toList with
  | nil => rw [htext, scanFrom_nil] at h; exact absurd h (by simp)
  | cons c cs =>
      rw [htext, scanFrom] at h
      simp only [List.cons.injEq, Token.mk.injEq] at h
      obtain ⟨⟨hk, hlexeme, -⟩, hrest⟩ := h
      have hdrop : (c :: cs).drop (next (c :: cs)).2 = [] := by
        cases hd : (c :: cs).drop (next (c :: cs)).2 with
        | nil => rfl
        | cons d ds => rw [hd, scanFrom] at hrest; simp at hrest
      have hlen : (c :: cs).length ≤ (next (c :: cs)).2 := List.drop_eq_nil_iff.mp hdrop
      have htake : (c :: cs).take (next (c :: cs)).2 = c :: cs := List.take_of_length_le hlen
      rw [next] at hk hlen htake
      split at hk
      · exact absurd hk.symm hkind
      · next hopen =>
          rw [if_neg hopen] at hlen htake
          cases hl : longest (c :: cs) Pattern.all with
          | none => rw [hl] at hk; exact absurd hk.symm hkind
          | some best =>
              obtain ⟨p, n⟩ := best
              rw [hl] at hk hlen htake
              dsimp only at hk hlen htake
              refine ⟨p, n, rfl, ?_, hlen, by simpa using hopen⟩
              rw [← hk, htake]

theorem kind_marks :
    ∀ m ∈ TokenKind.marks, m.2 ≠ .ident ∧ m.2 ≠ .intNumber := by
  decide

/-- Only words are identifiers. -/
theorem eq_word_of_kindOf {p : Pattern} (hp : p ∈ Pattern.all) {cs : List Char}
    (h : p.kindOf cs = .ident) : p = .word := by
  cases p with
  | word => rfl
  | mark spelling kind =>
      obtain ⟨m, hm, -, rfl⟩ := Pattern.exists_of_mark_mem_all hp
      exact absurd h (kind_marks m hm).1
  | _ => exact absurd h (by simp [Pattern.kindOf])

/-- An identifier is a word that is not reserved. -/
theorem IsSingle.isWord {text : String} (h : IsSingle .ident text) :
    Pattern.isWord text.toList = true ∧ Pattern.word.kindOf text.toList = .ident := by
  obtain ⟨p, n, hl, hkind, hlen, -⟩ := h.exists_longest (by decide)
  have hpos := longest_pos hl
  obtain ⟨hp, hscan, -⟩ := longest_spec hl
  obtain rfl := eq_word_of_kindOf hp hkind
  refine ⟨?_, hkind⟩
  cases htext : text.toList with
  | nil => rw [htext] at hscan; simp only [Pattern.scan] at hscan; omega
  | cons c cs =>
      rw [htext] at hscan hlen
      simp only [Pattern.scan, List.length_cons] at hscan hlen
      cases hc : Pattern.isWordStart c with
      | false => rw [hc] at hscan; simp at hscan; omega
      | true =>
          rw [hc, if_pos rfl] at hscan
          have hall : cs.takeWhile Pattern.isWordChar = cs := by
            refine (List.takeWhile_sublist _).eq_of_length_le ?_
            rw [Pattern.run] at hscan
            omega
          rw [List.takeWhile_eq_self_iff] at hall
          simpa [Pattern.isWord, hc] using hall

/-- An identifier in front of a rest that does not go on with it. -/
theorem IsSingle.pieces_ident {text : String} (h : IsSingle .ident text) {rest : List Char}
    (hrest : Pattern.Stops Pattern.isWordChar rest) :
    pieces (text.toList ++ rest) = ⟨.ident, text⟩ :: pieces rest := by
  obtain ⟨hword, hkind⟩ := h.isWord
  rw [pieces_word hword hrest (by rw [hkind]; rfl), hkind, String.ofList_toList]

end Token
end Bindery
