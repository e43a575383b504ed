import Bindery.Proofs.Token.Fusion
import Bindery.Proofs.Token.Grammar

/-!
# The longest match

The scanner takes at each place the longest word of the grammar, and calls it what the rule calls it
that the word belongs to. It has to come back from further on to do so: an exponent without digits
is no part of the number in front of it, and only a whole closer ends a comment. Where no rule has a
word, and at a comment that is never closed, it reports an error.

A backslash at the very end of the text is the exception: the grammar has no word that ends with it,
and a directive line takes it along.

## Main definitions

* `Lexical.IsLongestMatch`: the longest word of the grammar in front of a text.
* `Lexical.IsOfKind`: the kind of a word.
* `Lexical.LeavesOpen`: a comment is opened and never closed.

## Main statements

* `Pattern.Shape.length_le_scan`: no word of a pattern is longer than what is taken.
* `Token.scan_maximal`: every token is the longest match, and an error stands where there is none.
-/
namespace Bindery

open Lexical
open scoped Computability

namespace Pattern

variable {p : Pattern} {w cs rest : List Char}

/-! ## Words that are no trivia -/

theorem kindOf_ne_error (hp : p ∈ all) (w : List Char) :
    p.kindOf w ≠ .error := by
  have hmarks : ∀ m ∈ TokenKind.marks, m.2 ≠ .error := by decide
  cases p with
  | word =>
    intro herror
    have hword := Token.isWord_kindOf_word w
    rw [herror] at hword
    cases hword
  | mark spelling kind =>
    obtain ⟨m, hm, -, rfl⟩ := exists_of_mark_mem_all hp
    exact hmarks m hm
  | _ => simp [kindOf]

theorem length_le_run {q : Char → Bool} (h : ∀ c ∈ w, q c = true) (rest : List Char) :
    w.length ≤ run q (w ++ rest) := by
  rw [run, List.takeWhile_append_of_pos h, List.length_append]
  exact Nat.le_add_right _ _

/-- Digits go on as far as they can. -/
theorem Digits.exists_stops {ds : List Char} (h : Digits ds) (rest : List Char) :
    ∃ more behind, rest = more ++ behind ∧ Digits (ds ++ more) ∧ Stops isDigitOrTick behind := by
  obtain ⟨more, behind, hrest, hmore, hstops⟩ := exists_run isDigitOrTick rest
  obtain ⟨c, hc, hdigit⟩ := h.head
  refine ⟨more, behind, hrest, ⟨⟨c, List.mem_head?_append_of_mem_head? hc, hdigit⟩, ?_⟩, hstops⟩
  simpa [or_imp, forall_and] using ⟨h.all, hmore⟩

theorem FloatSuffix.length_le_floatSuffix (h : FloatSuffix w) (rest : List Char) :
    w.length ≤ floatSuffix (w ++ rest) := by
  match w, h with
  | [], _ => exact Nat.zero_le _
  | [c], h => simp [floatSuffix, h.all c (by simp)]
  | _ :: _ :: _, h => exact absurd h.short (by simp)

theorem Exponent.length_le_exponent (h : Exponent w) (rest : List Char) :
    w.length ≤ exponent (w ++ rest) := by
  obtain ⟨e, sign, ds, rfl, he, hsign, hds, hall⟩ := h
  obtain ⟨more, behind, rfl, hmore, hstops⟩ := exists_run Char.isDigit rest
  have hlong : Exponent (e :: (sign ++ (ds ++ more))) :=
    ⟨e, sign, ds ++ more, rfl, he, hsign, by simp [hds], by
      simpa [or_imp, forall_and] using ⟨hall, hmore⟩⟩
  have happ := hlong.exponent_append hstops
  simp only [List.cons_append, List.append_assoc] at happ ⊢
  rw [happ]
  simp only [List.length_cons, List.length_append]
  omega

/-- No digit stands behind the digits in front of an exponent or a suffix that is there. -/
theorem RealTail.stops_of_ne {l : List Char} (h : RealTail l) (hne : l ≠ []) (rest : List Char) :
    Stops isDigitOrTick (l ++ rest) := by
  obtain ⟨c, l, rfl⟩ := List.exists_cons_of_ne_nil hne
  have hstops := h.stops (stops_nil _)
  rw [List.append_nil] at hstops
  exact stops_cons (hstops c rfl)

theorem RealTail.length_le_realTail (h : RealTail w) (rest : List Char) :
    w.length ≤ realTail (w ++ rest) := by
  obtain ⟨e, s, rfl, he, hs⟩ := h
  rw [List.append_assoc, List.length_append]
  by_cases hnil : s = []
  · subst hnil
    have hexponent : e.length ≤ exponent (e ++ rest) := by
      rcases he with rfl | he
      · exact Nat.zero_le _
      · exact he.length_le_exponent rest
    rw [realTail, andThen, List.nil_append, List.length_nil]
    omega
  · have htail : RealTail s := ⟨[], s, rfl, .inl rfl, hs⟩
    have hdigit : Stops Char.isDigit (s ++ rest) :=
      (htail.stops_of_ne hnil rest).mono isDigitOrTick_of_isDigit
    have hexponent : exponent (e ++ (s ++ rest)) = e.length := by
      rcases he with rfl | he
      · obtain ⟨c, s, rfl⟩ := List.exists_cons_of_ne_nil hnil
        have hc := hs.all c (.head _)
        refine exponent_eq_zero fun d hd => ?_
        obtain rfl : c = d := by simpa using hd
        constructor
        · rintro rfl
          cases hc
        · rintro rfl
          cases hc
      · exact he.exponent_append hdigit
    have hsuffix := hs.length_le_floatSuffix rest
    rw [realTail, hexponent, andThen_length_append]
    omega

/-- No word of a pattern is longer than what the pattern takes, whatever stands behind it. -/
theorem Shape.length_le_scan (h : p.Shape w) (rest : List Char) :
    w.length ≤ p.scan (w ++ rest) := by
  cases h with
  | word hw =>
    cases w with
    | nil => cases hw
    | cons c w =>
      rw [isWord, Bool.and_eq_true, List.all_eq_true] at hw
      have hrun := length_le_run hw.2 rest
      rw [List.cons_append, scan, if_pos hw.1, List.length_cons]
      omega
  | @decimal ds suffix hds hsuffix =>
    by_cases hnil : suffix = []
    · subst hnil
      obtain ⟨more, behind, rfl, hlong, hstops⟩ := hds.exists_stops rest
      rw [List.append_nil, ← List.append_assoc, hlong.scan_decimal hstops, List.length_append]
      omega
    · obtain ⟨c, suffix, rfl⟩ := List.exists_cons_of_ne_nil hnil
      have hstops : Stops isDigitOrTick (c :: suffix ++ rest) := by
        refine stops_cons ?_
        by_contra hc
        have hfalse := isIntSuffix_eq_false (.inl (by simpa using hc))
        rw [hsuffix c (.head _)] at hfalse
        cases hfalse
      have hrun := length_le_run hsuffix rest
      rw [List.append_assoc, hds.scan_decimal hstops, List.length_append]
      omega
  | @hexadecimal x hs suffix hx hne hhs hsuffix =>
    have hpos : hs.length ≠ 0 := by simpa using hne
    have hhex := length_le_run hhs (suffix ++ rest)
    have hnonzero : run isHexOrTick (hs ++ (suffix ++ rest)) ≠ 0 := by omega
    simp only [List.cons_append, List.append_assoc, scan, Bool.or_eq_true, decide_eq_true_eq,
      if_pos hx, if_neg hnonzero, List.length_cons, List.length_append]
    by_cases hnil : suffix = []
    · subst hnil
      rw [andThen, List.length_nil]
      omega
    · obtain ⟨c, suffix, rfl⟩ := List.exists_cons_of_ne_nil hnil
      have hstops : Stops isHexOrTick (c :: suffix ++ rest) := by
        refine stops_cons ?_
        by_contra hc
        have hfalse := isIntSuffix_eq_false (.inr (by simpa using hc))
        rw [hsuffix c (.head _)] at hfalse
        cases hfalse
      have hrun := length_le_run hsuffix rest
      rw [run_append_of_all hhs hstops, andThen_length_append]
      omega
  | @pointed ds fs tl hds hfs htl =>
    rw [List.append_assoc, List.cons_append, hds.scan_pointed]
    simp only [List.length_append, List.length_cons, List.append_assoc]
    by_cases hnil : tl = []
    · subst hnil
      have hrun := length_le_run hfs ([] ++ rest)
      rw [List.length_nil]
      omega
    · have htail := htl.length_le_realTail rest
      rw [run_append_of_all hfs (htl.stops_of_ne hnil rest), List.drop_left' rfl]
      omega
  | @fraction ds tl hds htl =>
    simp only [List.cons_append, List.append_assoc, List.length_cons, List.length_append]
    by_cases hnil : tl = []
    · subst hnil
      obtain ⟨more, behind, rfl, hlong, hstops⟩ := hds.exists_stops rest
      rw [List.nil_append, ← List.append_assoc, hlong.scan_fraction hstops, List.length_append,
        List.length_nil]
      omega
    · have htail := htl.length_le_realTail rest
      rw [hds.scan_fraction (htl.stops_of_ne hnil rest)]
      omega
  | @exponential ds e suffix hds he hsuffix =>
    have htl : RealTail (e ++ suffix) := ⟨e, suffix, rfl, .inr he, hsuffix⟩
    obtain ⟨letter, more, rfl⟩ : ∃ letter more, e = letter :: more := by
      obtain ⟨letter, sign, digits, rfl, -⟩ := he
      exact ⟨letter, sign ++ digits, rfl⟩
    have hexponent := he.length_le_exponent (suffix ++ rest)
    have htail := htl.length_le_realTail rest
    have hnonzero : exponent (letter :: more ++ suffix ++ rest) ≠ 0 := by
      rw [List.append_assoc]
      simp only [List.length_cons] at hexponent
      omega
    rw [List.append_assoc, hds.scan_exponential (htl.stops_of_ne (by simp) rest), if_neg hnonzero,
      List.length_append]
    omega
  | @string body hbody =>
    have happ : '"' :: (body ++ ['"']) ++ rest = '"' :: (body ++ '"' :: rest) := by simp
    rw [happ, scan, hbody.quoted_append (by decide) (Nat.zero_le _) rest]
    simp
  | @character body hbody hne =>
    have happ : '\'' :: (body ++ ['\'']) ++ rest = '\'' :: (body ++ '\'' :: rest) := by simp
    rw [happ, scan, hbody.quoted_append (by decide) hne rest]
    simp
  | mark =>
    rw [scan, if_pos (List.isPrefixOf_iff_prefix.2 (List.prefix_append w rest))]

/-! ## Comments -/

/-- A comment ends at the first closer, whatever is behind it. -/
theorem commentEnd?_append {body : List Char} (h : ¬ ['*', '/'] <:+: body ++ ['*'])
    (rest : List Char) : commentEnd? (body ++ '*' :: '/' :: rest) = some (body.length + 2) := by
  induction body with
  | nil => rfl
  | cons c body ih =>
    have hrest : ¬ ['*', '/'] <:+: body ++ ['*'] := fun hinfix => h (List.infix_cons hinfix)
    have hhere (cs : List Char) (hc : c = '*') (hbody : body ++ '*' :: '/' :: rest = '/' :: cs) :
        False := by
      subst hc
      cases body with
      | nil => cases hbody
      | cons d body =>
        obtain ⟨rfl, -⟩ := List.cons.inj hbody
        exact h (List.prefix_append ['*', '/'] (body ++ ['*'])).isInfix
    rw [List.cons_append, commentEnd?.eq_3 _ _ hhere, ih hrest]
    rfl

/-- Where a comment ends, no closer stands further in front. -/
theorem commentEnd?_take {n : ℕ} (h : commentEnd? cs = some n) :
    ∃ body, cs.take n = body ++ ['*', '/'] ∧ ¬ ['*', '/'] <:+: body ++ ['*'] := by
  fun_induction commentEnd? cs generalizing n with
  | case1 => cases h
  | case2 cs =>
    obtain rfl := Option.some_inj.1 h
    exact ⟨[], rfl, fun hinfix => absurd hinfix.length_le (by simp)⟩
  | case3 c cs hhere ih =>
    obtain ⟨m, hm, rfl⟩ := Option.map_eq_some_iff.1 h
    obtain ⟨body, htake, hbody⟩ := ih hm
    refine ⟨c :: body, by rw [List.take_succ_cons, htake, List.cons_append], fun hinfix => ?_⟩
    rcases List.infix_cons_iff.1 hinfix with hprefix | hinfix
    · -- The closer would have ended the comment here.
      obtain ⟨rfl, hbehind⟩ := List.cons_prefix_cons.1 hprefix
      cases body with
      | nil => simp at hbehind
      | cons d body =>
        obtain ⟨rfl, -⟩ := List.cons_prefix_cons.1 hbehind
        have hcs := List.take_append_drop m cs
        rw [htake] at hcs
        exact hhere _ rfl hcs.symm
    · exact hbody hinfix

/-- A comment has no end where no closer stands. -/
theorem commentEnd?_eq_none_iff : commentEnd? cs = none ↔ ¬ ['*', '/'] <:+: cs := by
  constructor
  · intro hnone hinfix
    fun_induction commentEnd? cs with
    | case1 => exact absurd hinfix.length_le (by simp)
    | case2 => cases hnone
    | case3 c cs hhere ih =>
      rcases List.infix_cons_iff.1 hinfix with hprefix | hinfix
      · obtain ⟨ds, hds⟩ := hprefix
        obtain ⟨rfl, rfl⟩ := List.cons.inj hds
        exact hhere ds rfl rfl
      · exact ih (Option.map_eq_none_iff.1 hnone) hinfix
  · intro hinfix
    by_contra hsome
    obtain ⟨n, hn⟩ := Option.ne_none_iff_exists'.1 hsome
    obtain ⟨body, htake, -⟩ := commentEnd?_take hn
    refine hinfix ?_
    rw [← List.take_append_drop n cs, htake]
    exact (List.infix_append body ['*', '/'] (cs.drop n))

/-! ## Directive lines -/

/-- No line is continued by a newline alone. -/
theorem head_ne_of_mem_kstar (h : w ∈ directiveItem∗) : ∀ c ∈ w.head?, c ≠ '\n' := by
  refine kstar_induction (motive := fun w => ∀ c ∈ w.head?, c ≠ '\n') (by simp) ?_ h
  intro v hv w _ _
  rcases mem_directiveItem.1 hv with ⟨c, ⟨hline, -⟩, rfl⟩ | (rfl | rfl) | ⟨c, -, rfl⟩
  · simpa using hline
  · simp
  · simp
  · simp

/-- A directive line is taken as far as it goes on, whatever is behind it. -/
theorem length_le_directiveBody (h : w ∈ directiveItem∗) (rest : List Char) :
    w.length ≤ directiveBody (w ++ rest) := by
  refine kstar_induction (motive := fun w => w.length ≤ directiveBody (w ++ rest))
    (Nat.zero_le _) (fun v hv w hw ih => ?_) h
  rw [List.append_assoc, List.length_append]
  rcases mem_directiveItem.1 hv with ⟨c, ⟨hline, hslash⟩, rfl⟩ | (rfl | rfl) | ⟨c, hc, rfl⟩
  · have hbody : directiveBody (c :: (w ++ rest)) = 1 + directiveBody (w ++ rest) :=
      directiveBody.eq_6 c (w ++ rest) hline (fun h => absurd h hslash)
        (fun _ h => absurd h hslash) (fun _ _ h => absurd h hslash)
    rw [List.singleton_append, hbody, List.length_singleton]
    omega
  · have hbody : directiveBody ('\\' :: '\n' :: (w ++ rest)) = 2 + directiveBody (w ++ rest) :=
      directiveBody.eq_5 '\n' (w ++ rest) fun _ h => by cases h
    change 2 + w.length ≤ directiveBody ('\\' :: '\n' :: (w ++ rest))
    omega
  · change 3 + w.length ≤ directiveBody ('\\' :: '\r' :: '\n' :: (w ++ rest))
    rw [directiveBody]
    omega
  · change 2 + w.length ≤ directiveBody ('\\' :: c :: (w ++ rest))
    by_cases hline : ∃ ds, c = '\r' ∧ w ++ rest = '\n' :: ds
    · -- A carriage return is the end of the word here, and the newline behind it is taken along.
      obtain ⟨ds, rfl, hds⟩ := hline
      have hw : w = [] := by
        cases w with
        | nil => rfl
        | cons d w => exact absurd (List.cons.inj hds).1 (head_ne_of_mem_kstar hw d rfl)
      rw [hds, directiveBody, hw, List.length_nil]
      omega
    · rw [directiveBody.eq_5 c (w ++ rest) fun ds hcr hds => hline ⟨ds, hcr, hds⟩]
      omega

/-- What a directive line takes are items of it, but for a backslash at the end of the text. -/
theorem directiveBody_take (cs : List Char) : cs.take (directiveBody cs) ∈ directiveItem∗ ∨
    directiveBody cs = cs.length ∧ cs.getLast? = some '\\' := by
  have hstep {v cs : List Char} (hv : v ∈ directiveItem)
      (ih : cs.take (directiveBody cs) ∈ directiveItem∗ ∨
        directiveBody cs = cs.length ∧ cs.getLast? = some '\\') :
      (v ++ cs).take (v.length + directiveBody cs) ∈ directiveItem∗ ∨
        v.length + directiveBody cs = (v ++ cs).length ∧ (v ++ cs).getLast? = some '\\' := by
    rcases ih with hmem | ⟨hlength, hlast⟩
    · rw [List.take_length_add_append]
      exact .inl (append_mem_kstar hv hmem)
    · refine .inr ⟨by rw [hlength, List.length_append], ?_⟩
      rw [List.getLast?_append, hlast]
      rfl
  fun_induction directiveBody cs with
  | case1 => exact .inl (Language.nil_mem_kstar _)
  | case2 => exact .inl (Language.nil_mem_kstar _)
  | case3 => exact .inr ⟨rfl, rfl⟩
  | case4 cs ih =>
    exact hstep (v := ['\\', '\r', '\n']) (mem_directiveItem.2 (.inr (.inl (.inr rfl)))) ih
  | case5 c cs _ ih =>
    refine hstep (v := ['\\', c]) (mem_directiveItem.2 ?_) ih
    by_cases hc : c = '\n'
    · exact .inr (.inl (.inl (by rw [hc])))
    · exact .inr (.inr ⟨c, hc, rfl⟩)
  | case6 c cs hline hend hreturn hslash ih =>
    refine hstep (v := [c]) (mem_directiveItem.2 (.inl ⟨c, ⟨hline, ?_⟩, rfl⟩)) ih
    intro hc
    cases cs with
    | nil => exact hend hc rfl
    | cons d cs => exact hslash d cs hc rfl

end Pattern
/-! ## Words of the rules -/

namespace Lexical

open Pattern

variable {r : Rule} {w cs rest : List Char}

namespace Rule

theorem isTrivia_spelled {text : String} {kind : TokenKind} (hr : spelled text kind ∈ all) :
    kind.isTrivia = false := by
  have htables : ∀ m ∈ TokenKind.marks ++ TokenKind.keywords, m.2.isTrivia = false := by decide
  exact htables (text, kind) (List.mem_append.2 (spelled_mem_all.1 hr))

/-- A comment is taken for itself in front of every rest. -/
theorem scan_blockComment {body : List Char} (h : ¬ ['*', '/'] <:+: body ++ ['*'])
    (rest : List Char) :
    Pattern.blockComment.scan ('/' :: '*' :: (body ++ ['*', '/']) ++ rest) =
      ('/' :: '*' :: (body ++ ['*', '/'])).length := by
  have hend : commentEnd? (body ++ ['*', '/'] ++ rest) = some (body.length + 2) := by
    rw [List.append_assoc]
    exact commentEnd?_append h rest
  simp only [List.cons_append, scan, hend, List.length_cons, List.length_append, List.length_nil]
  omega

/-- No word of a rule is longer than what some pattern takes. -/
theorem exists_length_le_scan (hr : r ∈ all) (hw : w ∈ r.language) :
    ∃ p ∈ Pattern.all, ∀ rest, w.length ≤ p.scan (w ++ rest) := by
  cases hkind : r.kind.isTrivia with
  | false =>
    obtain ⟨p, hp, hshape, -⟩ := exists_shape hr hw hkind
    exact ⟨p, hp, hshape.length_le_scan⟩
  | true =>
    cases r with
    | blank => exact ⟨.blank, by decide, length_le_run (mem_blank.1 hw).2⟩
    | lineComment =>
      obtain ⟨v, hv, rfl⟩ := mem_lineComment.1 hw
      refine ⟨.lineComment, by decide, fun rest => ?_⟩
      have hrun := length_le_run hv rest
      rw [List.cons_append, List.cons_append, scan, List.length_cons, List.length_cons]
      omega
    | blockComment =>
      obtain ⟨body, rfl, hbody⟩ := hw
      exact ⟨.blockComment, by decide, fun rest => (scan_blockComment hbody rest).ge⟩
    | directive =>
      obtain ⟨v, hv, rfl⟩ := mem_directive.1 hw
      refine ⟨.directive, by decide, fun rest => ?_⟩
      have hbody := length_le_directiveBody hv rest
      rw [List.cons_append, scan, List.length_cons]
      omega
    | spelled text kind => exact absurd hkind (by simp [Rule.kind, isTrivia_spelled hr])
    | _ => cases hkind

/-- Where two slashes or a slash and a star stand, nothing but a comment is longer than a slash. -/
theorem greatest_comment {p : Pattern} {w : List Char} (hlength : 1 < ('/' :: w).length)
    (hscan : p.scan ('/' :: w) = ('/' :: w).length)
    (hother : ∀ q ∈ [Pattern.lineComment, .blockComment], q ≠ p → q.scan ('/' :: w) = 0) :
    p.Greatest ('/' :: w) [] := by
  rw [← List.append_nil ('/' :: w)] at hscan hother
  refine ⟨by simpa using hscan, fun q hq hne => ?_⟩
  cases hopens : q.opens '/' with
  | false =>
    rw [List.cons_append, scan_eq_zero hopens]
    simp
  | true =>
    have hslash : ∀ q ∈ Pattern.all, q.opens '/' = true →
        q ∈ [Pattern.lineComment, .blockComment] ∨ q = .mark ['/'] .slash := by decide
    rcases hslash q hq hopens with hcomment | rfl
    · rw [hother q hcomment hne]
      simp
    · simpa [scan, List.isPrefixOf] using hlength

/-- A word of a rule is one token where it stands alone. -/
theorem next_of_mem (hr : r ∈ all) (hw : w ∈ r.language) :
    Token.next w = (r.kindOf w, w.length) := by
  cases hkind : r.kind.isTrivia with
  | false =>
    obtain ⟨p, hp, hshape, hkindOf⟩ := exists_shape hr hw hkind
    have hend (kind : TokenKind) : Token.goesOn kind w [] = false := by
      cases kind <;> simp [Token.goesOn]
    have hnext : Token.next (w ++ []) = (p.kindOf w, w.length) :=
      Token.next_append hp hshape (fun _ => stops_nil _) (hend _)
    rwa [List.append_nil, hkindOf] at hnext
  | true =>
    cases r with
    | blank =>
      obtain ⟨hne, hall⟩ := mem_blank.1 hw
      obtain ⟨c, w, rfl⟩ := List.exists_cons_of_ne_nil hne
      obtain ⟨hc, hall⟩ := List.forall_mem_cons.1 hall
      have hrun := run_append_of_all hall (stops_nil isSpace)
      rw [List.append_nil] at hrun
      rw [Token.next_space hc, hrun, List.length_cons, Nat.add_comm]
      rfl
    | lineComment =>
      obtain ⟨v, hv, rfl⟩ := mem_lineComment.1 hw
      have hrun := run_append_of_all hv (stops_nil _)
      rw [List.append_nil] at hrun
      have hgreatest : Pattern.lineComment.Greatest ('/' :: '/' :: v) [] := by
        refine greatest_comment (by simp) ?_ ?_
        · rw [scan, hrun, List.length_cons, List.length_cons]
          omega
        · simp [scan]
      have hnext := Token.next_of_greatest (by decide) (by simp) rfl hgreatest
      rwa [List.append_nil] at hnext
    | blockComment =>
      obtain ⟨body, rfl, hbody⟩ := hw
      have hscan := scan_blockComment hbody []
      rw [List.append_nil] at hscan
      have hgreatest : Pattern.blockComment.Greatest ('/' :: '*' :: (body ++ ['*', '/'])) [] :=
        greatest_comment (by simp) hscan (by simp [scan])
      have hopen : Token.opensComment ('/' :: '*' :: (body ++ ['*', '/']) ++ []) = false := by
        have hend := commentEnd?_append hbody []
        simp [Token.opensComment, hend]
      have hnext := Token.next_of_greatest (by decide) (by simp) hopen hgreatest
      rwa [List.append_nil] at hnext
    | directive =>
      obtain ⟨v, hv, rfl⟩ := mem_directive.1 hw
      have hbody := length_le_directiveBody hv []
      have hle := directiveBody_le_length v
      rw [List.append_nil] at hbody
      have honly : ∀ q ∈ Pattern.all, q ≠ Pattern.directive → q.opens '#' = false := by decide
      have hgreatest : Pattern.directive.Greatest ('#' :: v) [] := by
        refine ⟨?_, fun q hq hne => ?_⟩
        · rw [List.append_nil, scan, List.length_cons]
          omega
        · rw [List.cons_append, scan_eq_zero (honly q hq hne)]
          simp
      have hnext := Token.next_of_greatest (by decide) (by simp) rfl hgreatest
      rwa [List.append_nil] at hnext
    | spelled text kind => exact absurd hkind (by simp [Rule.kind, isTrivia_spelled hr])
    | _ => cases hkind

/-- A pattern takes something from a text that starts as its words do. -/
theorem exists_cons_of_scan {p : Pattern} (h : p.scan cs ≠ 0) :
    ∃ c ds, cs = c :: ds ∧ p.opens c = true := by
  cases cs with
  | nil => exact absurd (Nat.le_zero.1 (p.scan_le_length [])) h
  | cons c ds =>
    refine ⟨c, ds, rfl, ?_⟩
    by_contra hopens
    exact h (scan_eq_zero (by simpa using hopens) ds)

theorem exists_of_scan_lineComment (h : Pattern.lineComment.scan cs ≠ 0) :
    ∃ v, cs = '/' :: '/' :: v := by
  obtain ⟨c, ds, rfl, hc⟩ := exists_cons_of_scan h
  obtain rfl : c = '/' := of_decide_eq_true hc
  cases ds with
  | nil => exact absurd rfl h
  | cons d v =>
    by_cases hd : d = '/'
    · exact ⟨v, by rw [hd]⟩
    · exact absurd (by simp [scan, hd]) h

theorem exists_of_scan_blockComment (h : Pattern.blockComment.scan cs ≠ 0) :
    ∃ v, cs = '/' :: '*' :: v := by
  obtain ⟨c, ds, rfl, hc⟩ := exists_cons_of_scan h
  obtain rfl : c = '/' := of_decide_eq_true hc
  cases ds with
  | nil => exact absurd rfl h
  | cons d v =>
    by_cases hd : d = '*'
    · exact ⟨v, by rw [hd]⟩
    · exact absurd (by simp [scan, hd]) h

/-- What a pattern takes is a word of a rule of its kind, unless it is a directive line that ends
with a backslash at the end of the text. -/
theorem exists_of_scan {p : Pattern} (hp : p ∈ Pattern.all) (h : p.scan cs ≠ 0)
    (hend : ¬ (p = .directive ∧ p.scan cs = cs.length ∧ cs.getLast? = some '\\')) :
    ∃ r ∈ all, cs.take (p.scan cs) ∈ r.language ∧
      r.kindOf (cs.take (p.scan cs)) = p.kindOf (cs.take (p.scan cs)) := by
  have hmarks : ∀ m ∈ TokenKind.marks, m.2.isTrivia = false := by decide
  cases p with
  | blank =>
    refine ⟨blank, by simp [all], mem_blank.2 ⟨fun hnil => h ?_, fun c hc => mem_take_run hc⟩, rfl⟩
    rw [scan, take_run] at hnil
    rw [scan, run, hnil, List.length_nil]
  | lineComment =>
    obtain ⟨v, rfl⟩ := exists_of_scan_lineComment h
    have hmem : '/' :: '/' :: v.take (run (fun c => decide (c ≠ '\n')) v) ∈
        lineComment.language :=
      mem_lineComment.2 ⟨_, fun c hc => mem_take_run hc, rfl⟩
    refine ⟨lineComment, by simp [all], ?_, rfl⟩
    rwa [scan, Nat.add_comm, List.take_succ_cons, List.take_succ_cons]
  | blockComment =>
    obtain ⟨v, rfl⟩ := exists_of_scan_blockComment h
    rw [scan] at h ⊢
    cases hclose : commentEnd? v with
    | none =>
      rw [hclose] at h
      exact absurd rfl h
    | some n =>
      obtain ⟨body, htake, hbody⟩ := commentEnd?_take hclose
      refine ⟨blockComment, by simp [all], ⟨body, ?_, hbody⟩, rfl⟩
      dsimp only
      rw [Nat.add_comm, List.take_succ_cons, List.take_succ_cons, htake]
  | directive =>
    obtain ⟨c, v, rfl, hc⟩ := exists_cons_of_scan h
    obtain rfl : c = '#' := of_decide_eq_true hc
    rcases directiveBody_take v with hmem | ⟨hlength, hlast⟩
    · refine ⟨directive, by simp [all], mem_directive.2 ⟨_, hmem, ?_⟩, rfl⟩
      rw [scan, Nat.add_comm, List.take_succ_cons]
    · refine absurd ⟨rfl, ?_, ?_⟩ hend
      · rw [scan, List.length_cons, hlength, Nat.add_comm]
      · rw [List.getLast?_cons, hlast]
        rfl
  | word => exact exists_of_shape hp (shape_take (w := []) h (by decide))
  | mark spelling kind =>
    obtain ⟨m, hm, -, rfl⟩ := exists_of_mark_mem_all hp
    exact exists_of_shape hp (shape_take (w := []) h (hmarks m hm))
  | _ => exact exists_of_shape hp (shape_take (w := []) h rfl)

end Rule

/-- Where a pattern takes something, some rule has a word. -/
theorem Rule.exists_word_of_scan {p : Pattern} (hp : p ∈ Pattern.all) (h : p.scan cs ≠ 0) :
    ∃ r ∈ Rule.all, ∃ w, w <+: cs ∧ w ∈ r.language ∧ w ≠ [] := by
  by_cases hdirective : p = .directive
  · subst hdirective
    obtain ⟨c, v, rfl, hc⟩ := exists_cons_of_scan h
    obtain rfl : c = '#' := of_decide_eq_true hc
    exact ⟨.directive, by simp [all], ['#'], ⟨v, rfl⟩,
      mem_directive.2 ⟨[], Language.nil_mem_kstar _, rfl⟩, by simp⟩
  · obtain ⟨r, hr, hw, -⟩ := exists_of_scan hp h fun hend => hdirective hend.1
    obtain ⟨c, ds, rfl, -⟩ := exists_cons_of_scan h
    refine ⟨r, hr, _, List.take_prefix _ _, hw, fun hnil => h ?_⟩
    simpa using hnil

/-! ## Tokens -/

/-- The longest word of the grammar in front of a text. -/
structure IsLongestMatch (cs w : List Char) : Prop where
  front : w <+: cs
  matched : ∃ r ∈ Rule.all, w ∈ r.language
  longest : ∀ r ∈ Rule.all, ∀ v, v <+: cs → v ∈ r.language → v.length ≤ w.length

/-- The kind of a word: that of every rule it belongs to, where a reserved word is no identifier. -/
structure IsOfKind (w : List Char) (kind : TokenKind) : Prop where
  rule : ∃ r ∈ Rule.all, w ∈ r.language ∧ r.kind = kind
  unique : ∀ r ∈ Rule.all, w ∈ r.language → r.kind = kind ∨ r = .ident ∧ kind.isKeyword = true

/-- A comment is opened and never closed. -/
def LeavesOpen (cs : List Char) : Prop :=
  ∃ body, cs = '/' :: '*' :: body ∧ ¬ ['*', '/'] <:+: body

theorem opensComment_iff : Token.opensComment cs = true ↔ LeavesOpen cs := by
  constructor
  · intro hopen
    unfold Token.opensComment at hopen
    split at hopen
    · exact ⟨_, rfl, commentEnd?_eq_none_iff.1 (Option.isNone_iff_eq_none.1 hopen)⟩
    · cases hopen
  · rintro ⟨body, rfl, hbody⟩
    exact Option.isNone_iff_eq_none.2 (commentEnd?_eq_none_iff.2 hbody)

/-- The kind that a word is given is the only one it can have. -/
theorem isOfKind_of_kindOf (hr : r ∈ Rule.all) (hw : w ∈ r.language) : IsOfKind w (r.kindOf w) := by
  have hkindOf {q : Rule} (hq : q ∈ Rule.all) (hmem : w ∈ q.language) :
      q.kindOf w = r.kindOf w := by
    have heq := (Rule.next_of_mem hq hmem).symm.trans (Rule.next_of_mem hr hw)
    exact congrArg Prod.fst heq
  constructor
  · by_cases hident : r = .ident
    · subst hident
      rcases Token.kindOf_word w with hword | ⟨k, hk, rfl, hkind⟩
      · exact ⟨.ident, hr, hw, hword.symm⟩
      · exact ⟨.spelled k.1 k.2, Rule.spelled_mem_all.2 (.inr hk), rfl, hkind⟩
    · refine ⟨r, hr, hw, ?_⟩
      cases r <;> first | rfl | exact absurd rfl hident
  · intro q hq hmem
    rw [← hkindOf hq hmem]
    by_cases hident : q = .ident
    · subst hident
      rcases Token.kindOf_word w with hword | ⟨k, hk, -, hkind⟩
      · exact .inl hword.symm
      · refine .inr ⟨rfl, ?_⟩
        have hkeyword : ∀ k ∈ TokenKind.keywords, k.2.isKeyword = true := by decide
        change (word.kindOf w).isKeyword = true
        rw [← hkind]
        exact hkeyword k hk
    · left
      cases q <;> first | rfl | exact absurd rfl hident

end Lexical

namespace Token

variable {cs : List Char} {kind : TokenKind} {n : ℕ}

/-- What is no error is the longest match, and of its kind. -/
theorem longest_of_next (h : next cs = (kind, n)) (hkind : kind ≠ .error)
    (hend : ¬ (kind = .directive ∧ n = cs.length ∧ cs.getLast? = some '\\')) :
    IsLongestMatch cs (cs.take n) ∧ IsOfKind (cs.take n) kind := by
  obtain ⟨p, hp, rfl, hpos, rfl⟩ := exists_pattern_of_next h hkind
  have hopen : opensComment cs = false := by
    by_contra hopen
    rw [next, if_pos (by simpa using hopen)] at h
    exact hkind (congrArg Prod.fst h).symm
  obtain ⟨r, hr, hw, hkindOf⟩ := Rule.exists_of_scan hp (Nat.pos_iff_ne_zero.1 hpos)
    fun hexcept => hend ⟨by rw [hexcept.1]; rfl, hexcept.2⟩
  refine ⟨⟨List.take_prefix _ _, ⟨r, hr, hw⟩, fun q hq v hv hmem => ?_⟩, ?_⟩
  · obtain ⟨p', hp', hlength⟩ := Rule.exists_length_le_scan hq hmem
    obtain ⟨rest, rfl⟩ := hv
    have hle := scan_le_next hp' hopen
    rw [h] at hle
    rw [List.length_take_of_le (p.scan_le_length _)]
    exact (hlength rest).trans hle
  · rw [← hkindOf]
    exact isOfKind_of_kindOf hr hw

/-- Where an error stands that is no open comment, nothing is taken. -/
theorem scan_eq_zero_of_next (hopen : opensComment cs = false) (h : (next cs).1 = .error)
    {p : Pattern} (hp : p ∈ Pattern.all) : p.scan cs = 0 := by
  rw [next, if_neg (by simp [hopen])] at h
  cases hlongest : longest cs Pattern.all with
  | none => exact longest_eq_none hlongest p hp
  | some best =>
    rw [hlongest] at h
    exact absurd h (Pattern.kindOf_ne_error (longest_spec hlongest).1 _)

/-- An error stands where no rule has a word but the empty one, and at a comment that is left
open. -/
theorem kind_next_eq_error_iff (cs : List Char) : (next cs).1 = .error ↔
    (∀ r ∈ Rule.all, ∀ w, w <+: cs → w ∈ r.language → w = []) ∨ LeavesOpen cs := by
  rw [← opensComment_iff]
  cases hopen : opensComment cs with
  | true => simp [next, hopen]
  | false =>
    rw [or_iff_left (by simp)]
    constructor
    · intro herror r hr w hw hmem
      obtain ⟨p, hp, hlength⟩ := Rule.exists_length_le_scan hr hmem
      obtain ⟨rest, rfl⟩ := hw
      have hle := hlength rest
      rw [scan_eq_zero_of_next hopen herror hp] at hle
      exact List.length_eq_zero_iff.1 (Nat.le_zero.1 hle)
    · intro hnone
      by_contra hkind
      have hnext : next cs = ((next cs).1, (next cs).2) := rfl
      obtain ⟨p, hp, hscan, hpos, -⟩ := exists_pattern_of_next hnext hkind
      obtain ⟨r, hr, w, hw, hmem, hne⟩ := Rule.exists_word_of_scan hp (hscan ▸ hpos.ne')
      exact hne (hnone r hr w hw hmem)

/-- **Tokens are longest matches.** Whatever the text is, every token that is no error is the
longest word of the grammar in front of the text that is left, and its kind is that of the rules the
word belongs to; only a directive line may end with a backslash at the end of the text instead. An
error stands exactly where no rule has a word, or a comment is opened and never closed. -/
theorem scan_maximal (text : String) (front back : List Token) (t : Token)
    (h : scan text = front ++ t :: back) :
    ∃ rest, text.toList = front.flatMap (·.text.toList) ++ rest ∧ t.text.toList <+: rest ∧
      (t.kind ≠ .error →
        ¬ (t.kind = .directive ∧ t.text.toList = rest ∧ rest.getLast? = some '\\') →
        IsLongestMatch rest t.text.toList ∧ IsOfKind t.text.toList t.kind) ∧
      (t.kind = .error ↔
        (∀ r ∈ Rule.all, ∀ w, w <+: rest → w ∈ r.language → w = []) ∨ LeavesOpen rest) := by
  have hcover : Covers 0 text.toList (front ++ t :: back) := h ▸ covers_scanFrom 0 text.toList
  obtain ⟨-, hnext⟩ := hcover.behind.head
  refine ⟨(t :: back).flatMap (·.text.toList), ?_, ?_, fun hkind hend => ?_, ?_⟩
  · rw [← hcover.flatMap_text, List.flatMap_append]
  · exact List.prefix_append _ _
  · have htake : ((t :: back).flatMap (·.text.toList)).take t.text.length = t.text.toList :=
      List.take_left' String.length_toList
    have hlongest := longest_of_next hnext hkind fun ⟨hdirective, hlength, hlast⟩ =>
      hend ⟨hdirective, ?_, hlast⟩
    · rwa [htake] at hlongest
    · rw [← htake, hlength, List.take_length]
  · rw [← kind_next_eq_error_iff, hnext]

/-- An exponent without digits is no part of the number in front of it. -/
theorem scan_maximal_exponent :
    scan "1e+class" = [] ++ ⟨.intNumber, "1", 0⟩ ::
      [⟨.ident, "e", 1⟩, ⟨.plus, "+", 2⟩, ⟨.classKw, "class", 3⟩] ∧
    IsLongestMatch "1e+class".toList ['1'] ∧ IsOfKind ['1'] .intNumber := by
  have hscan : scan "1e+class" = [] ++ ⟨.intNumber, "1", 0⟩ ::
      [⟨.ident, "e", 1⟩, ⟨.plus, "+", 2⟩, ⟨.classKw, "class", 3⟩] := by decide +kernel
  obtain ⟨rest, htext, -, hlongest, -⟩ := scan_maximal "1e+class" [] _ _ hscan
  obtain rfl : rest = "1e+class".toList := by simpa using htext.symm
  exact ⟨hscan, hlongest (by decide) (by simp)⟩

end Token
end Bindery
