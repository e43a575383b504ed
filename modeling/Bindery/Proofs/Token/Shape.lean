import Bindery.Proofs.Token.Part

/-!
# The shapes of tokens

What a pattern takes from the front of a text has a shape, which is a property of the characters
that were taken and not of the rest behind them. So a token can be put in front of another rest, and
whether it is taken there again depends on the first characters of that rest only: a mark may be the
start of a longer mark, of a comment or of a number, and an integer may be the start of a number
with a point.

## Main definitions

* `Pattern.Shape`: the texts that a pattern takes, trivia apart.
* `Token.goesOn`: a token is the start of a longer one, or of a comment, in front of a rest.

## Main statements

* `Pattern.shape_take`: what a pattern takes has the shape of the pattern.
* `Token.next_append_iff`: a token is taken in front of a rest just if it does not go on there.
-/
namespace Bindery

namespace Pattern

variable {p : Pattern} {w cs rest : List Char}

/-- The texts that a pattern takes from the front of a text. -/
inductive Shape : Pattern → List Char → Prop
  | word {w : List Char} (hw : isWord w = true) : Shape word w
  | decimal {ds suffix : List Char} (hds : Digits ds)
      (hsuffix : ∀ c ∈ suffix, isIntSuffix c = true) : Shape decimal (ds ++ suffix)
  | hexadecimal {x : Char} {hs suffix : List Char} (hx : x = 'x' ∨ x = 'X') (hne : hs ≠ [])
      (hhs : ∀ c ∈ hs, isHexOrTick c = true) (hsuffix : ∀ c ∈ suffix, isIntSuffix c = true) :
      Shape hexadecimal ('0' :: x :: (hs ++ suffix))
  | pointed {ds fs tl : List Char} (hds : Digits ds) (hfs : ∀ c ∈ fs, isDigitOrTick c = true)
      (htl : RealTail tl) : Shape pointed (ds ++ '.' :: (fs ++ tl))
  | fraction {ds tl : List Char} (hds : Digits ds) (htl : RealTail tl) :
      Shape fraction ('.' :: (ds ++ tl))
  | exponential {ds e suffix : List Char} (hds : Digits ds) (he : Exponent e)
      (hsuffix : FloatSuffix suffix) : Shape exponential (ds ++ (e ++ suffix))
  | string {body : List Char} (hbody : QuotedBody '"' body) :
      Shape string ('"' :: (body ++ ['"']))
  | character {body : List Char} (hbody : QuotedBody '\'' body) (hne : 1 ≤ body.length) :
      Shape character ('\'' :: (body ++ ['\'']))
  | mark {spelling : List Char} {kind : TokenKind} : Shape (mark spelling kind) spelling

/-! ## What is taken has the shape -/

theorem shape_word_take (h : word.scan cs ≠ 0) : Shape word (cs.take (word.scan cs)) := by
  cases cs with
  | nil => exact absurd rfl h
  | cons c cs =>
    rw [scan] at h ⊢
    by_cases hc : isWordStart c = true
    · rw [if_pos hc, Nat.add_comm, List.take_succ_cons]
      refine .word ?_
      rw [isWord, hc, Bool.true_and, List.all_eq_true]
      exact fun d hd => mem_take_run hd
    · rw [if_neg hc] at h
      exact absurd rfl h

theorem shape_decimal_take (h : decimal.scan cs ≠ 0) :
    Shape decimal (cs.take (decimal.scan cs)) := by
  have hdigits : leadingDigits cs ≠ 0 := fun hzero => h (scan_decimal_eq_zero hzero)
  obtain ⟨ds, rest, rfl, hds, hrest⟩ := exists_digits hdigits
  rw [hds.scan_decimal hrest, List.take_length_add_append]
  exact .decimal hds fun c hc => mem_take_run hc

theorem shape_hexadecimal_take (h : hexadecimal.scan cs ≠ 0) :
    Shape hexadecimal (cs.take (hexadecimal.scan cs)) := by
  match cs with
  | [] => exact absurd rfl h
  | [c] => exact absurd (scan_hexadecimal_of_head (by simp)) h
  | c :: x :: cs =>
    by_cases hc : c = '0'
    · subst hc
      simp only [scan, Bool.or_eq_true, decide_eq_true_eq] at h ⊢
      by_cases hx : x = 'x' ∨ x = 'X'
      · by_cases hrun : run isHexOrTick cs = 0
        · simp [hx, hrun] at h
        · rw [if_pos hx, if_neg hrun, Nat.add_comm, List.take_succ_cons, List.take_succ_cons,
            andThen, List.take_add]
          refine .hexadecimal hx (fun hnil => hrun ?_) (fun d hd => mem_take_run hd)
            fun d hd => mem_take_run hd
          rw [← List.length_take_of_le (run_le_length isHexOrTick cs), hnil, List.length_nil]
      · rw [if_neg hx] at h
        exact absurd rfl h
    · simp [scan, hc] at h

theorem shape_pointed_take (h : pointed.scan cs ≠ 0) :
    Shape pointed (cs.take (pointed.scan cs)) := by
  have hdigits : leadingDigits cs ≠ 0 := by
    intro hzero
    simp [scan, hzero] at h
  obtain ⟨ds, rest, rfl, hds, hrest⟩ := exists_digits hdigits
  by_cases hpoint : rest.head? = some '.'
  · obtain ⟨cs, rfl⟩ := List.head?_eq_some_iff.1 hpoint
    rw [hds.scan_pointed, List.take_length_add_append, Nat.add_comm 1, List.take_succ_cons,
      List.take_add]
    exact .pointed hds (fun c hc => mem_take_run hc) (realTail_take _)
  · exact absurd (hds.scan_pointed_eq_zero hrest hpoint) h

theorem shape_fraction_take (h : fraction.scan cs ≠ 0) :
    Shape fraction (cs.take (fraction.scan cs)) := by
  cases cs with
  | nil => exact absurd rfl h
  | cons c cs =>
    by_cases hc : c = '.'
    · subst hc
      have hdigits : leadingDigits cs ≠ 0 := by
        intro hzero
        simp [scan, hzero] at h
      obtain ⟨ds, rest, rfl, hds, hrest⟩ := exists_digits hdigits
      rw [hds.scan_fraction hrest, Nat.add_comm, List.take_succ_cons, List.take_length_add_append]
      exact .fraction hds (realTail_take rest)
    · simp [scan, hc] at h

theorem shape_exponential_take (h : exponential.scan cs ≠ 0) :
    Shape exponential (cs.take (exponential.scan cs)) := by
  have hdigits : leadingDigits cs ≠ 0 := by
    intro hzero
    simp [scan, hzero] at h
  obtain ⟨ds, rest, rfl, hds, hrest⟩ := exists_digits hdigits
  rw [hds.scan_exponential hrest] at h ⊢
  by_cases hexponent : exponent rest = 0
  · rw [if_pos hexponent] at h
    exact absurd rfl h
  · rw [if_neg hexponent, List.take_length_add_append, realTail, andThen, List.take_add]
    exact .exponential hds (exponent_take hexponent) (floatSuffix_take _)

/-- What a pattern takes has the shape of the pattern, unless it carries no meaning. -/
theorem shape_take (h : p.scan cs ≠ 0) (hkind : (p.kindOf w).isTrivia = false) :
    p.Shape (cs.take (p.scan cs)) := by
  cases p with
  | word => exact shape_word_take h
  | decimal => exact shape_decimal_take h
  | hexadecimal => exact shape_hexadecimal_take h
  | pointed => exact shape_pointed_take h
  | fraction => exact shape_fraction_take h
  | exponential => exact shape_exponential_take h
  | string =>
    rw [scan] at h ⊢
    obtain ⟨body, htake, hbody, -⟩ := quoted_take h
    rw [htake]
    exact .string hbody
  | character =>
    rw [scan] at h ⊢
    obtain ⟨body, htake, hbody, hne⟩ := quoted_take h
    rw [htake]
    exact .character hbody hne
  | mark spelling kind =>
    rw [scan] at h ⊢
    by_cases hfront : spelling.isPrefixOf cs = true
    · rw [if_pos hfront, ← List.prefix_iff_eq_take.1 (List.isPrefixOf_iff_prefix.1 hfront)]
      exact .mark
    · rw [if_neg hfront] at h
      exact absurd rfl h
  | _ => cases hkind

/-! ## What has the shape is taken -/

/-- A pattern takes a text in front of a rest, and every other pattern takes less. -/
structure Greatest (p : Pattern) (w rest : List Char) : Prop where
  taken : p.scan (w ++ rest) = w.length
  less : ∀ q ∈ all, q ≠ p → q.scan (w ++ rest) < w.length

/-- Behind leading digits only the patterns of numbers have to be compared. -/
theorem Digits.greatest {ds more : List Char} (hds : Digits ds)
    (taken : p.scan (ds ++ (more ++ rest)) = (ds ++ more).length)
    (less : ∀ q ∈ [decimal, hexadecimal, pointed, exponential], q ≠ p →
      q.scan (ds ++ (more ++ rest)) < (ds ++ more).length) : p.Greatest (ds ++ more) rest := by
  rw [← List.append_assoc] at taken less
  refine ⟨taken, fun q hq hne => ?_⟩
  obtain ⟨c, hc, hdigit⟩ := hds.head
  obtain ⟨ds, rfl⟩ := List.head?_eq_some_iff.1 hc
  cases hopens : q.opens c with
  | false =>
    have hzero := scan_eq_zero hopens (ds ++ more ++ rest)
    rw [List.cons_append, List.cons_append, hzero]
    simp
  | true => exact less q (numeric_of_opens hdigit hq hopens) hne

theorem greatest_decimal {ds suffix : List Char} (hds : Digits ds)
    (hsuffix : ∀ c ∈ suffix, isIntSuffix c = true) (hrest : Stops isWordOrTick rest)
    (hpoint : suffix = [] → rest.head? ≠ some '.') :
    decimal.Greatest (ds ++ suffix) rest := by
  have hbehind := stops_suffix hsuffix hrest
  have hstops : Stops isDigitOrTick (suffix ++ rest) := hbehind.mono fun c hc => by
    simp [isWordOrTick_of_isDigitOrTick c hc, isIntSuffix_eq_false (.inl hc)]
  have hpos := hds.length_ne
  refine hds.greatest ?_ ?_
  · rw [hds.scan_decimal hstops, run_append_of_all hsuffix (hrest.mono isWordOrTick_of_isIntSuffix),
      List.length_append]
  · have hpointed : pointed.scan (ds ++ (suffix ++ rest)) = 0 := by
      refine hds.scan_pointed_eq_zero hstops ?_
      cases suffix with
      | nil => exact hpoint rfl
      | cons c suffix =>
        intro hc
        obtain rfl : c = '.' := by simpa using hc
        cases hsuffix '.' (.head _)
    have hhexadecimal := hds.scan_hexadecimal fun c hc =>
      ⟨hbehind.head_ne rfl c hc, hbehind.head_ne rfl c hc⟩
    have hexponential := hds.scan_exponential_eq_zero hstops fun c hc =>
      ⟨hbehind.head_ne rfl c hc, hbehind.head_ne rfl c hc⟩
    simp only [List.forall_mem_cons, hhexadecimal, hpointed, hexponential]
    simp
    omega

theorem greatest_hexadecimal {x : Char} {hs suffix : List Char} (hx : x = 'x' ∨ x = 'X')
    (hne : hs ≠ []) (hhs : ∀ c ∈ hs, isHexOrTick c = true)
    (hsuffix : ∀ c ∈ suffix, isIntSuffix c = true) (hrest : Stops isWordOrTick rest) :
    hexadecimal.Greatest ('0' :: x :: (hs ++ suffix)) rest := by
  have hstops : Stops isHexOrTick (suffix ++ rest) :=
    (stops_suffix hsuffix hrest).mono fun c hc => by
      simp [isWordOrTick_of_isHexOrTick c hc, isIntSuffix_eq_false (.inr hc)]
  have hhead : Stops isDigitOrTick (x :: (hs ++ suffix) ++ rest) := by
    rcases hx with rfl | rfl
    · exact stops_cons rfl
    · exact stops_cons rfl
  have hzero : Digits ['0'] := ⟨⟨'0', rfl, rfl⟩, by simp [isDigitOrTick]⟩
  change hexadecimal.Greatest (['0'] ++ x :: (hs ++ suffix)) rest
  refine hzero.greatest ?_ ?_
  · have hrun := run_append_of_all hhs hstops
    have hpos : hs.length ≠ 0 := by simpa using hne
    have hletter : (x = 'x' ∨ x = 'X') ↔ True := by simp [hx]
    simp only [List.cons_append, List.nil_append, List.append_assoc, scan]
    simp [hletter, hrun, hpos, andThen_length_append,
      run_append_of_all hsuffix (hrest.mono isWordOrTick_of_isIntSuffix)]
    omega
  · have hdecimal := hzero.scan_decimal_of_stops hhead
      (by rcases hx with rfl | rfl <;> exact stops_cons rfl)
    have hpointed := hzero.scan_pointed_eq_zero hhead (by rcases hx with rfl | rfl <;> simp)
    have hexponential := hzero.scan_exponential_eq_zero hhead
      (by rcases hx with rfl | rfl <;> simp)
    simp only [List.forall_mem_cons, hdecimal, hpointed, hexponential]
    simp

theorem greatest_pointed {ds fs tl : List Char} (hds : Digits ds)
    (hfs : ∀ c ∈ fs, isDigitOrTick c = true) (htl : RealTail tl)
    (hrest : Stops isWordOrTick rest) : pointed.Greatest (ds ++ '.' :: (fs ++ tl)) rest := by
  have hhead : Stops isDigitOrTick ('.' :: (fs ++ tl) ++ rest) := stops_cons rfl
  refine hds.greatest ?_ ?_
  · have hrun := run_append_of_all hfs (htl.stops hrest)
    rw [List.cons_append, List.append_assoc, hds.scan_pointed, hrun, List.drop_left' rfl,
      htl.realTail_append hrest]
    simp
    omega
  · have hdecimal := hds.scan_decimal_of_stops hhead (stops_cons rfl)
    have hhexadecimal : hexadecimal.scan (ds ++ ('.' :: (fs ++ tl) ++ rest)) = 0 :=
      hds.scan_hexadecimal (by simp)
    have hexponential := hds.scan_exponential_eq_zero hhead (by simp)
    simp only [List.forall_mem_cons, hdecimal, hhexadecimal, hexponential]
    simp

theorem greatest_exponential {ds e suffix : List Char} (hds : Digits ds) (he : Exponent e)
    (hsuffix : FloatSuffix suffix) (hrest : Stops isWordOrTick rest) :
    exponential.Greatest (ds ++ (e ++ suffix)) rest := by
  have htl : RealTail (e ++ suffix) := ⟨e, suffix, rfl, .inr he, hsuffix⟩
  have hhead := htl.stops hrest
  have hexponent : exponent (e ++ suffix ++ rest) = e.length := by
    rw [List.append_assoc]
    refine he.exponent_append ((stops_suffix hsuffix.all hrest).mono fun c hc => ?_)
    have htick := isDigitOrTick_of_isDigit c hc
    simp [isWordOrTick_of_isDigitOrTick c htick, isFloatSuffix_eq_false htick]
  obtain ⟨letter, sign, digits, rfl, hletter, -⟩ := he
  refine hds.greatest ?_ ?_
  · rw [hds.scan_exponential hhead, hexponent, htl.realTail_append hrest, if_neg (by simp),
      ← List.length_append]
  · have hdecimal := hds.scan_decimal_of_stops hhead
      (by rcases hletter with rfl | rfl <;> exact stops_cons rfl)
    have hhexadecimal :
        hexadecimal.scan (ds ++ (letter :: (sign ++ digits) ++ suffix ++ rest)) = 0 :=
      hds.scan_hexadecimal (by rcases hletter with rfl | rfl <;> simp)
    have hpointed := hds.scan_pointed_eq_zero hhead
      (by rcases hletter with rfl | rfl <;> simp)
    simp only [List.forall_mem_cons, hdecimal, hhexadecimal, hpointed]
    simp

theorem greatest_fraction {ds tl : List Char} (hds : Digits ds) (htl : RealTail tl)
    (hrest : Stops isWordOrTick rest) : fraction.Greatest ('.' :: (ds ++ tl)) rest := by
  have hpos := hds.length_ne
  refine ⟨?_, fun q hq hne => ?_⟩
  · rw [List.cons_append, List.append_assoc, hds.scan_fraction (htl.stops hrest),
      htl.realTail_append hrest]
    simp
    omega
  · have hmarks : ∀ q ∈ all, q ≠ fraction → q.opens '.' = true →
        q = mark ['.'] .dot ∨ q = mark ['.', '.', '.'] .ellipsis := by decide
    obtain ⟨c, hc, hdigit⟩ := hds.head
    obtain ⟨ds, rfl⟩ := List.head?_eq_some_iff.1 hc
    cases hopens : q.opens '.' with
    | false =>
      have hzero := scan_eq_zero hopens (c :: ds ++ tl ++ rest)
      rw [List.cons_append, hzero]
      simp
    | true =>
      rcases hmarks q hq hne hopens with rfl | rfl
      · simp [scan, List.isPrefixOf]
      · have hne : '.' ≠ c := by
          rintro rfl
          cases hdigit
        simp [scan, List.isPrefixOf, hne]

/-- A literal is taken to its closing quote, and where a quote stands no other pattern matches. -/
theorem greatest_quoted {quote : Char} {l : List Char} (rest : List Char)
    (hscan : p.scan (quote :: (l ++ quote :: rest)) = l.length + 2)
    (honly : ∀ q ∈ all, q ≠ p → q.opens quote = false) :
    p.Greatest (quote :: (l ++ [quote])) rest := by
  have happ : quote :: (l ++ [quote]) ++ rest = quote :: (l ++ quote :: rest) := by simp
  refine ⟨by rw [happ, hscan]; simp, fun q hq hne => ?_⟩
  rw [happ, scan_eq_zero (honly q hq hne)]
  simp

end Pattern

namespace Token

open Pattern

variable {p : Pattern} {kind : TokenKind} {w cs rest : List Char}

theorem next_of_greatest (hp : p ∈ all) (hw : w ≠ []) (hopen : opensComment (w ++ rest) = false)
    (h : p.Greatest w rest) : next (w ++ rest) = (p.kindOf w, w.length) := by
  have hpos : 0 < w.length := List.length_pos_iff.2 hw
  have hlongest : longest (w ++ rest) all = some (p, w.length) := by
    rw [← h.taken]
    exact longest_eq_of_greatest hp (by rwa [h.taken]) fun q hq hne => by
      rw [h.taken]
      exact h.less q hq hne
  rw [next_of_longest hopen hlongest, List.take_left' rfl]

/-! ## What goes on -/

/-- The token is the start of a longer one in front of the rest, or of a comment. -/
def goesOn (kind : TokenKind) (w rest : List Char) : Bool :=
  match kind with
  | .colon => rest.head? = some ':'
  | .amp => rest.head? = some '&'
  | .minus => rest.head? = some '>'
  | .slash => rest.head? = some '/' || rest.head? = some '*'
  | .dot => rest.head?.any Char.isDigit || rest.take 2 = ['.', '.']
  | .intNumber => w.all isDigitOrTick && rest.head? = some '.'
  | _ => false

theorem next_slash (h : goesOn .slash w rest = false) : next ('/' :: rest) = (.slash, 1) := by
  simp only [goesOn, Bool.or_eq_false_iff, decide_eq_false_iff_not] at h
  obtain ⟨hline, hblock⟩ := h
  cases rest with
  | nil => rfl
  | cons c rest =>
    have hslash : c ≠ '/' := by simpa using hline
    have hstar : c ≠ '*' := by simpa using hblock
    refine next_mark (by decide) (by simp [opensComment, hstar]) fun q hq hne hopens => ?_
    obtain rfl | rfl : q = lineComment ∨ q = blockComment := by revert q; decide
    · simp [Pattern.scan, hslash]
    · simp [Pattern.scan, hstar]

theorem next_dot (h : goesOn .dot w rest = false) : next ('.' :: rest) = (.dot, 1) := by
  simp only [goesOn, Bool.or_eq_false_iff, decide_eq_false_iff_not] at h
  obtain ⟨hdigit, hdots⟩ := h
  refine next_mark (by decide) rfl fun q hq hne hopens => ?_
  obtain rfl | rfl : q = fraction ∨ q = .mark ['.', '.', '.'] .ellipsis := by revert q; decide
  · cases rest with
    | nil => rfl
    | cons c rest =>
      have hc : c.isDigit = false := by simpa using hdigit
      simp [Pattern.scan, leadingDigits, hc]
  · rcases rest with _ | ⟨c, _ | ⟨d, rest⟩⟩
    · rfl
    · simp [Pattern.scan, List.isPrefixOf]
    · have hne : '.' = c → '.' ≠ d := by
        rintro rfl rfl
        exact hdots rfl
      simpa [Pattern.scan, List.isPrefixOf] using hne

/-- A mark in front of a rest that makes no longer token of it. -/
theorem next_mark_append : ∀ m ∈ TokenKind.marks, goesOn m.2 m.1.toList rest = false →
    next (m.1.toList ++ rest) = (m.2, m.1.toList.length) := by
  have hstops {c : Char} (h : decide (rest.head? = some c) = false) : Stops (· = c) rest := by
    intro d hd
    have hne : rest.head? ≠ some c := by simpa using h
    refine decide_eq_false ?_
    rintro rfl
    exact hne hd
  simp only [TokenKind.marks, List.forall_mem_cons]
  refine ⟨fun _ => rfl, fun _ => rfl, fun _ => rfl, fun _ => rfl, fun _ => rfl, fun _ => rfl,
    fun _ => rfl, fun _ => rfl, fun _ => rfl, fun _ => rfl, fun _ => rfl, fun _ => rfl,
    fun _ => rfl, fun h => next_colon (hstops h), fun _ => rfl, fun _ => rfl, fun _ => rfl,
    fun h => next_amp (hstops h), fun _ => rfl, next_dot, fun _ => rfl,
    fun h => next_minus (hstops h), next_slash, fun _ => rfl, fun _ => rfl, fun _ => rfl,
    fun _ => rfl, fun _ => rfl, by simp⟩

theorem opensComment_cons {c : Char} (hc : c ≠ '/') (cs : List Char) :
    opensComment (c :: cs) = false := by
  simp [opensComment, hc]

theorem opensComment_digits {ds : List Char} (hds : Digits ds) (cs : List Char) :
    opensComment (ds ++ cs) = false := by
  obtain ⟨c, hc, hdigit⟩ := hds.head
  obtain ⟨ds, rfl⟩ := List.head?_eq_some_iff.1 hc
  refine opensComment_cons ?_ _
  rintro rfl
  cases hdigit

/-- A number that starts with digits is taken where its pattern takes more than every other. -/
theorem next_of_digits (hp : p ∈ all) {ds more : List Char} (hds : Digits ds)
    (h : p.Greatest (ds ++ more) rest) :
    next (ds ++ more ++ rest) = (p.kindOf (ds ++ more), (ds ++ more).length) := by
  have hne : ds ≠ [] := by
    rintro rfl
    exact hds.length_ne rfl
  refine next_of_greatest hp (by simp [hne]) ?_ h
  rw [List.append_assoc]
  exact opensComment_digits hds _

/-- A word is an identifier, or the reserved word that is spelled like it. -/
theorem kindOf_word (w : List Char) : word.kindOf w = .ident ∨
    ∃ k ∈ TokenKind.keywords, k.1.toList = w ∧ k.2 = word.kindOf w := by
  rw [kindOf]
  cases hfind : TokenKind.keywords.find? fun k => k.1.toList = w with
  | none => exact .inl rfl
  | some k =>
    exact .inr ⟨k, List.mem_of_find?_eq_some hfind, by simpa using List.find?_some hfind, rfl⟩

/-- The kind of a word is that of a reserved word, or of an identifier. -/
theorem isWord_kindOf_word (w : List Char) : (word.kindOf w).isWord = true := by
  have hkeywords : ∀ k ∈ TokenKind.keywords, k.2.isWord = true := by decide
  obtain hident | ⟨k, hk, -, hkind⟩ := kindOf_word w
  · rw [hident]
    rfl
  · rw [← hkind]
    exact hkeywords k hk

/-- No word goes without meaning. -/
theorem isTrivia_kindOf_word (w : List Char) : (word.kindOf w).isTrivia = false := by
  have hkeywords : ∀ k ∈ TokenKind.keywords, k.2.isTrivia = false := by decide
  obtain hident | ⟨k, hk, -, hkind⟩ := kindOf_word w
  · rw [hident]
    rfl
  · rw [← hkind]
    exact hkeywords k hk

theorem isPunct_eq_false_of_isWord (h : kind.isWord = true) : kind.isPunct = false := by
  simp only [TokenKind.isWord, Bool.or_eq_true, decide_eq_true_eq] at h
  rcases h with rfl | h
  · rfl
  · exact kind.isPunct_eq_false_of_isKeyword h

/-- A token is taken for itself in front of a rest that makes no longer token of it. -/
theorem next_append (hp : p ∈ all) (hshape : p.Shape w)
    (hrest : (p.kindOf w).isPunct = false → Stops isWordOrTick rest)
    (h : goesOn (p.kindOf w) w rest = false) : next (w ++ rest) = (p.kindOf w, w.length) := by
  cases hshape with
  | word hw =>
    have hstops := hrest (isPunct_eq_false_of_isWord (isWord_kindOf_word _))
    exact next_word hw (hstops.mono isWordOrTick_of_isWordChar)
  | decimal hds hsuffix =>
    refine next_of_digits hp hds (greatest_decimal hds hsuffix (hrest rfl) ?_)
    rintro rfl
    rw [List.append_nil, kindOf, goesOn, List.all_eq_true.2 hds.all, Bool.true_and] at h
    exact of_decide_eq_false h
  | hexadecimal hx hne hhs hsuffix =>
    exact next_of_greatest hp (by simp) (opensComment_cons (by decide) _)
      (greatest_hexadecimal hx hne hhs hsuffix (hrest rfl))
  | pointed hds hfs htl =>
    exact next_of_digits hp hds (greatest_pointed hds hfs htl (hrest rfl))
  | fraction hds htl =>
    exact next_of_greatest hp (by simp) (opensComment_cons (by decide) _)
      (greatest_fraction hds htl (hrest rfl))
  | exponential hds he hsuffix =>
    exact next_of_digits hp hds (greatest_exponential hds he hsuffix (hrest rfl))
  | string hbody =>
    exact next_of_greatest hp (by simp) (opensComment_cons (by decide) _)
      (greatest_quoted rest (hbody.quoted_append (by decide) (Nat.zero_le _) rest) (by decide))
  | character hbody hne =>
    exact next_of_greatest hp (by simp) (opensComment_cons (by decide) _)
      (greatest_quoted rest (hbody.quoted_append (by decide) hne rest) (by decide))
  | mark =>
    obtain ⟨m, hm, rfl, rfl⟩ := exists_of_mark_mem_all hp
    exact next_mark_append m hm h

/-- No pattern takes more than the token. -/
theorem scan_le_next (hp : p ∈ all) (hopen : opensComment cs = false) :
    p.scan cs ≤ (next cs).2 := by
  rw [next, if_neg (by simp [hopen])]
  cases hlongest : longest cs all with
  | none =>
    rw [longest_eq_none hlongest p hp]
    exact Nat.zero_le _
  | some best => exact (longest_spec hlongest).2.2 p hp

/-- Where a pattern takes more than a text, or a comment is left open, the text is no token. -/
theorem next_ne_of_lt {n : ℕ} (hp : p ∈ all) (hlt : n < p.scan cs) (hkind : kind ≠ .error) :
    next cs ≠ (kind, n) := by
  intro hnext
  cases hopen : opensComment cs with
  | true =>
    rw [next, if_pos hopen] at hnext
    exact hkind (congrArg Prod.fst hnext).symm
  | false =>
    have hle := scan_le_next hp hopen
    rw [hnext] at hle
    exact absurd hlt (Nat.not_lt.2 hle)

/-- Only some marks and integers go on. -/
theorem mem_of_goesOn (h : goesOn kind w rest = true) :
    kind ∈ [.colon, .amp, .minus, .slash, .dot, .intNumber] := by
  cases kind <;> first | cases h | decide

/-- Where a mark of two characters stands, its first character is no token. -/
theorem next_ne_of_pair {c d : Char} (pair : TokenKind) (hp : .mark [c, d] pair ∈ all)
    (hkind : kind ≠ .error) (r : List Char) : next (c :: d :: r) ≠ (kind, 1) :=
  next_ne_of_lt hp (by simp [Pattern.scan, List.isPrefixOf]) hkind

/-- A mark that goes on is the start of a longer mark, of a comment or of a number. -/
theorem next_ne_of_mark : ∀ m ∈ TokenKind.marks, goesOn m.2 m.1.toList rest = true →
    next (m.1.toList ++ rest) ≠ (m.2, m.1.toList.length) := by
  intro m hm h
  have hmarks : ∀ m ∈ TokenKind.marks,
      m.2 ∈ [.colon, .amp, .minus, .slash, .dot, .intNumber] →
      m ∈ [(":", .colon), ("&", .amp), ("-", .minus), ("/", .slash), (".", .dot)] := by decide
  have hspecial := hmarks m hm (mem_of_goesOn h)
  simp only [List.mem_cons, List.not_mem_nil, or_false] at hspecial
  rcases hspecial with rfl | rfl | rfl | rfl | rfl
  · obtain ⟨r, rfl⟩ := List.head?_eq_some_iff.1 (of_decide_eq_true h)
    exact next_ne_of_pair .colonColon (by decide) (by decide) r
  · obtain ⟨r, rfl⟩ := List.head?_eq_some_iff.1 (of_decide_eq_true h)
    exact next_ne_of_pair .ampAmp (by decide) (by decide) r
  · obtain ⟨r, rfl⟩ := List.head?_eq_some_iff.1 (of_decide_eq_true h)
    exact next_ne_of_pair .arrow (by decide) (by decide) r
  · simp only [goesOn, Bool.or_eq_true, decide_eq_true_eq] at h
    rcases h with h | h
    · obtain ⟨r, rfl⟩ := List.head?_eq_some_iff.1 h
      refine next_ne_of_lt (p := lineComment) (by decide) ?_ (by decide)
      simp [Pattern.scan]
      omega
    · obtain ⟨r, rfl⟩ := List.head?_eq_some_iff.1 h
      -- An opener is the start of a comment, or of an error where the comment is left open.
      cases hend : commentEnd? r with
      | none =>
        have hopen : opensComment ("/".toList ++ '*' :: r) = true := by simp [opensComment, hend]
        rw [next, if_pos hopen]
        simp
      | some n =>
        refine next_ne_of_lt (p := blockComment) (by decide) ?_ (by decide)
        simp [Pattern.scan, hend]
        omega
  · simp only [goesOn, Bool.or_eq_true, decide_eq_true_eq] at h
    rcases h with h | h
    · cases rest with
      | nil => cases h
      | cons c rest =>
        have hc : c.isDigit = true := by simpa using h
        refine next_ne_of_lt (p := fraction) (by decide) ?_ (by decide)
        simp [Pattern.scan, leadingDigits, hc, andThen]
    · refine next_ne_of_lt (p := .mark ['.', '.', '.'] .ellipsis) (by decide) ?_ (by decide)
      obtain ⟨r, rfl⟩ := List.prefix_iff_eq_take.2 h.symm
      simp [Pattern.scan, List.isPrefixOf]

/-- An integer of digits alone is the start of a number with a point. -/
theorem next_ne_of_integer (hp : p ∈ all) (hshape : p.Shape w) (hkind : p.kindOf w = .intNumber)
    (h : goesOn .intNumber w rest = true) : next (w ++ rest) ≠ (.intNumber, w.length) := by
  simp only [goesOn, Bool.and_eq_true, decide_eq_true_eq] at h
  obtain ⟨hall, hpoint⟩ := h
  obtain ⟨r, rfl⟩ := List.head?_eq_some_iff.1 hpoint
  have hhead : ∃ c ∈ w.head?, c.isDigit = true := by
    rcases eq_decimal_or_hexadecimal_of_kindOf hp hkind with rfl | rfl
    · cases hshape with
      | decimal hds _ =>
        obtain ⟨c, hc, hdigit⟩ := hds.head
        exact ⟨c, List.mem_head?_append_of_mem_head? hc, hdigit⟩
    · cases hshape with
      | hexadecimal => exact ⟨'0', rfl, rfl⟩
  have hdigits : Digits w := ⟨hhead, List.all_eq_true.1 hall⟩
  refine next_ne_of_lt (p := pointed) (by decide) ?_ (by decide)
  rw [hdigits.scan_pointed]
  omega

/-- A token is taken for itself in front of a rest just if it is not the start of something longer
there. Only a mark may meet a character that a word goes on with. -/
theorem next_append_iff (hp : p ∈ all) (hshape : p.Shape w)
    (hrest : (p.kindOf w).isPunct = false → Stops isWordOrTick rest) :
    next (w ++ rest) = (p.kindOf w, w.length) ↔ goesOn (p.kindOf w) w rest = false := by
  refine ⟨fun hnext => ?_, next_append hp hshape hrest⟩
  by_contra hgoes
  rw [Bool.not_eq_false] at hgoes
  cases hshape with
  | word hw =>
    have hspecial : ∀ kind ∈ [.colon, .amp, .minus, .slash, .dot, .intNumber],
        TokenKind.isWord kind = false := by decide
    have hword := hspecial _ (mem_of_goesOn hgoes)
    rw [isWord_kindOf_word] at hword
    cases hword
  | decimal hds hsuffix => exact next_ne_of_integer hp (.decimal hds hsuffix) rfl hgoes hnext
  | hexadecimal hx hne hhs hsuffix =>
    exact next_ne_of_integer hp (.hexadecimal hx hne hhs hsuffix) rfl hgoes hnext
  | mark =>
    obtain ⟨m, hm, rfl, rfl⟩ := exists_of_mark_mem_all hp
    exact next_ne_of_mark m hm hgoes hnext
  | _ => cases hgoes

end Token
end Bindery
