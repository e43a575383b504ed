import Bindery.Proofs.Token.Lexeme

/-!
# Numbers in front of a rest

A number is scanned in parts: digits, an exponent, a suffix. Each part looks only at characters
that a number may go on with, so a rest that starts with another character changes none of the
lengths, and the longest match in front of the rest is the longest match of the number alone.

## Main definitions

* `Pattern.isNumberChar`: the characters that a number may go on with.
* `Pattern.Local`: a part of a number that takes as much in front of a rest as it does alone.
-/
namespace Bindery

namespace Pattern

/-! ## Characters of numbers -/

/-- A character that a number may go on with. -/
def isNumberChar (c : Char) : Bool :=
  isWordChar c || c = '\'' || c = '.' || c = '+' || c = '-'

theorem isNumberChar_of_isDigitOrTick (c : Char) (h : isDigitOrTick c = true) :
    isNumberChar c = true := by
  simp only [isDigitOrTick, Bool.or_eq_true, decide_eq_true_eq] at h
  rcases h with h | rfl
  · simp [isNumberChar, isWordChar, Char.isAlphanum, h]
  · rfl

theorem isNumberChar_of_isDigit (c : Char) (h : c.isDigit = true) : isNumberChar c = true :=
  isNumberChar_of_isDigitOrTick c (by simp [isDigitOrTick, h])

theorem isNumberChar_of_isHexOrTick (c : Char) (h : isHexOrTick c = true) :
    isNumberChar c = true := by
  simp only [isHexOrTick, Bool.or_eq_true, Bool.and_eq_true, decide_eq_true_eq] at h
  have halpha : c.isDigit = true ∨ c.isLower = true ∨ c.isUpper = true ∨ c = '\'' := by
    rcases h with ((h | ⟨hl, hu⟩) | ⟨hl, hu⟩) | h
    · exact .inl h
    · refine .inr (.inl ?_)
      have hz : c.val ≤ 'z'.val := UInt32.le_trans hu (by decide)
      simp only [Char.isLower, Bool.and_eq_true, decide_eq_true_eq]
      exact ⟨hl, hz⟩
    · refine .inr (.inr (.inl ?_))
      have hz : c.val ≤ 'Z'.val := UInt32.le_trans hu (by decide)
      exact decide_eq_true ⟨hl, hz⟩
    · exact .inr (.inr (.inr h))
  rcases halpha with h | h | h | rfl
  · exact isNumberChar_of_isDigit c h
  · simp [isNumberChar, isWordChar, Char.isAlphanum, Char.isAlpha, h]
  · simp [isNumberChar, isWordChar, Char.isAlphanum, Char.isAlpha, h]
  · rfl

theorem isNumberChar_of_isIntSuffix (c : Char) (h : isIntSuffix c = true) :
    isNumberChar c = true := by
  simp only [isIntSuffix, Bool.or_eq_true, decide_eq_true_eq] at h
  rcases h with ((((rfl | rfl) | rfl) | rfl) | rfl) | rfl <;> rfl

theorem isNumberChar_of_isFloatSuffix (c : Char) (h : isFloatSuffix c = true) :
    isNumberChar c = true := by
  simp only [isFloatSuffix, Bool.or_eq_true, decide_eq_true_eq] at h
  rcases h with ((rfl | rfl) | rfl) | rfl <;> rfl

/-! ## Parts of numbers -/

/-- A piece of a number takes as much in front of a rest as it does alone. -/
def Local (piece : List Char → ℕ) : Prop :=
  ∀ cs rest, Stops isNumberChar rest → piece (cs ++ rest) = piece cs

theorem local_run {p : Char → Bool} (h : ∀ c, p c = true → isNumberChar c = true) :
    Local (run p) :=
  fun cs _ hrest => run_append (hrest.mono h) cs

theorem local_floatSuffix : Local floatSuffix := by
  intro cs rest hrest
  cases cs with
  | cons c cs => rfl
  | nil =>
      cases rest with
      | nil => rfl
      | cons r rs =>
          have hr := hrest.mono isNumberChar_of_isFloatSuffix r (by simp)
          simp [floatSuffix, hr]

theorem local_exponent : Local exponent := by
  intro cs rest hrest
  have hdigit := hrest.mono isNumberChar_of_isDigit
  have hne (c : Char) (hc : isNumberChar c = true) : ∀ r ∈ rest.head?, r ≠ c := by
    rintro r hr rfl
    rw [hrest r hr] at hc
    exact absurd hc (by decide)
  match cs, rest with
  | e :: sign :: cs, rest =>
      rw [List.cons_append, List.cons_append, exponent, exponent, run_append hdigit,
        ← List.cons_append, run_append hdigit]
  | [e], [] => rfl
  | [e], r :: rs =>
      have hrun := run_eq_zero hdigit
      simp [exponent, hrun, hne '+' rfl r (by simp), hne '-' rfl r (by simp)]
  | [], [] => rfl
  | [], [r] => rfl
  | [], r :: r' :: rs =>
      simp [exponent, hne 'e' rfl r (by simp), hne 'E' rfl r (by simp)]

theorem local_leadingDigits : Local leadingDigits := by
  intro cs rest hrest
  cases cs with
  | cons c cs =>
      rw [List.cons_append, leadingDigits, leadingDigits,
        local_run isNumberChar_of_isDigitOrTick cs rest hrest]
  | nil =>
      cases rest with
      | nil => rfl
      | cons r rs =>
          have hr := hrest.mono isNumberChar_of_isDigit r (by simp)
          simp [leadingDigits, hr]

theorem leadingDigits_le_length (cs : List Char) : leadingDigits cs ≤ cs.length := by
  cases cs with
  | nil => exact le_refl 0
  | cons c cs =>
      have hrun := run_le_length isDigitOrTick cs
      rw [leadingDigits, List.length_cons]
      split <;> omega

theorem exponent_le_length (cs : List Char) : exponent cs ≤ cs.length := by
  match cs with
  | [] => exact le_refl 0
  | [e] => exact Nat.zero_le 1
  | e :: sign :: cs =>
      have hrest := run_le_length Char.isDigit cs
      have hall := run_le_length Char.isDigit (sign :: cs)
      simp only [exponent, List.length_cons] at hall ⊢
      split
      · split <;> split <;> omega
      · omega

/-- Two pieces of a number, one behind the other, are again such a piece. -/
theorem andThen_append {piece : List Char → ℕ} (h : Local piece) {n : ℕ} {cs rest : List Char}
    (hn : n ≤ cs.length) (hrest : Stops isNumberChar rest) :
    andThen n piece (cs ++ rest) = andThen n piece cs := by
  rw [andThen, andThen, List.drop_append_of_le_length hn, h _ rest hrest]

theorem andThen_le_length {piece : List Char → ℕ} (h : ∀ cs, piece cs ≤ cs.length) {n : ℕ}
    {cs : List Char} (hn : n ≤ cs.length) : andThen n piece cs ≤ cs.length := by
  have hpiece := h (cs.drop n)
  rw [List.length_drop] at hpiece
  rw [andThen]
  omega

/-! ## Numbers -/

theorem isSpace_eq_false_of_isDigit {c : Char} (h : c.isDigit = true) : isSpace c = false := by
  by_contra hspace
  simp only [Bool.not_eq_false, isSpace, Bool.or_eq_true, decide_eq_true_eq] at hspace
  rcases hspace with (((rfl | rfl) | rfl) | rfl) | rfl <;> exact absurd h (by decide)

theorem scan_decimal_append (cs : List Char) {rest : List Char}
    (hrest : Stops isNumberChar rest) : decimal.scan (cs ++ rest) = decimal.scan cs := by
  simp only [scan]
  rw [local_leadingDigits cs rest hrest,
    andThen_append (local_run isNumberChar_of_isIntSuffix) (leadingDigits_le_length cs) hrest]

theorem scan_pointed_append (cs : List Char) {rest : List Char}
    (hrest : Stops isNumberChar rest) : pointed.scan (cs ++ rest) = pointed.scan cs := by
  simp only [scan]
  rw [local_leadingDigits cs rest hrest]
  have hn := leadingDigits_le_length cs
  generalize leadingDigits cs = n at hn ⊢
  rw [List.drop_append_of_le_length hn]
  cases hdrop : cs.drop n with
  | nil =>
      have hdot : rest.head? ≠ some '.' := fun h => absurd (hrest '.' h) (by decide)
      simp [hdot]
  | cons d ds =>
      have hlt : n + 1 ≤ cs.length := by
        have hlen := congrArg List.length hdrop
        rw [List.length_drop, List.length_cons] at hlen
        omega
      have hm := andThen_le_length (run_le_length isDigitOrTick) hlt
      have he := andThen_le_length exponent_le_length hm
      rw [andThen_append (local_run isNumberChar_of_isDigitOrTick) hlt hrest,
        andThen_append local_exponent hm hrest, andThen_append local_floatSuffix he hrest]
      rfl

theorem scan_exponential_append (cs : List Char) {rest : List Char}
    (hrest : Stops isNumberChar rest) : exponential.scan (cs ++ rest) = exponential.scan cs := by
  simp only [scan]
  rw [local_leadingDigits cs rest hrest]
  have hn := leadingDigits_le_length cs
  generalize leadingDigits cs = n at hn ⊢
  have he : n + exponent (cs.drop n) ≤ cs.length := andThen_le_length exponent_le_length hn
  rw [List.drop_append_of_le_length hn, local_exponent _ rest hrest,
    andThen_append local_floatSuffix he hrest]

theorem scan_decimal_eq_zero {cs : List Char} (h : leadingDigits cs = 0) :
    decimal.scan cs = 0 := by
  simp [scan, h]

theorem scan_hexadecimal_eq_zero {cs : List Char} (h : leadingDigits cs = 0) :
    hexadecimal.scan cs = 0 := by
  cases cs with
  | nil => rfl
  | cons c cs =>
      by_cases hc : c = '0'
      · subst hc
        simp [leadingDigits] at h
      · simp [scan, hc]

theorem scan_decimal_le_length (cs : List Char) : decimal.scan cs ≤ cs.length := by
  have hle := andThen_le_length (run_le_length isIntSuffix) (leadingDigits_le_length cs)
  simp only [scan]
  split <;> omega

theorem scan_hexadecimal_le_length (cs : List Char) : hexadecimal.scan cs ≤ cs.length := by
  match cs with
  | [] => exact le_refl 0
  | [c] => simp [scan]
  | c :: x :: cs =>
      by_cases hc : c = '0'
      · subst hc
        have hle := andThen_le_length (run_le_length isIntSuffix) (run_le_length isHexOrTick cs)
        simp only [scan, List.length_cons]
        split
        · split <;> omega
        · omega
      · simp [scan, hc]

theorem scan_hexadecimal_append {c : Char} (cs : List Char) {rest : List Char}
    (hrest : Stops isNumberChar rest) :
    hexadecimal.scan (c :: cs ++ rest) = hexadecimal.scan (c :: cs) := by
  have hhex := local_run isNumberChar_of_isHexOrTick
  by_cases hc : c = '0'
  · subst hc
    match cs, rest with
    | x :: cs, rest =>
        have happ := andThen_append (local_run isNumberChar_of_isIntSuffix)
          (run_le_length isHexOrTick cs) hrest
        simp only [List.cons_append, scan]
        rw [hhex cs rest hrest, happ]
    | [], [] => rfl
    | [], r :: rs =>
        have hr (x : Char) (hx : isNumberChar x = true) : r ≠ x := by
          rintro rfl
          rw [hrest r (by simp)] at hx
          exact absurd hx (by decide)
        simp [scan, hr 'x' rfl, hr 'X' rfl]
  · simp [scan, hc]

/-- Where a number starts, only the patterns of numbers match. -/
theorem numeric_of_opens {c : Char} (hc : c.isDigit = true) {p : Pattern} (hp : p ∈ all)
    (h : p.opens c = true) : p ∈ [decimal, hexadecimal, pointed, exponential] := by
  have hne (d : Char) (hd : d.isDigit = false) : c ≠ d := by
    rintro rfl
    rw [hd] at hc
    exact absurd hc (by decide)
  have hmarks : ∀ m ∈ TokenKind.marks, m.1.toList.head?.all (!·.isDigit) = true := by decide
  cases p with
  | blank => rw [opens, isSpace_eq_false_of_isDigit hc] at h; exact absurd h (by decide)
  | word =>
      rw [isDigit_eq_false_of_isWordStart h] at hc
      exact absurd hc (by decide)
  | mark spelling kind =>
      obtain ⟨m, hm, rfl, rfl⟩ := exists_of_mark_mem_all hp
      have hmark := hmarks m hm
      rw [of_decide_eq_true h, Option.all_some, hc] at hmark
      exact absurd hmark (by decide)
  | decimal => simp
  | hexadecimal => simp
  | pointed => simp
  | exponential => simp
  | _ => exact absurd (of_decide_eq_true h) (hne _ rfl)

/-- Where a number starts, what a pattern matches does not depend on the rest behind it. -/
theorem scan_append_of_isDigit {c : Char} (hc : c.isDigit = true) (cs : List Char)
    {rest : List Char} (hrest : Stops isNumberChar rest) {p : Pattern} (hp : p ∈ all) :
    p.scan (c :: cs ++ rest) = p.scan (c :: cs) := by
  cases hopens : p.opens c with
  | false => rw [List.cons_append, scan_eq_zero hopens, scan_eq_zero hopens]
  | true =>
      have hnumeric := numeric_of_opens hc hp hopens
      simp only [List.mem_cons, List.not_mem_nil, or_false] at hnumeric
      rcases hnumeric with rfl | rfl | rfl | rfl
      · exact scan_decimal_append (c :: cs) hrest
      · exact scan_hexadecimal_append cs hrest
      · exact scan_pointed_append (c :: cs) hrest
      · exact scan_exponential_append (c :: cs) hrest

end Pattern

namespace Token

/-- Only decimal and hexadecimal numbers are integers. -/
theorem eq_decimal_or_hexadecimal_of_kindOf {p : Pattern} (hp : p ∈ Pattern.all)
    {cs : List Char} (h : p.kindOf cs = .intNumber) : p = .decimal ∨ p = .hexadecimal := by
  have hkeyword : ∀ k ∈ TokenKind.keywords, k.2 ≠ .intNumber := by decide
  cases p with
  | decimal => exact .inl rfl
  | hexadecimal => exact .inr rfl
  | word =>
      simp only [Pattern.kindOf] at h
      cases hfind : TokenKind.keywords.find? fun k => k.1.toList = cs with
      | none => rw [hfind] at h; exact absurd h (by decide)
      | some k =>
          rw [hfind] at h
          exact absurd h (hkeyword k (List.mem_of_find?_eq_some hfind))
  | mark spelling kind =>
      obtain ⟨m, hm, -, rfl⟩ := Pattern.exists_of_mark_mem_all hp
      exact absurd h (kind_marks m hm).2
  | _ => exact absurd h (by simp [Pattern.kindOf])

/-- An integer starts with a digit. -/
theorem IsSingle.exists_digit {text : String} (h : IsSingle .intNumber text) :
    ∃ c cs, text.toList = c :: cs ∧ c.isDigit = true := by
  obtain ⟨p, n, hl, hkind, -, -⟩ := h.exists_longest (by decide)
  have hpos := longest_pos hl
  obtain ⟨hp, hscan, -⟩ := longest_spec hl
  have hzero : Pattern.leadingDigits text.toList ≠ 0 := by
    intro hzero
    rcases eq_decimal_or_hexadecimal_of_kindOf hp hkind with rfl | rfl
    · rw [Pattern.scan_decimal_eq_zero hzero] at hscan
      omega
    · rw [Pattern.scan_hexadecimal_eq_zero hzero] at hscan
      omega
  cases htext : text.toList with
  | nil => rw [htext] at hzero; exact absurd rfl hzero
  | cons c cs =>
      refine ⟨c, cs, rfl, ?_⟩
      rw [htext, Pattern.leadingDigits] at hzero
      by_contra hc
      rw [if_neg hc] at hzero
      exact hzero rfl

/-- An integer in front of a rest that does not go on with it. -/
theorem IsSingle.pieces_integer {text : String} (h : IsSingle .intNumber text)
    {rest : List Char} (hrest : Pattern.Stops Pattern.isNumberChar rest) :
    pieces (text.toList ++ rest) = ⟨.intNumber, text⟩ :: pieces rest := by
  obtain ⟨c, cs, htext, hc⟩ := h.exists_digit
  obtain ⟨p, n, hl, hkind, hlen, hopen⟩ := h.exists_longest (by decide)
  obtain ⟨hp, hscan, -⟩ := longest_spec hl
  have hn : n = text.toList.length := by
    rcases eq_decimal_or_hexadecimal_of_kindOf hp hkind with rfl | rfl
    · have hle := Pattern.scan_decimal_le_length text.toList
      omega
    · have hle := Pattern.scan_hexadecimal_le_length text.toList
      omega
  have hlongest : longest (text.toList ++ rest) Pattern.all = some (p, n) := by
    rw [← hl, htext]
    exact longest_congr fun q hq => Pattern.scan_append_of_isDigit hc cs hrest hq
  have hopen' : opensComment (text.toList ++ rest) = false := by
    have hslash : c ≠ '/' := by
      rintro rfl
      exact absurd hc (by decide)
    rw [htext]
    simp [opensComment, hslash]
  have hnext : next (text.toList ++ rest) = (.intNumber, text.toList.length) := by
    rw [next_of_longest hopen' hlongest, hn, List.take_left' rfl, hkind]
  rw [pieces_append (by rw [htext]; simp) hnext, String.ofList_toList]
  rfl

end Token
end Bindery
