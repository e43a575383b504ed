import Bindery.Proofs.Token.Cover

/-!
# The parts of tokens

A number is put together from digits, an exponent and a suffix, a literal has a body between its
quotes. What is scanned as such a part is a text with a form of its own, and a text of the form is
scanned as a whole in front of every rest that does not go on with it. So the length of a match is
the sum of the lengths of the parts.

## Main definitions

* `Pattern.isWordOrTick`: the characters that words and numbers go on with, signs and points apart.
* `Pattern.Digits`, `Pattern.Exponent`, `Pattern.FloatSuffix`, `Pattern.RealTail`: the forms of the
  parts of numbers.
* `Pattern.QuotedBody`: the form of what stands between quotes.
-/
namespace Bindery

namespace Pattern

variable {c : Char} {cs rest : List Char}

/-! ## Runs -/

/-- A character that words and numbers go on with, signs and points of numbers apart. -/
def isWordOrTick (c : Char) : Bool := isWordChar c || c = '\''

theorem isWordOrTick_of_isWordChar (c : Char) (h : isWordChar c = true) :
    isWordOrTick c = true := by
  simp [isWordOrTick, h]

/-- A part of a number that holds no sign and no point goes on like a word, or with a tick. -/
theorem isWordOrTick_of_isNumberChar {p : Char → Bool} (h : ∀ c, p c = true → isNumberChar c = true)
    (hdot : p '.' = false) (hplus : p '+' = false) (hminus : p '-' = false) (c : Char)
    (hc : p c = true) : isWordOrTick c = true := by
  have hne {d : Char} (hd : p d = false) : c ≠ d := by
    rintro rfl
    rw [hd] at hc
    cases hc
  have hnumber := h c hc
  simpa [isNumberChar, isWordOrTick, hne hdot, hne hplus, hne hminus] using hnumber

theorem isWordOrTick_of_isDigitOrTick (c : Char) (h : isDigitOrTick c = true) :
    isWordOrTick c = true :=
  isWordOrTick_of_isNumberChar isNumberChar_of_isDigitOrTick rfl rfl rfl c h

theorem isWordOrTick_of_isHexOrTick (c : Char) (h : isHexOrTick c = true) :
    isWordOrTick c = true :=
  isWordOrTick_of_isNumberChar isNumberChar_of_isHexOrTick rfl rfl rfl c h

theorem isWordOrTick_of_isIntSuffix (c : Char) (h : isIntSuffix c = true) :
    isWordOrTick c = true :=
  isWordOrTick_of_isNumberChar isNumberChar_of_isIntSuffix rfl rfl rfl c h

theorem isWordOrTick_of_isFloatSuffix (c : Char) (h : isFloatSuffix c = true) :
    isWordOrTick c = true :=
  isWordOrTick_of_isNumberChar isNumberChar_of_isFloatSuffix rfl rfl rfl c h

theorem isIntSuffix_eq_false {c : Char} (h : isDigitOrTick c = true ∨ isHexOrTick c = true) :
    isIntSuffix c = false := by
  by_contra hsuffix
  simp only [Bool.not_eq_false, isIntSuffix, Bool.or_eq_true, decide_eq_true_eq] at hsuffix
  rcases hsuffix with ((((rfl | rfl) | rfl) | rfl) | rfl) | rfl <;>
    exact absurd h (by decide)

theorem isFloatSuffix_eq_false {c : Char} (h : isDigitOrTick c = true) :
    isFloatSuffix c = false := by
  by_contra hsuffix
  simp only [Bool.not_eq_false, isFloatSuffix, Bool.or_eq_true, decide_eq_true_eq] at hsuffix
  rcases hsuffix with ((rfl | rfl) | rfl) | rfl <;> cases h

theorem isDigitOrTick_of_isDigit (c : Char) (h : c.isDigit = true) : isDigitOrTick c = true := by
  simp [isDigitOrTick, h]

/-- Where a class does not go on, none of its characters stands. -/
theorem Stops.head_ne {p : Char → Bool} (h : Stops p rest) {d : Char} (hd : p d = true) :
    ∀ c ∈ rest.head?, c ≠ d := by
  rintro c hc rfl
  rw [h c hc] at hd
  cases hd

/-- Characters outside a class stand in front of a rest that does not go on with it. -/
theorem stops_append {p : Char → Bool} {l : List Char} (hl : ∀ c ∈ l, p c = false)
    (hrest : Stops p rest) : Stops p (l ++ rest) := by
  cases l with
  | nil => exact hrest
  | cons c l => exact stops_cons (hl c (.head _))

/-- Behind characters of a class, a rest that starts neither a word nor a tick goes on with no other
character of a word. -/
theorem stops_suffix {p : Char → Bool} {l : List Char} (hl : ∀ c ∈ l, p c = true)
    (hrest : Stops isWordOrTick rest) :
    Stops (fun c => isWordOrTick c && !p c) (l ++ rest) :=
  stops_append (fun c hc => by simp [hl c hc]) (hrest.mono fun c hc => by simp_all)

/-- A run that is as long as a text takes the text in front of a rest. -/
theorem run_append_of_all {p : Char → Bool} {l : List Char} (hl : ∀ c ∈ l, p c = true)
    (hrest : Stops p rest) : run p (l ++ rest) = l.length := by
  rw [run_append hrest, run, List.takeWhile_eq_self_iff.2 hl]

theorem take_run (p : Char → Bool) (cs : List Char) : cs.take (run p cs) = cs.takeWhile p :=
  (List.prefix_iff_eq_take.1 (List.takeWhile_prefix p)).symm

theorem mem_take_run {p : Char → Bool} (hc : c ∈ cs.take (run p cs)) : p c = true := by
  rw [take_run] at hc
  exact List.mem_takeWhile_imp hc

theorem stops_drop_run (p : Char → Bool) (cs : List Char) : Stops p (cs.drop (run p cs)) := by
  induction cs with
  | nil => exact stops_nil p
  | cons c cs ih =>
    rw [run] at ih ⊢
    cases hc : p c with
    | true => simpa [hc] using ih
    | false => simpa [hc] using stops_cons hc

/-- A text is cut where a class ends. -/
theorem exists_run (p : Char → Bool) (cs : List Char) :
    ∃ front behind, cs = front ++ behind ∧ (∀ c ∈ front, p c = true) ∧ Stops p behind :=
  ⟨cs.take (run p cs), cs.drop (run p cs), (List.take_append_drop _ cs).symm,
    fun _ hc => mem_take_run hc, stops_drop_run p cs⟩

/-! ## Parts of numbers -/

/-- Digits in front of a number. -/
structure Digits (l : List Char) : Prop where
  head : ∃ c ∈ l.head?, c.isDigit = true
  all : ∀ c ∈ l, isDigitOrTick c = true

theorem Digits.leadingDigits_append {l : List Char} (h : Digits l)
    (hrest : Stops isDigitOrTick rest) : leadingDigits (l ++ rest) = l.length := by
  obtain ⟨c, hc, hdigit⟩ := h.head
  cases l with
  | nil => simp at hc
  | cons d ds =>
    obtain rfl : d = c := by simpa using hc
    have hrun := run_append_of_all (fun e he => h.all e (.tail d he)) hrest
    rw [List.cons_append, leadingDigits, if_pos hdigit, hrun, List.length_cons, Nat.add_comm]

theorem digits_take (h : leadingDigits cs ≠ 0) : Digits (cs.take (leadingDigits cs)) := by
  cases cs with
  | nil => exact absurd rfl h
  | cons c cs =>
    rw [leadingDigits] at h ⊢
    by_cases hc : c.isDigit = true
    · rw [if_pos hc, Nat.add_comm, List.take_succ_cons]
      refine ⟨⟨c, rfl, hc⟩, List.forall_mem_cons.2 ⟨isDigitOrTick_of_isDigit c hc, ?_⟩⟩
      exact fun d hd => mem_take_run hd
    · rw [if_neg hc] at h
      exact absurd rfl h

/-- An exponent with its letter, its sign and its digits. -/
structure Exponent (l : List Char) : Prop where
  parts : ∃ e sign ds, l = e :: (sign ++ ds) ∧ (e = 'e' ∨ e = 'E') ∧
    (sign = [] ∨ sign = ['+'] ∨ sign = ['-']) ∧ ds ≠ [] ∧ ∀ c ∈ ds, c.isDigit = true

theorem Exponent.exponent_append {l : List Char} (h : Exponent l)
    (hrest : Stops Char.isDigit rest) : exponent (l ++ rest) = l.length := by
  obtain ⟨e, sign, ds, rfl, he, hsign, hds, hall⟩ := h
  have hrun := run_append_of_all hall hrest
  have hpos : ds.length ≠ 0 := by simpa using hds
  have hletter : (e = 'e' ∨ e = 'E') ↔ True := by simp [he]
  rcases hsign with rfl | rfl | rfl
  · obtain ⟨d, ds, rfl⟩ := List.exists_cons_of_ne_nil hds
    have hd : d.isDigit = true := hall d (by simp)
    have hne (c : Char) (hc : c.isDigit = false) : d ≠ c := by
      rintro rfl
      rw [hd] at hc
      cases hc
    simp only [List.nil_append, List.cons_append, exponent] at hrun ⊢
    simp [hletter, hne '+' rfl, hne '-' rfl, hrun]
    omega
  · simp only [List.cons_append, List.nil_append, exponent]
    simp [hletter, hrun, hpos]
    omega
  · simp only [List.cons_append, List.nil_append, exponent]
    simp [hletter, hrun, hpos]
    omega

theorem exponent_take (h : exponent cs ≠ 0) : Exponent (cs.take (exponent cs)) := by
  match cs with
  | [] | [_] => exact absurd rfl h
  | e :: sign :: cs =>
    have hdigits {l : List Char} (hrun : run Char.isDigit l ≠ 0) :
        l.take (run Char.isDigit l) ≠ [] := by
      intro hnil
      have hlen := congrArg List.length hnil
      rw [take_run] at hlen
      exact hrun hlen
    simp only [exponent, Bool.or_eq_true, decide_eq_true_eq] at h ⊢
    by_cases he : e = 'e' ∨ e = 'E'
    · by_cases hsign : sign = '+' ∨ sign = '-'
      · by_cases hrun : run Char.isDigit cs = 0
        · simp [he, hsign, hrun] at h
        · simp only [if_pos he, if_pos hsign, if_neg hrun]
          refine ⟨e, [sign], cs.take (run Char.isDigit cs), ?_, he, ?_, hdigits hrun, ?_⟩
          · rw [Nat.add_comm, List.take_succ_cons, List.take_succ_cons]
            rfl
          · rcases hsign with rfl | rfl <;> simp
          · exact fun d hd => mem_take_run hd
      · by_cases hrun : run Char.isDigit (sign :: cs) = 0
        · simp [he, hsign, hrun] at h
        · simp only [if_pos he, if_neg hsign, if_neg hrun]
          refine ⟨e, [], (sign :: cs).take (run Char.isDigit (sign :: cs)), ?_, he, .inl rfl,
            hdigits hrun, fun d hd => mem_take_run hd⟩
          rw [Nat.add_comm, List.take_succ_cons]
          rfl
    · simp [he] at h

theorem exponent_eq_zero (h : ∀ c ∈ cs.head?, c ≠ 'e' ∧ c ≠ 'E') : exponent cs = 0 := by
  match cs with
  | [] | [_] => rfl
  | e :: sign :: cs =>
    obtain ⟨he, hE⟩ := h e (by simp)
    simp [exponent, he, hE]

/-- An optional suffix letter. -/
structure FloatSuffix (l : List Char) : Prop where
  short : l.length ≤ 1
  all : ∀ c ∈ l, isFloatSuffix c = true

theorem FloatSuffix.floatSuffix_append {l : List Char} (h : FloatSuffix l)
    (hrest : Stops isFloatSuffix rest) : floatSuffix (l ++ rest) = l.length := by
  match l, h with
  | [], _ =>
    cases rest with
    | nil => rfl
    | cons r rs => simp [floatSuffix, hrest r (by simp)]
  | [c], h => simp [floatSuffix, h.all c (by simp)]
  | _ :: _ :: _, h => exact absurd h.short (by simp)

theorem floatSuffix_take (cs : List Char) : FloatSuffix (cs.take (floatSuffix cs)) := by
  cases cs with
  | nil => exact ⟨by simp, by simp⟩
  | cons c cs =>
    rw [floatSuffix]
    split
    · rename_i hc
      exact ⟨by simp, by simpa using hc⟩
    · exact ⟨by simp, by simp⟩

/-- What may stand behind the digits of a number with a point: an exponent and a suffix. -/
def realTail (cs : List Char) : ℕ := andThen (exponent cs) floatSuffix cs

/-- An optional exponent and an optional suffix. -/
structure RealTail (l : List Char) : Prop where
  parts : ∃ e s, l = e ++ s ∧ (e = [] ∨ Exponent e) ∧ FloatSuffix s

theorem andThen_length_append (l : List Char) (piece : List Char → ℕ) (cs : List Char) :
    andThen l.length piece (l ++ cs) = l.length + piece cs := by
  rw [andThen, List.drop_left' rfl]

theorem RealTail.realTail_append {l : List Char} (h : RealTail l)
    (hrest : Stops isWordOrTick rest) : realTail (l ++ rest) = l.length := by
  obtain ⟨e, s, rfl, he, hs⟩ := h
  have hbehind := stops_suffix hs.all hrest
  have hdigit : Stops Char.isDigit (s ++ rest) := hbehind.mono fun c hc => by
    have htick := isDigitOrTick_of_isDigit c hc
    simp [isWordOrTick_of_isDigitOrTick c htick, isFloatSuffix_eq_false htick]
  have hexponent : exponent (e ++ (s ++ rest)) = e.length := by
    rcases he with rfl | he
    · exact exponent_eq_zero fun c hc => ⟨hbehind.head_ne rfl c hc, hbehind.head_ne rfl c hc⟩
    · exact he.exponent_append hdigit
  rw [realTail, List.append_assoc, hexponent, andThen_length_append,
    hs.floatSuffix_append (hrest.mono isWordOrTick_of_isFloatSuffix), List.length_append]

/-- No digit stands behind the digits in front of an exponent or a suffix. -/
theorem RealTail.stops {l : List Char} (h : RealTail l) (hrest : Stops isWordOrTick rest) :
    Stops isDigitOrTick (l ++ rest) := by
  obtain ⟨e, s, rfl, rfl | he, hs⟩ := h
  · refine (stops_suffix hs.all hrest).mono fun c hc => ?_
    simp [isWordOrTick_of_isDigitOrTick c hc, isFloatSuffix_eq_false hc]
  · obtain ⟨e, sign, ds, rfl, rfl | rfl, -⟩ := he
    · exact stops_cons rfl
    · exact stops_cons rfl

theorem realTail_take (cs : List Char) : RealTail (cs.take (realTail cs)) := by
  refine ⟨cs.take (exponent cs), (cs.drop (exponent cs)).take (floatSuffix (cs.drop (exponent cs))),
    ?_, ?_, floatSuffix_take _⟩
  · rw [realTail, andThen, List.take_add]
  · by_cases h : exponent cs = 0
    · exact .inl (by rw [h, List.take_zero])
    · exact .inr (exponent_take h)

/-! ## Numbers that start with digits -/

/-- A text that starts with a digit is cut behind its leading digits. -/
theorem exists_digits (h : leadingDigits cs ≠ 0) :
    ∃ ds rest, cs = ds ++ rest ∧ Digits ds ∧ Stops isDigitOrTick rest := by
  refine ⟨cs.take (leadingDigits cs), cs.drop (leadingDigits cs),
    (List.take_append_drop _ cs).symm, digits_take h, ?_⟩
  cases cs with
  | nil => exact absurd rfl h
  | cons c cs =>
    rw [leadingDigits] at h ⊢
    by_cases hc : c.isDigit = true
    · rw [if_pos hc, Nat.add_comm, List.drop_succ_cons]
      exact stops_drop_run isDigitOrTick cs
    · rw [if_neg hc] at h
      exact absurd rfl h

theorem Digits.length_ne {ds : List Char} (hds : Digits ds) : ds.length ≠ 0 := by
  obtain ⟨c, hc, -⟩ := hds.head
  cases ds with
  | nil => simp at hc
  | cons d ds => simp

theorem scan_hexadecimal_of_head (h : ∀ x ∈ cs.head?, x ≠ 'x' ∧ x ≠ 'X') :
    hexadecimal.scan (c :: cs) = 0 := by
  by_cases hc : c = '0'
  · subst hc
    cases cs with
    | nil => rfl
    | cons x cs => simp [scan, h x (by simp)]
  · simp [scan, hc]

section Digits

variable {ds : List Char} (hds : Digits ds) (hrest : Stops isDigitOrTick rest)
include hds hrest

theorem Digits.scan_decimal : decimal.scan (ds ++ rest) = ds.length + run isIntSuffix rest := by
  simp only [scan, hds.leadingDigits_append hrest, if_neg hds.length_ne, andThen_length_append]

theorem Digits.scan_decimal_of_stops (hsuffix : Stops isIntSuffix rest) :
    decimal.scan (ds ++ rest) = ds.length := by
  rw [hds.scan_decimal hrest, run_eq_zero hsuffix, Nat.add_zero]

theorem Digits.scan_pointed_eq_zero (hpoint : rest.head? ≠ some '.') :
    pointed.scan (ds ++ rest) = 0 := by
  simp only [scan, hds.leadingDigits_append hrest, List.drop_left' rfl]
  simp [hpoint]

theorem Digits.scan_exponential :
    exponential.scan (ds ++ rest) =
      if exponent rest = 0 then 0 else ds.length + realTail rest := by
  simp only [scan, hds.leadingDigits_append hrest, List.drop_left' rfl, hds.length_ne,
    decide_false, Bool.false_or, decide_eq_true_eq, realTail, andThen, ← List.drop_drop]
  split <;> omega

theorem Digits.scan_exponential_eq_zero (he : ∀ c ∈ rest.head?, c ≠ 'e' ∧ c ≠ 'E') :
    exponential.scan (ds ++ rest) = 0 := by
  rw [hds.scan_exponential hrest, if_pos (exponent_eq_zero he)]

theorem Digits.scan_fraction : fraction.scan ('.' :: (ds ++ rest)) =
    1 + (ds.length + realTail rest) := by
  simp only [scan, hds.leadingDigits_append hrest, if_neg hds.length_ne, andThen_length_append]
  simp only [andThen, realTail, List.drop_left' rfl, ← List.drop_drop]
  omega

end Digits

theorem Digits.scan_hexadecimal {ds : List Char} (hds : Digits ds)
    (hx : ∀ c ∈ rest.head?, c ≠ 'x' ∧ c ≠ 'X') : hexadecimal.scan (ds ++ rest) = 0 := by
  cases ds with
  | nil => exact absurd rfl hds.length_ne
  | cons d ds =>
    refine scan_hexadecimal_of_head fun c hc => ?_
    cases ds with
    | nil => exact hx c hc
    | cons e ds =>
      obtain rfl : e = c := by simpa using hc
      have he := hds.all e (.tail d (.head ds))
      constructor
      · rintro rfl
        cases he
      · rintro rfl
        cases he

theorem Digits.scan_pointed {ds : List Char} (hds : Digits ds) (cs : List Char) :
    pointed.scan (ds ++ '.' :: cs) =
      ds.length + (1 + (run isDigitOrTick cs + realTail (cs.drop (run isDigitOrTick cs)))) := by
  have hstops : Stops isDigitOrTick ('.' :: cs) := stops_cons rfl
  have hdrop (n : ℕ) : (ds ++ '.' :: cs).drop (ds.length + (1 + n)) = cs.drop n := by
    rw [← List.drop_drop, List.drop_left' rfl, Nat.add_comm, List.drop_succ_cons]
  have hrun : (ds ++ '.' :: cs).drop (ds.length + 1) = cs := hdrop 0
  simp only [scan, hds.leadingDigits_append hstops, List.drop_left' rfl, hds.length_ne, andThen,
    hrun, Nat.add_assoc, hdrop, realTail, List.head?_cons, List.drop_drop]
  simp

/-! ## Literals -/

/-- What may stand between quotes: a backslash takes the next character along. -/
inductive QuotedBody (quote : Char) : List Char → Prop
  | nil : QuotedBody quote []
  | escape {c : Char} {cs : List Char} (hc : c ≠ '\n') (hcs : QuotedBody quote cs) :
      QuotedBody quote ('\\' :: c :: cs)
  | plain {c : Char} {cs : List Char} (hquote : c ≠ quote) (hline : c ≠ '\n') (hslash : c ≠ '\\')
      (hcs : QuotedBody quote cs) : QuotedBody quote (c :: cs)

/-- What stands between quotes ends at the quote, whatever is behind it. -/
theorem QuotedBody.quotedBody_append {quote : Char} {l : List Char} (h : QuotedBody quote l)
    (hquote : quote ≠ '\\') (rest : List Char) :
    quotedBody quote (l ++ quote :: rest) = l.length := by
  induction h with
  | nil => simp [quotedBody, hquote]
  | escape hc _ ih =>
    simp only [List.cons_append, quotedBody, if_neg hc, ih, List.length_cons]
    omega
  | plain hne hline hslash _ ih => simp [quotedBody, hne, hline, hslash, ih, Nat.add_comm]

theorem quotedBody_take (quote : Char) (cs : List Char) :
    QuotedBody quote (cs.take (quotedBody quote cs)) := by
  fun_induction quotedBody quote cs with
  | case1 => exact .nil
  | case2 => exact .nil
  | case3 c cs hc ih =>
    rw [Nat.add_comm, List.take_succ_cons, List.take_succ_cons]
    exact .escape hc ih
  | case4 => exact .nil
  | case5 c cs _ hc ih =>
    simp only [Bool.or_eq_true, decide_eq_true_eq, not_or] at hc
    rw [Nat.add_comm, List.take_succ_cons]
    exact .plain hc.1.1 hc.1.2 hc.2 ih

/-- A literal is matched to its closing quote, whatever is behind it. -/
theorem QuotedBody.quoted_append {quote : Char} {l : List Char} (h : QuotedBody quote l)
    (hquote : quote ≠ '\\') {least : ℕ} (hleast : least ≤ l.length) (rest : List Char) :
    quoted quote least (quote :: (l ++ quote :: rest)) = l.length + 2 := by
  simp [quoted, h.quotedBody_append hquote, hleast]

/-- A match of a literal has a body between its quotes. -/
theorem quoted_take {quote : Char} {least : ℕ} (h : quoted quote least cs ≠ 0) :
    ∃ l, cs.take (quoted quote least cs) = quote :: (l ++ [quote]) ∧ QuotedBody quote l ∧
      least ≤ l.length := by
  cases cs with
  | nil => exact absurd rfl h
  | cons c cs =>
    simp only [quoted, Bool.and_eq_true, decide_eq_true_eq] at h ⊢
    by_cases hc : c = quote
    · by_cases hclosed : least ≤ quotedBody quote cs ∧
        (cs.drop (quotedBody quote cs)).head? = some quote
      · rw [if_pos hc, if_pos hclosed, List.take_succ_cons, List.take_add, hc]
        refine ⟨cs.take (quotedBody quote cs), ?_, quotedBody_take quote cs, ?_⟩
        · rw [List.take_one, hclosed.2, Option.toList_some]
        · rw [List.length_take_of_le (quotedBody_le_length quote cs)]
          exact hclosed.1
      · rw [if_pos hc, if_neg hclosed] at h
        exact absurd rfl h
    · rw [if_neg hc] at h
      exact absurd rfl h

end Pattern
end Bindery
