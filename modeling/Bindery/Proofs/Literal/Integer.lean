import Bindery.Literal
import Bindery.Preprocess.Condition
import Bindery.Proofs.Numeral
import Bindery.Proofs.Token.Fusion
import Mathlib.Data.Nat.Digits.Lemmas

/-!
# What integer literals are read as

An integer literal is read in three places: as a template argument, in a condition, and as the
default of a member. All three read hexadecimal digits in base sixteen and all others in base ten,
so that a leading zero does not count. They differ in what they pass over: separators between the
digits are passed over in template arguments and in conditions, and the suffix letter for the type
of sizes in template arguments only.

A number is the value of its digits by their places. Digits that start with a zero denote a number
of base eight, and are read as it only if at most the last of them counts.

## Main definitions

* `Numeral.positional?`: the number that digits stand for by their places.
* `Numeral.denoted?`: the number that an integer literal denotes.
* `Numeral.ReadAs`: the three readers give a number, or nothing.

## Main statements

* `Numeral.digits?_eq_positional?`: the reader of digits goes by their places.
* `Numeral.positional?_eight_iff`: when digits are the same number in base eight and in base ten.
* `Numeral.readAs_denoted_iff`: what the readers make of an integer literal.
-/
namespace Bindery

open Pattern

namespace Numeral

/-! ## Digits by their places -/

variable {p q : Char → Bool} {base n : ℕ} {c : Char} {cs ds suffix : List Char}

/-- The value of a digit of a base. -/
def digitIn? (base : ℕ) (c : Char) : Option ℕ := (digitValue? c).filter (· < base)

/-- The number that digits stand for by their places, the place of the units last. -/
def positional? (base : ℕ) (cs : List Char) : Option ℕ :=
  if cs = [] then none else (cs.mapM (digitIn? base)).map fun ds => Nat.ofDigits base ds.reverse

theorem digitsFrom?_cons (base value : ℕ) (c : Char) (cs : List Char) :
    digitsFrom? base value (c :: cs) =
      (digitIn? base c).bind fun d => digitsFrom? base (value * base + d) cs := by
  rw [digitsFrom?, digitIn?]
  cases digitValue? c with
  | none => rfl
  | some d => by_cases hd : d < base <;> simp [Option.filter, hd]

theorem digitsFrom?_eq (base value : ℕ) (cs : List Char) : digitsFrom? base value cs =
    (cs.mapM (digitIn? base)).map fun ds =>
      value * base ^ ds.length + Nat.ofDigits base ds.reverse := by
  induction cs generalizing value with
  | nil => simp [digitsFrom?]
  | cons c cs ih =>
    rw [digitsFrom?_cons, List.mapM_cons]
    cases digitIn? base c with
    | none => rfl
    | some d =>
      rw [Option.bind_some, ih]
      cases cs.mapM (digitIn? base) with
      | none => rfl
      | some ds =>
        simp only [Option.map_some, Option.bind_eq_bind, Option.bind_some, Option.pure_def,
          Option.some_inj, List.length_cons, List.reverse_cons, Nat.ofDigits_append,
          Nat.ofDigits_singleton, List.length_reverse]
        ring

/-- Digits are read by their places. -/
theorem digits?_eq_positional? (base : ℕ) (cs : List Char) :
    digits? base cs = positional? base cs := by
  rw [digits?, positional?, digitsFrom?_eq]
  simp

/-- A character that is no digit is not passed over. -/
theorem positional?_eq_none (hc : c ∈ cs) (hdigit : digitIn? base c = none) :
    positional? base cs = none := by
  have hmap : cs.mapM (digitIn? base) = none := by
    induction cs with
    | nil => cases hc
    | cons d cs ih =>
      rw [List.mapM_cons]
      rcases List.mem_cons.1 hc with rfl | hc
      · rw [hdigit]; rfl
      · rw [ih hc]; cases digitIn? base d <;> rfl
  simp [positional?, hmap]

/-- Without a sign, digits are read as their number if that fits. -/
theorem read?_of_unsigned (h : ∀ c ∈ cs.head?, c ≠ '-' ∧ c ≠ '+') :
    read? base cs = (positional? base cs).bind fun n => fit? n := by
  rw [← digits?_eq_positional?, read?.eq_def]
  split
  · exact absurd rfl (h '-' rfl).1
  · exact absurd rfl (h '+' rfl).2
  · rfl

/-! ## What is dropped -/

theorem dropSuffix_congr (h : ∀ c ∈ cs, p c = q c) : dropSuffix p cs = dropSuffix q cs := by
  have hdrop : ∀ l : List Char, (∀ c ∈ l, p c = q c) → l.dropWhile p = l.dropWhile q := by
    intro l hl
    induction l with
    | nil => rfl
    | cons c l ih =>
      obtain ⟨hc, hl⟩ := List.forall_mem_cons.1 hl
      rw [List.dropWhile_cons, List.dropWhile_cons, hc, ih hl]
  rw [dropSuffix, dropSuffix, hdrop _ fun c hc => h c (List.mem_reverse.1 hc)]

theorem mem_of_mem_dropSuffix (hc : c ∈ dropSuffix p cs) : c ∈ cs :=
  List.mem_reverse.1 ((List.dropWhile_sublist _).subset (List.mem_reverse.1 hc))

theorem mem_dropSuffix (hc : c ∈ cs) (h : p c = false) : c ∈ dropSuffix p cs := by
  rw [dropSuffix, List.mem_reverse]
  have hmem : c ∈ cs.reverse.takeWhile p ++ cs.reverse.dropWhile p := by
    rw [List.takeWhile_append_dropWhile]
    exact List.mem_reverse.2 hc
  refine (List.mem_append.1 hmem).resolve_left fun hfront => ?_
  rw [List.mem_takeWhile_imp hfront] at h
  cases h

theorem dropSuffix_cons (h : p c = false) (cs : List Char) :
    dropSuffix p (c :: cs) = c :: dropSuffix p cs := by
  rw [dropSuffix, dropSuffix, List.reverse_cons, List.dropWhile_append]
  by_cases hempty : (cs.reverse.dropWhile p).isEmpty = true
  · rw [if_pos hempty, List.isEmpty_iff.1 hempty]
    simp [h]
  · rw [if_neg hempty]
    simp

/-! ## What integer literals denote -/

/-- An integer literal without its separators and suffix letters. -/
def significant (cs : List Char) : List Char := cs.filter fun c => c ≠ '\'' && !isIntSuffix c

/-- The number of an integer literal where digits that start with a zero are of base `zeroBase`. -/
def valueBy? (zeroBase : ℕ) (cs : List Char) : Option ℕ :=
  match significant cs with
  | '0' :: 'x' :: ds | '0' :: 'X' :: ds => positional? 16 ds
  | '0' :: ds => positional? zeroBase ('0' :: ds)
  | ds => positional? 10 ds

/-- The number that an integer literal denotes: digits that start with a zero are octal. -/
def denoted? (cs : List Char) : Option ℕ := valueBy? 8 cs

/-- The digits of an integer literal start with a zero and are not hexadecimal. -/
def isOctal (cs : List Char) : Bool :=
  match significant cs with
  | '0' :: 'x' :: _ | '0' :: 'X' :: _ => false
  | '0' :: _ => true
  | _ => false

/-- The number if it fits into 64 bits. -/
def inRange? (n? : Option ℕ) : Option Int := n?.bind fun n => fit? n

theorem valueBy?_of_hex {x : Char} (h : significant cs = '0' :: x :: ds) (hx : x = 'x' ∨ x = 'X')
    (a : ℕ) : valueBy? a cs = positional? 16 ds := by
  rw [valueBy?, h]
  rcases hx with rfl | rfl <;> rfl

theorem valueBy?_ten_of_ne (hx : ∀ ds, significant cs ≠ '0' :: 'x' :: ds)
    (hX : ∀ ds, significant cs ≠ '0' :: 'X' :: ds) :
    valueBy? 10 cs = positional? 10 (significant cs) := by
  rw [valueBy?]
  split
  · next heq => exact absurd heq (hx _)
  · next heq => exact absurd heq (hX _)
  · next heq => rw [heq]
  · rfl

theorem valueBy?_of_not_octal (h : isOctal cs = false) (a b : ℕ) :
    valueBy? a cs = valueBy? b cs := by
  rw [isOctal] at h
  rw [valueBy?, valueBy?]
  split <;> simp_all

theorem valueBy?_of_octal (h : isOctal cs = true) (a : ℕ) :
    valueBy? a cs = positional? a (significant cs) := by
  rw [isOctal] at h
  rw [valueBy?]
  split <;> simp_all

theorem mapM_digitIn?_eq_some {ds : List ℕ} : cs.mapM (digitIn? base) = some ds ↔
    cs.mapM digitValue? = some ds ∧ ∀ d ∈ ds, d < base := by
  induction cs generalizing ds with
  | nil => cases ds <;> simp
  | cons c cs ih =>
    have hdigit (d : ℕ) : digitIn? base c = some d ↔ digitValue? c = some d ∧ d < base := by
      simp [digitIn?, Option.filter_eq_some_iff]
    simp only [List.mapM_cons, Option.bind_eq_bind, Option.bind_eq_some_iff, Option.pure_def,
      Option.some_inj, hdigit, ih]
    constructor
    · rintro ⟨d, ⟨hd, hlt⟩, ds, ⟨hds, hall⟩, rfl⟩
      exact ⟨⟨d, hd, ds, hds, rfl⟩, List.forall_mem_cons.2 ⟨hlt, hall⟩⟩
    · rintro ⟨⟨d, hd, ds, hds, rfl⟩, hall⟩
      obtain ⟨hlt, hall⟩ := List.forall_mem_cons.1 hall
      exact ⟨d, ⟨hd, hlt⟩, ds, ⟨hds, hall⟩, rfl⟩

theorem positional?_eq_some : positional? base cs = some n ↔
    cs ≠ [] ∧ ∃ ds, cs.mapM digitValue? = some ds ∧ (∀ d ∈ ds, d < base) ∧
      Nat.ofDigits base ds.reverse = n := by
  rw [positional?]
  by_cases hne : cs = []
  · simp [hne]
  · simp [hne, mapM_digitIn?_eq_some, and_assoc]

/-- Digits are the same number in base eight and in base ten just if only the last counts. -/
theorem positional?_eight_iff (h : positional? 10 cs = some n) :
    positional? 8 cs = some n ↔ n < 8 := by
  obtain ⟨hne, ds, hds, -, rfl⟩ := positional?_eq_some.1 h
  have hlength : ds.reverse ≠ [] := by
    rintro hnil
    cases cs with
    | nil => exact hne rfl
    | cons c cs =>
      obtain rfl : ds = [] := by simpa using hnil
      simp [Option.bind_eq_some_iff] at hds
  have hiff : positional? 8 cs = some (Nat.ofDigits 10 ds.reverse) ↔
      (∀ d ∈ ds.reverse, d < 8) ∧ Nat.ofDigits 8 ds.reverse = Nat.ofDigits 10 ds.reverse := by
    simp [positional?_eq_some, hds, hne]
  rw [hiff]
  obtain ⟨d, rest, hrest⟩ := List.exists_cons_of_ne_nil hlength
  rw [hrest, Nat.ofDigits_cons, Nat.ofDigits_cons]
  have hmono : Nat.ofDigits 8 rest ≤ Nat.ofDigits 10 rest := Nat.ofDigits_monotone rest (by decide)
  constructor
  · rintro ⟨hall, heq⟩
    have hd : d < 8 := hall d (.head _)
    omega
  · intro hlt
    have hzero : Nat.ofDigits 10 rest = 0 := by omega
    refine ⟨List.forall_mem_cons.2 ⟨by omega, fun e he => ?_⟩, by omega⟩
    rw [Nat.digits_zero_of_eq_zero (by decide) hzero e he]
    decide

/-- An integer that digits of base ten and a range leave is the one that is denoted, unless the
digits are octal and more than the last one counts. -/
theorem inRange?_denoted?_iff {m : Int} (h : inRange? (valueBy? 10 cs) = some m) :
    inRange? (denoted? cs) = some m ↔ (isOctal cs = true → m < 8) := by
  obtain ⟨n, hn, hfit⟩ := Option.bind_eq_some_iff.1 h
  obtain ⟨rfl, -⟩ := fit?_eq_some hfit
  cases hoctal : isOctal cs with
  | false => simpa [denoted?, valueBy?_of_not_octal hoctal 8 10] using h
  | true =>
    rw [valueBy?_of_octal hoctal] at hn
    rw [denoted?, valueBy?_of_octal hoctal]
    have hvalue : inRange? (positional? 8 (significant cs)) = some (n : Int) ↔
        positional? 8 (significant cs) = some n := by
      constructor
      · intro hrange
        obtain ⟨k, hk, hfit⟩ := Option.bind_eq_some_iff.1 hrange
        rw [hk, Int.ofNat_inj.1 (fit?_eq_some hfit).1]
      · intro hk
        rw [hk]
        exact hfit
    rw [hvalue, positional?_eight_iff hn]
    simp

/-! ## Integer tokens -/

/-- The text of an integer token. -/
def IsInteger (w : List Char) : Prop := decimal.Shape w ∨ hexadecimal.Shape w

theorem IsInteger.of_scanned {text : String} (h : (⟨.intNumber, text⟩ : Piece).Scanned) :
    IsInteger text.toList := by
  obtain ⟨q, hmem, hkind, hshape, -⟩ := h.exists_taken
  rcases Token.eq_decimal_or_hexadecimal_of_kindOf hmem hkind with rfl | rfl
  · exact .inl hshape
  · exact .inr hshape

namespace IsInteger

variable {w : List Char}

theorem exists_body (h : IsInteger w) : ∃ body suffix, w = body ++ suffix ∧
    (∀ c ∈ body, isIntSuffix c = false) ∧ ∀ c ∈ suffix, isIntSuffix c = true := by
  rcases h with h | h
  · cases h with
    | @decimal ds suffix hds hsuffix =>
      exact ⟨ds, suffix, rfl, fun c hc => isIntSuffix_eq_false (.inl (hds.all c hc)), hsuffix⟩
  · cases h with
    | @hexadecimal x hs suffix hx hne hhs hsuffix =>
      refine ⟨'0' :: x :: hs, suffix, rfl, ?_, hsuffix⟩
      refine List.forall_mem_cons.2 ⟨rfl, List.forall_mem_cons.2 ⟨?_, fun c hc => ?_⟩⟩
      · rcases hx with rfl | rfl <;> rfl
      · exact isIntSuffix_eq_false (.inr (hhs c hc))

theorem all_isWordOrTick (h : IsInteger w) : ∀ c ∈ w, isWordOrTick c = true := by
  rcases h with h | h
  · cases h with
    | @decimal ds suffix hds hsuffix =>
      refine List.forall_mem_append.2 ⟨fun c hc => ?_, fun c hc => ?_⟩
      · exact isWordOrTick_of_isDigitOrTick c (hds.all c hc)
      · exact isWordOrTick_of_isIntSuffix c (hsuffix c hc)
  · cases h with
    | @hexadecimal x hs suffix hx hne hhs hsuffix =>
      refine List.forall_mem_cons.2 ⟨rfl, List.forall_mem_cons.2 ⟨?_, ?_⟩⟩
      · rcases hx with rfl | rfl <;> rfl
      · refine List.forall_mem_append.2 ⟨fun c hc => ?_, fun c hc => ?_⟩
        · exact isWordOrTick_of_isHexOrTick c (hhs c hc)
        · exact isWordOrTick_of_isIntSuffix c (hsuffix c hc)

theorem exists_digit (h : IsInteger w) : ∃ c cs, w = c :: cs ∧ c.isDigit = true := by
  rcases h with h | h
  · cases h with
    | @decimal ds suffix hds hsuffix =>
      obtain ⟨c, hc, hdigit⟩ := hds.head
      obtain ⟨ds, rfl⟩ := List.head?_eq_some_iff.1 hc
      exact ⟨c, ds ++ suffix, rfl, hdigit⟩
  · cases h with
    | hexadecimal => exact ⟨'0', _, rfl, rfl⟩

theorem unsigned (h : IsInteger w) : ∀ c ∈ w, c ≠ '-' ∧ c ≠ '+' := by
  intro c hc
  have hword := h.all_isWordOrTick c hc
  constructor <;>
    · rintro rfl
      cases hword

theorem significant_eq (h : IsInteger w) :
    significant w = (dropSuffix isIntSuffix w).filter (· ≠ '\'') := by
  obtain ⟨body, suffix, rfl, hbody, hsuffix⟩ := h.exists_body
  have hnone : significant suffix = [] := by
    rw [significant, List.filter_eq_nil_iff]
    intro c hc
    simp [hsuffix c hc]
  have hall : significant body = body.filter (· ≠ '\'') := by
    refine List.filter_congr fun c hc => ?_
    simp [hbody c hc]
  rw [dropSuffix_append hbody hsuffix, ← hall]
  rw [significant] at hnone ⊢
  rw [List.filter_append, hnone, List.append_nil, significant]

theorem significant_unsigned (h : IsInteger w) : ∀ c ∈ significant w, c ≠ '-' ∧ c ≠ '+' :=
  fun c hc => h.unsigned c (List.mem_filter.1 hc).1

/-- Without suffix letters, an integer is read as a number of base sixteen or ten. -/
theorem magnitude?_eq (h : IsInteger w) :
    magnitude? (dropSuffix isIntSuffix w) = inRange? (valueBy? 10 w) := by
  have hread (base : ℕ) {ds : List Char} (hsub : ∀ c ∈ ds, c ∈ significant w) :
      read? base ds = inRange? (positional? base ds) :=
    read?_of_unsigned fun c hc => h.significant_unsigned c (hsub c (List.mem_of_mem_head? hc))
  rw [magnitude?, ← h.significant_eq]
  split
  · next heq =>
    rw [valueBy?_of_hex heq (.inl rfl)]
    exact hread 16 fun c hc => heq ▸ .tail _ (.tail _ hc)
  · next heq =>
    rw [valueBy?_of_hex heq (.inr rfl)]
    exact hread 16 fun c hc => heq ▸ .tail _ (.tail _ hc)
  · next hx hX =>
    rw [valueBy?_ten_of_ne (fun ds heq => hx ds heq) fun ds heq => hX ds heq]
    exact hread 10 fun c hc => hc

end IsInteger

/-! ## The three readers -/

theorem digitIn?_eq_none (h : digitValue? c = none) (base : ℕ) : digitIn? base c = none := by
  rw [digitIn?, h]
  rfl

/-- A character that is neither a digit nor a separator is not passed over. -/
theorem magnitude?_eq_none (hc : c ∈ cs) (hdigit : digitValue? c = none) (htick : c ≠ '\'')
    (hx : c ≠ 'x' ∧ c ≠ 'X') (hsigns : ∀ c ∈ cs, c ≠ '-' ∧ c ≠ '+') : magnitude? cs = none := by
  have hmem : c ∈ cs.filter (· ≠ '\'') := List.mem_filter.2 ⟨hc, by simpa using htick⟩
  have hsigns : ∀ d ∈ cs.filter (· ≠ '\''), d ≠ '-' ∧ d ≠ '+' :=
    fun d hd => hsigns d (List.mem_filter.1 hd).1
  rw [magnitude?]
  generalize cs.filter (· ≠ '\'') = ds at hmem hsigns
  have hread (base : ℕ) {ds' : List Char} (hsub : ∀ d ∈ ds', d ∈ ds) (hc' : c ∈ ds') :
      read? base ds' = none := by
    rw [read?_of_unsigned fun d hd => hsigns d (hsub d (List.mem_of_mem_head? hd)),
      positional?_eq_none hc' (digitIn?_eq_none hdigit base), Option.bind_none]
  have hzero : c ≠ '0' := by
    rintro rfl
    cases hdigit
  split
  · refine hread 16 (fun d hd => .tail _ (.tail _ hd)) ?_
    simpa [hzero, hx.1] using hmem
  · refine hread 16 (fun d hd => .tail _ (.tail _ hd)) ?_
    simpa [hzero, hx.2] using hmem
  · exact hread 10 (fun d hd => hd) hmem

/-- The literal has a suffix letter for the type of sizes. -/
def HasSizeSuffix (cs : List Char) : Prop := 'z' ∈ cs ∨ 'Z' ∈ cs

instance (cs : List Char) : Decidable (HasSizeSuffix cs) := inferInstanceAs (Decidable (_ ∨ _))

theorem mem_of_hasSizeSuffix (h : HasSizeSuffix cs) :
    ∃ c ∈ cs, c = 'z' ∨ c = 'Z' := by
  rcases h with hz | hZ
  · exact ⟨_, hz, .inl rfl⟩
  · exact ⟨_, hZ, .inr rfl⟩

theorem isIntSuffix_eq (h : ¬HasSizeSuffix cs) (hc : c ∈ cs) :
    isIntSuffix c = Literal.isIntSuffix c := by
  have hz : c ≠ 'z' := by
    rintro rfl
    exact h (.inl hc)
  have hZ : c ≠ 'Z' := by
    rintro rfl
    exact h (.inr hc)
  simp [isIntSuffix, Literal.isIntSuffix, hz, hZ]

/-- No letter stands in front of the suffix of decimal digits, and only its own stand in it. -/
theorem not_mem_decimal (hds : ∀ c ∈ ds, isDigitOrTick c = true)
    (hsuffix : ∀ c ∈ suffix, isIntSuffix c = true) (hdigit : isDigitOrTick c = false)
    (hletter : isIntSuffix c = false) : c ∉ ds ++ suffix := by
  intro hc
  rcases List.mem_append.1 hc with hc | hc
  · rw [hds c hc] at hdigit
    cases hdigit
  · rw [hsuffix c hc] at hletter
    cases hletter

/-- Decimal digits are no floating-point number in front of a member. -/
theorem literalMagnitude?_decimal (hds : ∀ c ∈ ds, isDigitOrTick c = true)
    (hsuffix : ∀ c ∈ suffix, isIntSuffix c = true) :
    Literal.magnitude? (ds ++ suffix) = (Literal.integer? 10 (ds ++ suffix)).map .int := by
  have hfloat : ((ds ++ suffix).any fun c => c = '.' || c = 'e' || c = 'E') = false := by
    rw [List.any_eq_false]
    intro c hc hmark
    simp only [Bool.or_eq_true, decide_eq_true_eq] at hmark
    rcases hmark with (rfl | rfl) | rfl <;> exact not_mem_decimal hds hsuffix rfl rfl hc
  rw [Literal.magnitude?.eq_def]
  split
  · next heq =>
    exact absurd (heq ▸ .tail _ (.head _)) (not_mem_decimal (c := 'x') hds hsuffix rfl rfl)
  · next heq =>
    exact absurd (heq ▸ .tail _ (.head _)) (not_mem_decimal (c := 'X') hds hsuffix rfl rfl)
  · rw [hfloat]
    rfl

theorem valueBy?_decimal (hds : ∀ c ∈ ds, isDigitOrTick c = true)
    (hsuffix : ∀ c ∈ suffix, isIntSuffix c = true)
    (h : significant (ds ++ suffix) = ds.filter (· ≠ '\'')) :
    valueBy? 10 (ds ++ suffix) = positional? 10 (ds.filter (· ≠ '\'')) := by
  have hne : ∀ x, x ∉ ds ++ suffix → ∀ cs, significant (ds ++ suffix) ≠ '0' :: x :: cs := by
    intro x hx cs heq
    have hmem : x ∈ significant (ds ++ suffix) := heq ▸ .tail _ (.head _)
    exact hx (List.mem_filter.1 hmem).1
  rw [valueBy?_ten_of_ne (hne 'x' (not_mem_decimal hds hsuffix rfl rfl))
    (hne 'X' (not_mem_decimal hds hsuffix rfl rfl)), h]

namespace IsInteger

variable {w : List Char}

/-- A template argument that is an integer literal. -/
theorem readInteger_eq (h : IsInteger w) :
    TemplateArg.readInteger w = .of (inRange? (valueBy? 10 w)) := by
  rw [← h.magnitude?_eq, TemplateArg.readInteger.eq_def]
  split
  · exact absurd rfl (h.unsigned '-' (.head _)).1
  · rfl

theorem integer?_eq {text : String} (h : IsInteger text.toList) :
    (TemplateArg.value text).integer? = inRange? (valueBy? 10 text.toList) := by
  rw [TemplateArg.integer?, TemplateArg.integer, h.readInteger_eq, Reading.value?_of]

/-- An integer literal in a condition. -/
theorem conditionLiteral?_eq {text : String} (h : IsInteger text.toList) :
    Condition.literal? text = if HasSizeSuffix text.toList then none
      else (inRange? (valueBy? 10 text.toList)).map Int64.ofInt := by
  rw [Condition.literal?]
  split
  · next hsize =>
    obtain ⟨c, hc, hletter⟩ := mem_of_hasSizeSuffix hsize
    have hkept := mem_dropSuffix (p := fun c => c = 'u' || c = 'U' || c = 'l' || c = 'L') hc
      (by rcases hletter with rfl | rfl <;> rfl)
    rw [magnitude?_eq_none hkept (by rcases hletter with rfl | rfl <;> rfl)
      (by rcases hletter with rfl | rfl <;> decide) (by rcases hletter with rfl | rfl <;> decide)
      fun c hc => h.unsigned c (mem_of_mem_dropSuffix hc)]
    rfl
  · next hsize =>
    rw [← h.magnitude?_eq, dropSuffix_congr fun c hc => isIntSuffix_eq hsize hc]
    rfl

/-- The parts of an integer literal: the digits and the suffix letters that are read behind the
prefix of the base. -/
theorem exists_parts (h : IsInteger w) : ∃ base lead body suffix, w = lead ++ (body ++ suffix) ∧
    (∀ c ∈ lead, c ∈ ['0', 'x', 'X']) ∧ (∀ c ∈ body, isIntSuffix c = false) ∧
    (∀ c ∈ suffix, isIntSuffix c = true) ∧
    Literal.magnitude? w = (Literal.integer? base (body ++ suffix)).map .int ∧
    valueBy? 10 w = positional? base (body.filter (· ≠ '\'')) := by
  have hsignificant := h.significant_eq
  rcases h with h | h
  · cases h with
    | @decimal ds suffix hds hsuffix =>
      have hbody : ∀ c ∈ ds, isIntSuffix c = false :=
        fun c hc => isIntSuffix_eq_false (.inl (hds.all c hc))
      rw [dropSuffix_append hbody hsuffix] at hsignificant
      exact ⟨10, [], ds, suffix, rfl, by simp, hbody, hsuffix,
        literalMagnitude?_decimal hds.all hsuffix, valueBy?_decimal hds.all hsuffix hsignificant⟩
  · cases h with
    | @hexadecimal x hs suffix hx hne hhs hsuffix =>
      have hbody : ∀ c ∈ hs, isIntSuffix c = false :=
        fun c hc => isIntSuffix_eq_false (.inr (hhs c hc))
      have hdrop : dropSuffix isIntSuffix ('0' :: x :: (hs ++ suffix)) = '0' :: x :: hs := by
        rw [dropSuffix_cons rfl, dropSuffix_cons (by rcases hx with rfl | rfl <;> rfl),
          dropSuffix_append hbody hsuffix]
      rw [hdrop] at hsignificant
      refine ⟨16, ['0', x], hs, suffix, rfl, ?_, hbody, hsuffix, ?_, ?_⟩
      · rcases hx with rfl | rfl <;> simp
      · rcases hx with rfl | rfl <;> rfl
      · rw [valueBy?, hsignificant]
        rcases hx with rfl | rfl <;> rfl

/-- An integer literal in front of a member, without a sign. -/
theorem literalMagnitude?_eq (h : IsInteger w) :
    Literal.magnitude? w = if HasSizeSuffix w ∨ '\'' ∈ w then none
      else (inRange? (valueBy? 10 w)).map fun n => .int (Int64.ofInt n) := by
  obtain ⟨base, lead, body, suffix, hw, hlead, hbody, hsuffix, hread, hvalue⟩ := h.exists_parts
  have hsigns : ∀ c ∈ body ++ suffix, c ≠ '-' ∧ c ≠ '+' := fun c hc =>
    h.unsigned c (hw ▸ List.mem_append_right _ hc)
  rw [hread, Literal.integer?,
    read?_of_unsigned fun c hc =>
      hsigns c (mem_of_mem_dropSuffix (List.mem_of_mem_head? hc))]
  -- A character that is kept and is no digit leaves nothing to read.
  have hstuck : ∀ c ∈ w, digitValue? c = none → c ∉ lead → Literal.isIntSuffix c = false →
      positional? base (dropSuffix Literal.isIntSuffix (body ++ suffix)) = none := by
    intro c hc hdigit hfront hletter
    refine positional?_eq_none (mem_dropSuffix ?_ hletter) (digitIn?_eq_none hdigit base)
    exact (List.mem_append.1 (hw ▸ hc)).resolve_left hfront
  have hnotLead : ∀ c, c ∉ ['0', 'x', 'X'] → c ∉ lead := fun c hc hmem => hc (hlead c hmem)
  split
  · next hcase =>
    have hnone : positional? base (dropSuffix Literal.isIntSuffix (body ++ suffix)) = none := by
      rcases hcase with hsize | htick
      · obtain ⟨c, hc, rfl | rfl⟩ := mem_of_hasSizeSuffix hsize
        · exact hstuck 'z' hc rfl (hnotLead _ (by decide)) rfl
        · exact hstuck 'Z' hc rfl (hnotLead _ (by decide)) rfl
      · exact hstuck '\'' htick rfl (hnotLead _ (by decide)) rfl
    rw [hnone]
    rfl
  · next hcase =>
    obtain ⟨hsize, htick⟩ := not_or.1 hcase
    have hletters : ∀ c ∈ body ++ suffix, Literal.isIntSuffix c = isIntSuffix c := fun c hc =>
      (isIntSuffix_eq hsize (hw ▸ List.mem_append_right _ hc)).symm
    have hkept : body.filter (· ≠ '\'') = body := by
      refine List.filter_eq_self.2 fun c hc => ?_
      have hne : c ≠ '\'' := by
        rintro rfl
        exact htick (hw ▸ List.mem_append_right _ (List.mem_append_left _ hc))
      simpa using hne
    rw [dropSuffix_congr hletters, dropSuffix_append hbody hsuffix, hvalue, hkept, inRange?]
    simp [Function.comp_def]

end IsInteger

theorem isBlank_eq_false (h : isWordOrTick c = true) : Text.isBlank c = false := by
  have hcode : c.toNat = 39 ∨ c.toNat = 95 ∨ (48 ≤ c.toNat ∧ c.toNat ≤ 57) ∨
      (65 ≤ c.toNat ∧ c.toNat ≤ 90) ∨ (97 ≤ c.toNat ∧ c.toNat ≤ 122) := by
    simp only [isWordOrTick, isWordChar, Char.isAlphanum, Char.isAlpha, Char.isUpper, Char.isLower,
      Char.isDigit, Bool.or_eq_true, Bool.and_eq_true, decide_eq_true_eq] at h
    rcases h with ((( h | h) | h) | rfl) | rfl
    · exact .inr (.inr (.inr (.inl h)))
    · exact .inr (.inr (.inr (.inr h)))
    · exact .inr (.inr (.inl h))
    · exact .inr (.inl rfl)
    · exact .inl rfl
  simp only [Text.isBlank, Text.blankRanges, Text.CodeRanges.contains_cons,
    Text.CodeRanges.contains_nil, Bool.or_eq_false_iff, Bool.and_eq_false_iff,
    decide_eq_false_iff_not, and_true]
  omega

namespace IsInteger

variable {w : List Char} {text : String}

/-- Nothing is trimmed from an integer. -/
theorem trimChars_eq (h : IsInteger w) : Text.trimChars w = w := by
  have hkept : ∀ l : List Char, (∀ c ∈ l, isWordOrTick c = true) →
      l.dropWhile Text.isBlank = l := by
    intro l hl
    cases l with
    | nil => rfl
    | cons c l => rw [List.dropWhile_cons, isBlank_eq_false (hl c (.head _))]; rfl
  rw [Text.trimChars, Text.trimFront, hkept w h.all_isWordOrTick, Text.trimBack,
    hkept _ fun c hc => h.all_isWordOrTick c (List.mem_reverse.1 hc), List.reverse_reverse]

/-- A default that is an integer literal. -/
theorem literalRead_eq (h : IsInteger text.toList) :
    Literal.read text = .of (if HasSizeSuffix text.toList ∨ '\'' ∈ text.toList then none
      else (inRange? (valueBy? 10 text.toList)).map fun n => .int (Int64.ofInt n)) := by
  obtain ⟨c, cs, hw, hdigit⟩ := h.exists_digit
  have hne : ∀ d, d.isDigit = false → c ≠ d := by
    rintro d hd rfl
    rw [hd] at hdigit
    cases hdigit
  have hbetween : ∀ first last, first.isDigit = false →
      Literal.between? first last text.toList = none := by
    intro first last hfirst
    rw [hw, Literal.between?]
    simp [hne first hfirst]
  rw [← h.literalMagnitude?_eq, Literal.read, h.trimChars_eq]
  simp only [hbetween '\x7b' '\x7d' rfl, hbetween '"' '"' rfl, hbetween '\'' '\'' rfl]
  rw [if_neg, if_neg, if_neg, Literal.number.eq_def]
  all_goals rw [hw]
  · split
    · next heq => exact absurd (List.cons.inj heq).1 (hne '-' rfl)
    · next heq => exact absurd (List.cons.inj heq).1 (hne '+' rfl)
    · rfl
  all_goals exact fun heq => absurd (List.cons.inj heq).1 (hne _ rfl)

theorem literalRead?_eq (h : IsInteger text.toList) :
    Literal.read? text = if HasSizeSuffix text.toList ∨ '\'' ∈ text.toList then none
      else (inRange? (valueBy? 10 text.toList)).map fun n => .int (Int64.ofInt n) := by
  rw [Literal.read?, h.literalRead_eq, Reading.value?_of]

end IsInteger

/-- The three readers of integer literals give `n?`. -/
structure ReadAs (text : String) (n? : Option Int) : Prop where
  /-- As a template argument. -/
  argument : (TemplateArg.value text).integer? = n?
  /-- In a condition. -/
  condition : Condition.literal? text = n?.map Int64.ofInt
  /-- As a default. -/
  default : Literal.read? text = n?.map fun n => .int (Int64.ofInt n)

theorem IsInteger.readAs_iff {text : String} (h : IsInteger text.toList) {n? : Option Int} :
    ReadAs text n? ↔ inRange? (valueBy? 10 text.toList) = n? ∧
      (HasSizeSuffix text.toList ∨ '\'' ∈ text.toList → n? = none) := by
  have hread : ReadAs text n? ↔ (TemplateArg.value text).integer? = n? ∧
      Condition.literal? text = n?.map Int64.ofInt ∧
      Literal.read? text = n?.map fun n => .int (Int64.ofInt n) :=
    ⟨fun ⟨ha, hc, hd⟩ => ⟨ha, hc, hd⟩, fun ⟨ha, hc, hd⟩ => ⟨ha, hc, hd⟩⟩
  rw [hread, h.integer?_eq, h.conditionLiteral?_eq, h.literalRead?_eq]
  refine and_congr_right fun hvalue => ?_
  rw [hvalue]
  by_cases hsize : HasSizeSuffix text.toList
  · simp [hsize, eq_comm]
  · by_cases htick : '\'' ∈ text.toList <;> simp [hsize, htick]

/-- What the readers make of an integer literal: when they agree, and when on the number that it
denotes. -/
theorem readAs_denoted_iff {text : String} (h : (⟨.intNumber, text⟩ : Piece).Scanned) :
    (TemplateArg.value text).integer? = inRange? (valueBy? 10 text.toList) ∧
    (Condition.literal? text = if HasSizeSuffix text.toList then none
      else (inRange? (valueBy? 10 text.toList)).map Int64.ofInt) ∧
    (Literal.read? text = if HasSizeSuffix text.toList ∨ '\'' ∈ text.toList then none
      else (inRange? (valueBy? 10 text.toList)).map fun n => .int (Int64.ofInt n)) ∧
    ((∃ n?, ReadAs text n?) ↔ ∀ n, inRange? (valueBy? 10 text.toList) = some n →
      ¬HasSizeSuffix text.toList ∧ '\'' ∉ text.toList) ∧
    (ReadAs text (inRange? (denoted? text.toList)) ↔
      (∀ n, inRange? (valueBy? 10 text.toList) = some n → ¬HasSizeSuffix text.toList ∧
        '\'' ∉ text.toList ∧ (isOctal text.toList = true → n < 8)) ∧
      (inRange? (valueBy? 10 text.toList) = none → inRange? (denoted? text.toList) = none)) := by
  have hint := IsInteger.of_scanned h
  refine ⟨hint.integer?_eq, hint.conditionLiteral?_eq, hint.literalRead?_eq, ?_, ?_⟩
  · simp only [hint.readAs_iff, exists_eq_left', ← not_or]
    cases inRange? (valueBy? 10 text.toList) <;> simp
  rw [hint.readAs_iff]
  cases hvalue : inRange? (valueBy? 10 text.toList) with
  | none =>
    constructor
    · rintro ⟨hnone, -⟩
      exact ⟨by simp, fun _ => hnone.symm⟩
    · rintro ⟨-, hnone⟩
      rw [hnone rfl]
      simp
  | some n =>
    have hdenoted := inRange?_denoted?_iff hvalue
    constructor
    · rintro ⟨heq, hmarks⟩
      rw [← heq] at hmarks hdenoted
      refine ⟨?_, by simp⟩
      rintro m ⟨⟩
      refine ⟨fun hsize => ?_, fun htick => ?_, hdenoted.1 rfl⟩
      · cases hmarks (.inl hsize)
      · cases hmarks (.inr htick)
    · rintro ⟨hall, -⟩
      obtain ⟨hsize, htick, hsmall⟩ := hall n rfl
      rw [hdenoted.2 hsmall]
      exact ⟨rfl, fun hmark => (not_or.2 ⟨hsize, htick⟩ hmark).elim⟩

/-- A hexadecimal literal with suffix letters is read everywhere as the number that it denotes. -/
theorem readAs_denoted_iff_hex : (⟨.intNumber, "0xffUL"⟩ : Piece).Scanned ∧
    denoted? "0xffUL".toList = some 255 ∧ ReadAs "0xffUL" (some 255) := by
  have hscanned : (⟨.intNumber, "0xffUL"⟩ : Piece).Scanned :=
    ⟨by decide, "0xffUL", by decide +kernel⟩
  have hvalue : inRange? (valueBy? 10 "0xffUL".toList) = some 255 := by decide +kernel
  have hdenoted : inRange? (denoted? "0xffUL".toList) = some 255 := by decide +kernel
  have hread := (readAs_denoted_iff hscanned).2.2.2.2
  rw [hvalue, hdenoted] at hread
  refine ⟨hscanned, by decide +kernel, hread.2 ⟨fun n _ => ⟨?_, ?_, fun hoctal => ?_⟩, by simp⟩⟩
  · decide +kernel
  · decide +kernel
  · exact absurd hoctal (by decide +kernel)

/-- An octal literal is read as a decimal one, a literal with separators is no default, and one
with the suffix of sizes stands in template arguments only. -/
theorem denoted_misread :
    (∀ text ∈ ["010", "1'000", "1z"], (⟨.intNumber, text⟩ : Piece).Scanned ∧
      ¬ReadAs text (inRange? (denoted? text.toList))) ∧
    denoted? "010".toList = some 8 ∧ ReadAs "010" (some 10) ∧
    denoted? "1'000".toList = some 1000 ∧ Literal.read? "1'000" = none ∧
    denoted? "1z".toList = some 1 ∧ Literal.read? "1z" = none ∧ Condition.literal? "1z" = none := by
  have hscanned : ∀ text ∈ ["010", "1'000", "1z"], (⟨.intNumber, text⟩ : Piece).Scanned := by
    have hpieces : ∀ text ∈ ["010", "1'000", "1z"],
        (⟨.intNumber, text⟩ : Piece) ∈ piecesOf text := by
      decide +kernel
    exact fun text htext => ⟨by simp, text, hpieces text htext⟩
  have hint (text : String) (htext : text ∈ ["010", "1'000", "1z"]) : IsInteger text.toList :=
    .of_scanned (hscanned text htext)
  have hmisread : ∀ text ∈ ["010", "1'000", "1z"],
      ¬(inRange? (valueBy? 10 text.toList) = inRange? (denoted? text.toList) ∧
        (HasSizeSuffix text.toList ∨ '\'' ∈ text.toList →
          inRange? (denoted? text.toList) = none)) := by
    decide +kernel
  refine ⟨fun text htext => ⟨hscanned text htext, ?_⟩, by decide +kernel, ?_, by decide +kernel,
    ?_, by decide +kernel, ?_, by decide +kernel⟩
  · rw [(hint text htext).readAs_iff]
    exact hmisread text htext
  · exact (hint "010" (by simp)).readAs_iff.2 (by decide +kernel)
  · rw [(hint "1'000" (by simp)).literalRead?_eq, if_pos (by decide +kernel)]
  · rw [(hint "1z" (by simp)).literalRead?_eq, if_pos (by decide +kernel)]

end Numeral
end Bindery
