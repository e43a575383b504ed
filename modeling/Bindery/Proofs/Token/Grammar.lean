import Bindery.Proofs.Token.Shape
import Mathlib

/-!
# The grammar of tokens

The tokens of a header are described by regular languages, one rule for each kind that is read by a
pattern and one for each mark and reserved word. The rules say nothing of how a text is scanned.
This module says which forms the words of a rule have; that the scanner takes the longest of them is
the subject of `Bindery.Proofs.Token.Munch`.

A block comment is the one rule that is no regular expression: it ends at the first closer.

## Main definitions

* `Lexical.oneOf`, `noneOf`, `exactly`, `optional`, `atLeastOnce`: the parts of regular expressions.
* `Lexical.Rule`: the rules, with `Rule.language` and `Rule.kind`.
* `Lexical.Rule.all`: every rule.
-/
namespace Bindery
namespace Lexical

open scoped Computability

variable {p : Char → Bool} {c : Char} {w : List Char} {L : Language Char}

/-! ## Parts of regular expressions -/

/-- The character lies in one of the ranges. -/
def inRanges (ranges : List (Char × Char)) (c : Char) : Bool :=
  ranges.any fun r => r.1 ≤ c && c ≤ r.2

/-- One character of a class. -/
def ofClass (p : Char → Bool) : Language Char := {w | ∃ c, p c = true ∧ w = [c]}

/-- One character out of some ranges. -/
def oneOf (ranges : List (Char × Char)) : Language Char := ofClass (inRanges ranges)

/-- One character other than some. -/
def noneOf (cs : List Char) : Language Char := ofClass (!cs.contains ·)

/-- A text and no other. -/
def exactly (text : String) : Language Char := {text.toList}

/-- The words of a language, or nothing. -/
def optional (L : Language Char) : Language Char := 1 + L

/-- Words of a language one behind the other, one of them at least. -/
def atLeastOnce (L : Language Char) : Language Char := L * L∗

theorem mem_ofClass : w ∈ ofClass p ↔ ∃ c, p c = true ∧ w = [c] := Iff.rfl

theorem mem_exactly {text : String} : w ∈ exactly text ↔ w = text.toList := Iff.rfl

theorem mem_noneOf {cs : List Char} : w ∈ noneOf cs ↔ ∃ c, c ∉ cs ∧ w = [c] := by
  simp [noneOf, mem_ofClass]

theorem mem_exactly_mul {text : String} :
    w ∈ exactly text * L ↔ ∃ v ∈ L, w = text.toList ++ v := by
  rw [Language.mem_mul]
  constructor
  · rintro ⟨_, rfl, v, hv, rfl⟩
    exact ⟨v, hv, rfl⟩
  · rintro ⟨v, hv, rfl⟩
    exact ⟨_, rfl, v, hv, rfl⟩

theorem mem_optional : w ∈ optional L ↔ w = [] ∨ w ∈ L := Iff.rfl

theorem append_mem_kstar {v : List Char} (hv : v ∈ L) (hw : w ∈ L∗) : v ++ w ∈ L∗ :=
  mul_kstar_le_kstar (a := L) (Language.append_mem_mul hv hw)

theorem singleton_mem_ofClass (h : p c = true) : [c] ∈ ofClass p := ⟨c, h, rfl⟩

/-- The words of a starred language are those that are put together from its words. -/
theorem kstar_induction {motive : List Char → Prop} (nil : motive [])
    (append : ∀ v ∈ L, ∀ w ∈ L∗, motive w → motive (v ++ w)) (h : w ∈ L∗) : motive w := by
  obtain ⟨parts, rfl, hparts⟩ := Language.mem_kstar.1 h
  clear h
  induction parts with
  | nil => exact nil
  | cons v parts ih =>
    obtain ⟨hv, hrest⟩ := List.forall_mem_cons.1 hparts
    exact append v hv _ (Language.join_mem_kstar hrest) (ih hrest)

theorem mem_kstar_ofClass : w ∈ (ofClass p)∗ ↔ ∀ c ∈ w, p c = true := by
  constructor
  · intro h
    refine kstar_induction (motive := fun w => ∀ c ∈ w, p c = true) (by simp) ?_ h
    rintro _ ⟨c, hc, rfl⟩ w _ ih
    exact List.forall_mem_cons.2 ⟨hc, ih⟩
  · intro h
    induction w with
    | nil => exact Language.nil_mem_kstar _
    | cons c w ih =>
      obtain ⟨hc, hw⟩ := List.forall_mem_cons.1 h
      exact append_mem_kstar (singleton_mem_ofClass hc) (ih hw)

theorem mem_atLeastOnce_ofClass :
    w ∈ atLeastOnce (ofClass p) ↔ w ≠ [] ∧ ∀ c ∈ w, p c = true := by
  rw [atLeastOnce, Language.mem_mul]
  constructor
  · rintro ⟨v, ⟨c, hc, rfl⟩, w, hw, rfl⟩
    exact ⟨by simp, List.forall_mem_cons.2 ⟨hc, mem_kstar_ofClass.1 hw⟩⟩
  · rintro ⟨hne, h⟩
    obtain ⟨c, w, rfl⟩ := List.exists_cons_of_ne_nil hne
    obtain ⟨hc, hw⟩ := List.forall_mem_cons.1 h
    exact ⟨[c], singleton_mem_ofClass hc, w, mem_kstar_ofClass.2 hw, rfl⟩

/-! ## Parts of tokens -/

/-- A digit. -/
def digit : Language Char := oneOf [('0', '9')]

/-- A digit or a separator of digits. -/
def digitOrTick : Language Char := oneOf [('0', '9'), ('\'', '\'')]

/-- A digit, followed by digits and separators. -/
def digits : Language Char := digit * digitOrTick∗

/-- A hexadecimal digit or a separator. -/
def hexOrTick : Language Char := oneOf [('0', '9'), ('a', 'f'), ('A', 'F'), ('\'', '\'')]

/-- Suffix letters of an integer. -/
def intSuffix : Language Char :=
  (oneOf [('u', 'u'), ('U', 'U'), ('l', 'l'), ('L', 'L'), ('z', 'z'), ('Z', 'Z')])∗

/-- A decimal exponent. -/
def exponent : Language Char :=
  oneOf [('e', 'e'), ('E', 'E')] * (optional (oneOf [('+', '+'), ('-', '-')]) * atLeastOnce digit)

/-- An optional suffix letter of a floating-point number. -/
def floatSuffix : Language Char :=
  optional (oneOf [('f', 'f'), ('F', 'F'), ('l', 'l'), ('L', 'L')])

/-- What may stand between quotes. -/
def quotedBody (quote : Char) : Language Char :=
  (noneOf [quote, '\\', '\n'] + exactly "\\" * noneOf ['\n'])∗

/-- What a directive line goes on with. -/
def directiveItem : Language Char :=
  noneOf ['\n', '\\'] + (exactly "\\" * (optional (exactly "\r") * exactly "\n") +
    exactly "\\" * noneOf ['\n'])

/-- A comment that ends at the first closer behind its opener. -/
def comment : Language Char :=
  {w | ∃ body, w = '/' :: '*' :: (body ++ ['*', '/']) ∧ ¬ ['*', '/'] <:+: body ++ ['*']}

/-! ## Rules -/

/-- A rule of the grammar. -/
inductive Rule where
  | blank
  | lineComment
  | blockComment
  | directive
  | ident
  | integer
  | float
  | string
  | char
  | spelled (text : String) (kind : TokenKind)
deriving DecidableEq

namespace Rule

/-- The words of a rule. -/
def language : Rule → Language Char
  | blank => atLeastOnce
      (oneOf [(' ', ' '), ('\t', '\t'), ('\r', '\r'), ('\n', '\n'), ('\x0c', '\x0c')])
  | lineComment => exactly "//" * (noneOf ['\n'])∗
  | blockComment => comment
  | directive => exactly "#" * directiveItem∗
  | ident => oneOf [('a', 'z'), ('A', 'Z'), ('_', '_')] *
      (oneOf [('a', 'z'), ('A', 'Z'), ('0', '9'), ('_', '_')])∗
  | integer => digits * intSuffix +
      exactly "0" * (oneOf [('x', 'x'), ('X', 'X')] * (atLeastOnce hexOrTick * intSuffix))
  | float => digits * (exactly "." * (digitOrTick∗ * (optional exponent * floatSuffix))) +
      (exactly "." * (digits * (optional exponent * floatSuffix)) +
        digits * (exponent * floatSuffix))
  | string => exactly "\"" * (quotedBody '"' * exactly "\"")
  | char => exactly "'" * (atLeastOnce (noneOf ['\'', '\\', '\n'] + exactly "\\" * noneOf ['\n']) *
      exactly "'")
  | spelled text _ => exactly text

/-- The kind of the tokens that a rule describes. -/
def kind : Rule → TokenKind
  | blank => .blank
  | lineComment => .lineComment
  | blockComment => .blockComment
  | directive => .directive
  | ident => .ident
  | integer => .intNumber
  | float => .floatNumber
  | string => .string
  | char => .char
  | spelled _ kind => kind

/-- Every rule: those of marks and reserved words come from their tables. -/
def all : List Rule :=
  [blank, lineComment, blockComment, directive, ident, integer, float, string, char] ++
    (TokenKind.marks ++ TokenKind.keywords).map fun m => spelled m.1 m.2

/-- The kind of a word of a rule: a reserved word is no identifier. -/
def kindOf (w : List Char) : Rule → TokenKind
  | ident => Pattern.word.kindOf w
  | r => r.kind

end Rule

/-! ## The forms of words -/

open Pattern

theorem inRange_self (a : Char) : (a ≤ c && c ≤ a) = decide (c = a) := by
  rw [← Bool.decide_and, decide_eq_decide]
  exact ⟨fun h => Char.le_antisymm h.2 h.1, by rintro rfl; simp⟩

theorem inRange_digit : (decide ('0' ≤ c) && decide (c ≤ '9')) = c.isDigit := by
  simp [Char.isDigit, Char.le_def, UInt32.le_iff_toNat_le]

theorem inRange_lower : (decide ('a' ≤ c) && decide (c ≤ 'z')) = c.isLower := by
  simp [Char.isLower, Char.le_def, UInt32.le_iff_toNat_le]

theorem inRange_upper : (decide ('A' ≤ c) && decide (c ≤ 'Z')) = c.isUpper := by
  simp [Char.isUpper, Char.le_def, UInt32.le_iff_toNat_le]

theorem oneOf_eq {ranges : List (Char × Char)} (h : ∀ c, inRanges ranges c = p c) :
    oneOf ranges = ofClass p :=
  congrArg ofClass (funext h)

theorem digit_eq : digit = ofClass Char.isDigit :=
  oneOf_eq fun c => by simp only [inRanges, List.any, inRange_digit, Bool.or_false]

theorem digitOrTick_eq : digitOrTick = ofClass isDigitOrTick :=
  oneOf_eq fun c => by
    simp only [inRanges, List.any, inRange_digit, inRange_self, Bool.or_false, isDigitOrTick]

theorem hexOrTick_eq : hexOrTick = ofClass isHexOrTick :=
  oneOf_eq fun c => by
    simp only [inRanges, List.any, inRange_digit, inRange_self, Bool.or_false, Bool.or_assoc,
      isHexOrTick]

theorem intSuffix_eq : intSuffix = (ofClass isIntSuffix)∗ :=
  congrArg _ (oneOf_eq fun c => by
    simp only [inRanges, List.any, inRange_self, Bool.or_false, Bool.or_assoc, isIntSuffix])

theorem floatSuffix_eq : floatSuffix = optional (ofClass isFloatSuffix) :=
  congrArg _ (oneOf_eq fun c => by
    simp only [inRanges, List.any, inRange_self, Bool.or_false, Bool.or_assoc, isFloatSuffix])

theorem mem_digits : w ∈ digits ↔ Digits w := by
  rw [digits, digit_eq, digitOrTick_eq, Language.mem_mul]
  constructor
  · rintro ⟨_, ⟨c, hc, rfl⟩, w, hw, rfl⟩
    refine ⟨⟨c, rfl, hc⟩, List.forall_mem_cons.2 ⟨isDigitOrTick_of_isDigit c hc, ?_⟩⟩
    exact mem_kstar_ofClass.1 hw
  · rintro ⟨⟨c, hc, hdigit⟩, hall⟩
    obtain ⟨w, rfl⟩ := List.head?_eq_some_iff.1 hc
    exact ⟨[c], singleton_mem_ofClass hdigit, w,
      mem_kstar_ofClass.2 (List.forall_mem_cons.1 hall).2, rfl⟩

theorem mem_floatSuffix : w ∈ floatSuffix ↔ FloatSuffix w := by
  rw [floatSuffix_eq, mem_optional]
  constructor
  · rintro (rfl | ⟨c, hc, rfl⟩)
    · exact ⟨by simp, by simp⟩
    · exact ⟨by simp, by simpa using hc⟩
  · rintro ⟨hshort, hall⟩
    match w with
    | [] => exact .inl rfl
    | [c] => exact .inr (singleton_mem_ofClass (hall c (by simp)))
    | _ :: _ :: _ => simp at hshort

theorem mem_oneOf_pair {a b : Char} :
    w ∈ oneOf [(a, a), (b, b)] ↔ ∃ c, (c = a ∨ c = b) ∧ w = [c] := by
  have hclass (c : Char) : inRanges [(a, a), (b, b)] c = (decide (c = a) || decide (c = b)) := by
    simp only [inRanges, List.any, inRange_self, Bool.or_false]
  simp only [oneOf_eq hclass, mem_ofClass, Bool.or_eq_true, decide_eq_true_eq]

theorem mem_exponent : w ∈ exponent ↔ Exponent w := by
  rw [exponent, digit_eq, Language.mem_mul]
  constructor
  · rintro ⟨_, hletter, _, htl, rfl⟩
    obtain ⟨e, he, rfl⟩ := mem_oneOf_pair.1 hletter
    obtain ⟨sign, hsign, ds, hds, rfl⟩ := Language.mem_mul.1 htl
    obtain ⟨hne, hall⟩ := mem_atLeastOnce_ofClass.1 hds
    refine ⟨e, sign, ds, rfl, he, ?_, hne, hall⟩
    rcases hsign with rfl | hsign
    · exact .inl rfl
    · obtain ⟨c, rfl | rfl, rfl⟩ := mem_oneOf_pair.1 hsign
      · exact .inr (.inl rfl)
      · exact .inr (.inr rfl)
  · rintro ⟨e, sign, ds, rfl, he, hsign, hne, hall⟩
    refine ⟨[e], mem_oneOf_pair.2 ⟨e, he, rfl⟩, sign ++ ds, ?_, rfl⟩
    refine Language.append_mem_mul ?_ (mem_atLeastOnce_ofClass.2 ⟨hne, hall⟩)
    rcases hsign with rfl | rfl | rfl
    · exact .inl rfl
    · exact .inr (mem_oneOf_pair.2 ⟨'+', .inl rfl, rfl⟩)
    · exact .inr (mem_oneOf_pair.2 ⟨'-', .inr rfl, rfl⟩)

theorem mem_realTail : w ∈ optional exponent * floatSuffix ↔ RealTail w := by
  rw [Language.mem_mul]
  constructor
  · rintro ⟨e, he, s, hs, rfl⟩
    exact ⟨e, s, rfl, he.imp id mem_exponent.1, mem_floatSuffix.1 hs⟩
  · rintro ⟨e, s, rfl, he, hs⟩
    exact ⟨e, he.imp id mem_exponent.2, s, mem_floatSuffix.2 hs, rfl⟩

/-- A backslash takes any other character than a newline along. -/
theorem mem_escape : w ∈ exactly "\\" * noneOf ['\n'] ↔ ∃ c, c ≠ '\n' ∧ w = ['\\', c] := by
  rw [mem_exactly_mul]
  constructor
  · rintro ⟨_, hv, rfl⟩
    obtain ⟨c, hc, rfl⟩ := mem_noneOf.1 hv
    exact ⟨c, by simpa using hc, rfl⟩
  · rintro ⟨c, hc, rfl⟩
    exact ⟨[c], mem_noneOf.2 ⟨c, by simpa using hc, rfl⟩, rfl⟩

/-- Between quotes stands a character that does not end there, or a backslash with the next. -/
theorem mem_quotedItem {quote : Char} :
    w ∈ noneOf [quote, '\\', '\n'] + exactly "\\" * noneOf ['\n'] ↔
      (∃ c, (c ≠ quote ∧ c ≠ '\\' ∧ c ≠ '\n') ∧ w = [c]) ∨ ∃ c, c ≠ '\n' ∧ w = ['\\', c] := by
  rw [Language.mem_add, mem_escape, mem_noneOf]
  simp only [List.mem_cons, List.not_mem_nil, or_false, not_or]

theorem mem_quotedBody {quote : Char} : w ∈ quotedBody quote ↔ QuotedBody quote w := by
  constructor
  · refine kstar_induction .nil fun v hv w _ ih => ?_
    rcases mem_quotedItem.1 hv with ⟨c, ⟨hquote, hslash, hline⟩, rfl⟩ | ⟨c, hc, rfl⟩
    · exact .plain hquote hline hslash ih
    · exact .escape hc ih
  · intro h
    induction h with
    | nil => exact Language.nil_mem_kstar _
    | escape hc _ ih => exact append_mem_kstar (mem_quotedItem.2 (.inr ⟨_, hc, rfl⟩)) ih
    | plain hquote hline hslash _ ih =>
      exact append_mem_kstar (mem_quotedItem.2 (.inl ⟨_, ⟨hquote, hslash, hline⟩, rfl⟩)) ih

/-- A directive line goes on with a character, a continued line, or a backslash with the next
character. -/
theorem mem_directiveItem : w ∈ directiveItem ↔
    (∃ c, (c ≠ '\n' ∧ c ≠ '\\') ∧ w = [c]) ∨ (w = ['\\', '\n'] ∨ w = ['\\', '\r', '\n']) ∨
      ∃ c, c ≠ '\n' ∧ w = ['\\', c] := by
  have hcontinued : w ∈ exactly "\\" * (optional (exactly "\r") * exactly "\n") ↔
      w = ['\\', '\n'] ∨ w = ['\\', '\r', '\n'] := by
    rw [mem_exactly_mul]
    constructor
    · rintro ⟨_, ⟨_, rfl | rfl, _, rfl, rfl⟩, rfl⟩
      · exact .inl rfl
      · exact .inr rfl
    · rintro (rfl | rfl)
      · exact ⟨['\n'], ⟨[], .inl rfl, ['\n'], rfl, rfl⟩, rfl⟩
      · exact ⟨['\r', '\n'], ⟨['\r'], .inr rfl, ['\n'], rfl, rfl⟩, rfl⟩
  rw [directiveItem, Language.mem_add, Language.mem_add, hcontinued, mem_escape, mem_noneOf]
  simp only [List.mem_cons, List.not_mem_nil, or_false, not_or]

namespace Rule

variable {r : Rule} {p : Pattern}

theorem mem_ident : w ∈ ident.language ↔ isWord w = true := by
  have hstart : oneOf [('a', 'z'), ('A', 'Z'), ('_', '_')] = ofClass isWordStart :=
    oneOf_eq fun c => by
      simp only [inRanges, List.any, inRange_lower, inRange_upper, inRange_self, Bool.or_false,
        isWordStart, Char.isAlpha]
      ac_rfl
  have hchar : oneOf [('a', 'z'), ('A', 'Z'), ('0', '9'), ('_', '_')] = ofClass isWordChar :=
    oneOf_eq fun c => by
      simp only [inRanges, List.any, inRange_lower, inRange_upper, inRange_digit, inRange_self,
        Bool.or_false, isWordChar, Char.isAlphanum, Char.isAlpha]
      ac_rfl
  rw [language, hstart, hchar, Language.mem_mul]
  constructor
  · rintro ⟨_, ⟨c, hc, rfl⟩, w, hw, rfl⟩
    rw [List.singleton_append, isWord, hc, Bool.true_and, List.all_eq_true]
    exact mem_kstar_ofClass.1 hw
  · intro hword
    cases w with
    | nil => cases hword
    | cons c w =>
      rw [isWord, Bool.and_eq_true, List.all_eq_true] at hword
      exact ⟨[c], singleton_mem_ofClass hword.1, w, mem_kstar_ofClass.2 hword.2, rfl⟩

theorem mem_integer : w ∈ integer.language ↔ decimal.Shape w ∨ hexadecimal.Shape w := by
  rw [language, intSuffix_eq, hexOrTick_eq, Language.mem_add, Language.mem_mul, mem_exactly_mul]
  refine or_congr ⟨?_, fun h => ?_⟩ ⟨?_, fun h => ?_⟩
  · rintro ⟨ds, hds, suffix, hsuffix, rfl⟩
    exact .decimal (mem_digits.1 hds) (mem_kstar_ofClass.1 hsuffix)
  · cases h with
    | @decimal ds suffix hds hsuffix =>
      exact ⟨ds, mem_digits.2 hds, suffix, mem_kstar_ofClass.2 hsuffix, rfl⟩
  · rintro ⟨_, hrest, rfl⟩
    obtain ⟨_, hletter, _, htl, rfl⟩ := Language.mem_mul.1 hrest
    obtain ⟨x, hx, rfl⟩ := mem_oneOf_pair.1 hletter
    obtain ⟨hs, hhs, suffix, hsuffix, rfl⟩ := Language.mem_mul.1 htl
    obtain ⟨hne, hall⟩ := mem_atLeastOnce_ofClass.1 hhs
    have hshape : hexadecimal.Shape ('0' :: x :: (hs ++ suffix)) :=
      .hexadecimal hx hne hall (mem_kstar_ofClass.1 hsuffix)
    exact hshape
  · cases h with
    | @hexadecimal x hs suffix hx hne hhs hsuffix =>
      have htl := Language.append_mem_mul (mem_atLeastOnce_ofClass.2 ⟨hne, hhs⟩)
        (mem_kstar_ofClass.2 hsuffix)
      exact ⟨x :: (hs ++ suffix),
        Language.append_mem_mul (mem_oneOf_pair.2 ⟨x, hx, rfl⟩) htl, rfl⟩

theorem mem_float :
    w ∈ float.language ↔ pointed.Shape w ∨ fraction.Shape w ∨ exponential.Shape w := by
  rw [language, digitOrTick_eq, Language.mem_add, Language.mem_add, Language.mem_mul,
    mem_exactly_mul, Language.mem_mul]
  refine or_congr ⟨?_, fun h => ?_⟩ (or_congr ⟨?_, fun h => ?_⟩ ⟨?_, fun h => ?_⟩)
  · rintro ⟨ds, hds, _, hpoint, rfl⟩
    obtain ⟨_, hrest, rfl⟩ := mem_exactly_mul.1 hpoint
    obtain ⟨fs, hfs, tl, htl, rfl⟩ := Language.mem_mul.1 hrest
    have hshape : pointed.Shape (ds ++ '.' :: (fs ++ tl)) :=
      .pointed (mem_digits.1 hds) (mem_kstar_ofClass.1 hfs) (mem_realTail.1 htl)
    exact hshape
  · cases h with
    | @pointed ds fs tl hds hfs htl =>
      have hrest := Language.append_mem_mul (mem_kstar_ofClass.2 hfs) (mem_realTail.2 htl)
      exact ⟨ds, mem_digits.2 hds, _, mem_exactly_mul.2 ⟨_, hrest, rfl⟩, rfl⟩
  · rintro ⟨_, hrest, rfl⟩
    obtain ⟨ds, hds, tl, htl, rfl⟩ := Language.mem_mul.1 hrest
    have hshape : fraction.Shape ('.' :: (ds ++ tl)) :=
      .fraction (mem_digits.1 hds) (mem_realTail.1 htl)
    exact hshape
  · cases h with
    | @fraction ds tl hds htl =>
      exact ⟨ds ++ tl, Language.append_mem_mul (mem_digits.2 hds) (mem_realTail.2 htl), rfl⟩
  · rintro ⟨ds, hds, _, htl, rfl⟩
    obtain ⟨e, he, s, hs, rfl⟩ := Language.mem_mul.1 htl
    exact .exponential (mem_digits.1 hds) (mem_exponent.1 he) (mem_floatSuffix.1 hs)
  · cases h with
    | @exponential ds e s hds he hs =>
      have htl := Language.append_mem_mul (mem_exponent.2 he) (mem_floatSuffix.2 hs)
      exact ⟨ds, mem_digits.2 hds, e ++ s, htl, rfl⟩

theorem mem_string : w ∈ string.language ↔ Pattern.string.Shape w := by
  rw [language, mem_exactly_mul]
  refine ⟨?_, fun h => ?_⟩
  · rintro ⟨_, hrest, rfl⟩
    obtain ⟨body, hbody, _, rfl, rfl⟩ := Language.mem_mul.1 hrest
    exact .string (mem_quotedBody.1 hbody)
  · cases h with
    | @string body hbody =>
      exact ⟨body ++ ['"'], Language.append_mem_mul (mem_quotedBody.2 hbody) rfl, rfl⟩

/-- What a character literal holds is a body that is not empty. -/
theorem mem_atLeastOnce_quotedItem {quote : Char} :
    w ∈ atLeastOnce (noneOf [quote, '\\', '\n'] + exactly "\\" * noneOf ['\n']) ↔
      QuotedBody quote w ∧ w ≠ [] := by
  rw [atLeastOnce, Language.mem_mul]
  constructor
  · rintro ⟨v, hv, w, hw, rfl⟩
    refine ⟨mem_quotedBody.1 (append_mem_kstar hv hw), ?_⟩
    rcases mem_quotedItem.1 hv with ⟨c, -, rfl⟩ | ⟨c, -, rfl⟩
    · simp
    · simp
  · rintro ⟨hbody, hne⟩
    cases hbody with
    | nil => exact absurd rfl hne
    | escape hc hbody =>
      exact ⟨_, mem_quotedItem.2 (.inr ⟨_, hc, rfl⟩), _, mem_quotedBody.2 hbody, rfl⟩
    | plain hquote hline hslash hbody =>
      exact ⟨_, mem_quotedItem.2 (.inl ⟨_, ⟨hquote, hslash, hline⟩, rfl⟩), _,
        mem_quotedBody.2 hbody, rfl⟩

theorem mem_char : w ∈ char.language ↔ character.Shape w := by
  rw [language, mem_exactly_mul]
  refine ⟨?_, fun h => ?_⟩
  · rintro ⟨_, hrest, rfl⟩
    obtain ⟨body, hbody, _, rfl, rfl⟩ := Language.mem_mul.1 hrest
    obtain ⟨hshape, hne⟩ := mem_atLeastOnce_quotedItem.1 hbody
    exact .character hshape (List.length_pos_iff.2 hne)
  · cases h with
    | @character body hshape hne =>
      have hbody := mem_atLeastOnce_quotedItem.2 ⟨hshape, List.length_pos_iff.1 hne⟩
      exact ⟨body ++ ['\''], Language.append_mem_mul hbody rfl, rfl⟩

theorem mem_blank : w ∈ blank.language ↔ w ≠ [] ∧ ∀ c ∈ w, isSpace c = true := by
  have hspace : oneOf [(' ', ' '), ('\t', '\t'), ('\r', '\r'), ('\n', '\n'), ('\x0c', '\x0c')] =
      ofClass isSpace :=
    oneOf_eq fun c => by
      simp only [inRanges, List.any, inRange_self, Bool.or_false, Bool.or_assoc, isSpace]
  rw [language, hspace, mem_atLeastOnce_ofClass]

theorem mem_lineComment : w ∈ lineComment.language ↔
    ∃ v, (∀ c ∈ v, decide (c ≠ '\n') = true) ∧ w = '/' :: '/' :: v := by
  have hclass : noneOf ['\n'] = ofClass fun c => decide (c ≠ '\n') :=
    congrArg ofClass (funext fun c => by simp)
  rw [language, mem_exactly_mul, hclass]
  simp only [mem_kstar_ofClass]
  rfl

theorem mem_directive : w ∈ directive.language ↔ ∃ v ∈ directiveItem∗, w = '#' :: v :=
  mem_exactly_mul

/-! ## Words and patterns -/

/-- The rules of marks and reserved words come from the tables. -/
theorem spelled_mem_all {text : String} {kind : TokenKind} :
    spelled text kind ∈ all ↔
      (text, kind) ∈ TokenKind.marks ∨ (text, kind) ∈ TokenKind.keywords := by
  simp [all]

/-- A word of a rule that is no trivia is a text that a pattern takes, and of the same kind. -/
theorem exists_shape (hr : r ∈ all) (hw : w ∈ r.language) (hkind : r.kind.isTrivia = false) :
    ∃ p ∈ Pattern.all, p.Shape w ∧ p.kindOf w = r.kindOf w := by
  have hkeywords : ∀ k ∈ TokenKind.keywords,
      isWord k.1.toList = true ∧ word.kindOf k.1.toList = k.2 := by decide
  cases r with
  | ident => exact ⟨.word, by decide, .word (mem_ident.1 hw), rfl⟩
  | integer =>
    rcases mem_integer.1 hw with h | h
    · exact ⟨.decimal, by decide, h, rfl⟩
    · exact ⟨.hexadecimal, by decide, h, rfl⟩
  | float =>
    rcases mem_float.1 hw with h | h | h
    · exact ⟨.pointed, by decide, h, rfl⟩
    · exact ⟨.fraction, by decide, h, rfl⟩
    · exact ⟨.exponential, by decide, h, rfl⟩
  | string => exact ⟨.string, by decide, mem_string.1 hw, rfl⟩
  | char => exact ⟨.character, by decide, mem_char.1 hw, rfl⟩
  | spelled text kind =>
    obtain rfl := mem_exactly.1 hw
    rcases spelled_mem_all.1 hr with hmark | hkeyword
    · refine ⟨.mark text.toList kind, ?_, .mark, rfl⟩
      exact List.mem_append_right _ (List.mem_map.2 ⟨_, hmark, rfl⟩)
    · obtain ⟨hword, hkind⟩ := hkeywords _ hkeyword
      exact ⟨.word, by decide, .word hword, hkind⟩
  | _ => cases hkind

/-- A text that a pattern takes is a word of a rule of its kind. -/
theorem exists_of_shape (hp : p ∈ Pattern.all) (h : p.Shape w) :
    ∃ r ∈ all, w ∈ r.language ∧ r.kindOf w = p.kindOf w := by
  cases p with
  | word =>
    cases h with
    | word hw => exact ⟨ident, by simp [all], mem_ident.2 hw, rfl⟩
  | decimal => exact ⟨integer, by simp [all], mem_integer.2 (.inl h), rfl⟩
  | hexadecimal => exact ⟨integer, by simp [all], mem_integer.2 (.inr h), rfl⟩
  | pointed => exact ⟨float, by simp [all], mem_float.2 (.inl h), rfl⟩
  | fraction => exact ⟨float, by simp [all], mem_float.2 (.inr (.inl h)), rfl⟩
  | exponential => exact ⟨float, by simp [all], mem_float.2 (.inr (.inr h)), rfl⟩
  | string => exact ⟨string, by simp [all], mem_string.2 h, rfl⟩
  | character => exact ⟨char, by simp [all], mem_char.2 h, rfl⟩
  | mark spelling kind =>
    cases h with
    | mark =>
      obtain ⟨⟨text, kind⟩, hm, rfl, rfl⟩ := exists_of_mark_mem_all hp
      exact ⟨spelled text kind, spelled_mem_all.2 (.inl hm), rfl, rfl⟩
  | _ => nomatch h

end Rule
end Lexical
end Bindery
