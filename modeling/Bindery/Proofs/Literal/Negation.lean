import Bindery.Proofs.Literal.Integer
import Bindery.TypeExpr.Reader
import Bindery.TypeExpr.Substitution

/-!
# Changing the sign of what is read

A minus in front of a literal, or of a template argument, changes the sign of the number behind it
in checked 64-bit arithmetic. The number behind it is read with a sign of its own, in front of its
digits or between them and the prefix of their base. So it may be the least number, whose opposite
does not fit: reading overflows there. It is that number only if its digits, a minus in front of
them, are those of the range's bound.

## Main definitions

* `Numeral.SpellsLeast`: the texts that are read as the least number.
* `Literal.negated?`, `TemplateArg.negated?`: the integer behind a minus.
* `Literal.numberTexts`: the texts that a literal has its numbers from.

## Main statements

* `Numeral.prefixed?_eq_least`: what is read as the least number.
* `Numeral.Reading.overflows_mapM_iff`: where a list of readings overflows.
* `Numeral.negated_least_iff`: when the least number is behind a minus, and reading overflows.
-/
namespace Bindery

namespace Numeral

variable {base : ℕ} {cs ds : List Char} {n m : Int}

/-! ## The least number -/

theorem fit?_eq_some_iff : fit? n = some m ↔ m = n ∧ minInt64 ≤ m ∧ m ≤ maxInt64 := by
  constructor
  · exact fit?_eq_some
  · rintro ⟨rfl, hmin, hmax⟩
    simp [fit?, hmin, hmax]

/-- Only a minus and the digits of the bound are read as the least number. -/
theorem read?_eq_least :
    read? base cs = some minInt64 ↔ ∃ ds, cs = '-' :: ds ∧ positional? base ds = some (2 ^ 63) := by
  have hnever (k? : Option ℕ) : (k?.bind fun k => fit? k) ≠ some minInt64 := by
    intro heq
    obtain ⟨k, -, hfit⟩ := Option.bind_eq_some_iff.1 heq
    have hleast : minInt64 = k := (fit?_eq_some_iff.1 hfit).1
    rw [minInt64] at hleast
    omega
  rw [read?.eq_def]
  split
  · next ds =>
    rw [digits?_eq_positional?, Option.bind_eq_some_iff]
    have hfit (k : ℕ) : fit? (-(k : Int)) = some minInt64 ↔ k = 2 ^ 63 := by
      rw [fit?_eq_some_iff, minInt64, maxInt64]
      omega
    simp [hfit]
  · simp [hnever]
  · next hminus _ =>
    refine iff_of_false (hnever _) ?_
    rintro ⟨ds, rfl, -⟩
    exact hminus ds rfl

/-- Digits of base sixteen behind their prefix, or of base ten. -/
def prefixed? : List Char → Option Int
  | '0' :: 'x' :: hex => read? 16 hex
  | '0' :: 'X' :: hex => read? 16 hex
  | digits => read? 10 digits

/-- The texts that are read as the least number: the sign may stand behind the prefix. -/
def SpellsLeast (cs : List Char) : Prop :=
  (∃ ds, cs = '-' :: ds ∧ positional? 10 ds = some (2 ^ 63)) ∨
    ∃ x ds, (x = 'x' ∨ x = 'X') ∧ cs = '0' :: x :: '-' :: ds ∧ positional? 16 ds = some (2 ^ 63)

theorem prefixed?_eq_least : prefixed? cs = some minInt64 ↔ SpellsLeast cs := by
  rw [prefixed?.eq_def, SpellsLeast]
  split
  · simp [read?_eq_least]
  · simp [read?_eq_least]
  · next hx hX =>
    rw [read?_eq_least, or_iff_left]
    rintro ⟨x, ds, rfl | rfl, rfl, -⟩
    · exact hx _ rfl
    · exact hX _ rfl

theorem dropSuffix_isPrefix (p : Char → Bool) (cs : List Char) : dropSuffix p cs <+: cs := by
  rw [← List.reverse_suffix, dropSuffix, List.reverse_reverse]
  exact List.dropWhile_suffix p

theorem prefixed?_dropSuffix_hex {p : Char → Bool} {x : Char} (hx : x = 'x' ∨ x = 'X')
    (h0 : p '0' = false) (hp : p x = false) (hex : List Char) :
    prefixed? (dropSuffix p ('0' :: x :: hex)) = read? 16 (dropSuffix p hex) := by
  rw [dropSuffix_cons h0, dropSuffix_cons hp]
  rcases hx with rfl | rfl <;> rfl

theorem prefixed?_dropSuffix_ten {p : Char → Bool} (hx : ∀ hex, cs ≠ '0' :: 'x' :: hex)
    (hX : ∀ hex, cs ≠ '0' :: 'X' :: hex) :
    prefixed? (dropSuffix p cs) = read? 10 (dropSuffix p cs) := by
  obtain ⟨rest, hrest⟩ := dropSuffix_isPrefix p cs
  rw [prefixed?.eq_def]
  split
  · next heq => exact absurd (by rw [← hrest, heq]; rfl) (hx _)
  · next heq => exact absurd (by rw [← hrest, heq]; rfl) (hX _)
  · rfl

/-- What is read fits. -/
theorem read?_mem_range (h : read? base cs = some n) : minInt64 ≤ n ∧ n ≤ maxInt64 := by
  rw [read?.eq_def] at h
  split at h <;>
    · obtain ⟨k, -, hfit⟩ := Option.bind_eq_some_iff.1 h
      exact (fit?_eq_some hfit).2

theorem prefixed?_mem_range (h : prefixed? cs = some n) : minInt64 ≤ n ∧ n ≤ maxInt64 := by
  rw [prefixed?.eq_def] at h
  split at h <;> exact read?_mem_range h

theorem toInt_ofInt (h : minInt64 ≤ n ∧ n ≤ maxInt64) : (Int64.ofInt n).toInt = n :=
  Int64.toInt_ofInt_of_le h.1 (Int.lt_add_one_of_le h.2)

theorem map_ofInt_eq_minValue {n? : Option Int} (h : ∀ n ∈ n?, minInt64 ≤ n ∧ n ≤ maxInt64) :
    n?.map Int64.ofInt = some Int64.minValue ↔ n? = some minInt64 := by
  rw [Option.map_eq_some_iff]
  constructor
  · rintro ⟨n, hn, hleast⟩
    have hvalue : n = minInt64 := by
      rw [← toInt_ofInt (h n hn), hleast]
      rfl
    rw [hn, hvalue]
  · intro hn
    exact ⟨minInt64, hn, rfl⟩

/-- Every number but the least has its opposite. -/
theorem toInt_neg_of_ne {i : Int64} (h : i ≠ Int64.minValue) : (-i).toInt = -i.toInt := by
  have hne : i.toInt ≠ Int64.minValue.toInt := fun heq => h (Int64.toInt_inj.1 heq)
  have hleast : Int64.minValue.toInt = -2 ^ 63 := rfl
  have hmin := i.le_toInt
  have hmax := i.toInt_lt
  rw [Int64.toInt_neg, Int.bmod_eq_of_le_mul_two] <;> omega

theorem negate_of_ne {i : Int64} (h : i ≠ Int64.minValue) : negate i = .ok (-i) := if_neg h

namespace Reading

variable {α β : Type}

/-- Behind a minus only the least number overflows. -/
theorem overflows_mapM_negate {i? : Option Int64} {f : Int64 → α} :
    overflows (OptionT.mk (i?.mapM fun i => (negate i).map f)) = true ↔
      i? = some Int64.minValue := by
  cases i? with
  | none => exact iff_of_false Bool.false_ne_true (Option.some_ne_none _).symm
  | some i =>
    rw [Option.some_inj]
    by_cases hi : i = Int64.minValue
    · subst hi
      exact iff_of_true rfl rfl
    · refine iff_of_false ?_ hi
      rw [Option.mapM_some, negate_of_ne hi]
      exact Bool.false_ne_true

theorem overflows_bind {r : Reading α} {next : α → Reading β} : (r >>= next).overflows = true ↔
    r.overflows = true ∨ ∃ a, r.value? = some a ∧ (next a).overflows = true := by
  rcases r with _ | _ | a
  · exact iff_of_true rfl (.inl rfl)
  · refine iff_of_false Bool.false_ne_true ?_
    rintro (h | ⟨a, h, -⟩) <;> cases h
  · have hvalue : value? (.ok (some a) : Except Overflow (Option α)) = some a := rfl
    constructor
    · exact fun h => .inr ⟨a, hvalue, h⟩
    · rintro (h | ⟨b, hb, h⟩)
      · cases h
      · rwa [← Option.some_inj.1 (hvalue.symm.trans hb)] at h

/-- Readings in a row overflow at the first that gives no value, if that one does. -/
theorem overflows_mapM_iff {read : α → Reading β} {items : List α} :
    (items.mapM read).overflows = true ↔ ∃ front a back, items = front ++ a :: back ∧
      (∀ b ∈ front, ∃ v, (read b).value? = some v) ∧ (read a).overflows = true := by
  induction items with
  | nil => exact iff_of_false Bool.false_ne_true (by simp)
  | cons a items ih =>
    have hrest (v : β) :
        (do let vs ← items.mapM read; pure (v :: vs) : Reading (List β)).overflows = true ↔
          (items.mapM read).overflows = true := by
      rw [overflows_bind, or_iff_left]
      rintro ⟨vs, -, hpure⟩
      cases hpure
    simp only [List.mapM_cons, overflows_bind, hrest, ih]
    constructor
    · rintro (ha | ⟨v, hv, front, b, back, rfl, hfront, hb⟩)
      · exact ⟨[], a, items, rfl, by simp, ha⟩
      · exact ⟨a :: front, b, back, rfl, List.forall_mem_cons.2 ⟨⟨v, hv⟩, hfront⟩, hb⟩
    · rintro ⟨front, b, back, hitems, hfront, hb⟩
      cases front with
      | nil =>
        obtain ⟨rfl, rfl⟩ := List.cons.inj hitems
        exact .inl hb
      | cons c front =>
        obtain ⟨rfl, rfl⟩ := List.cons.inj hitems
        obtain ⟨⟨v, hv⟩, hfront⟩ := List.forall_mem_cons.1 hfront
        exact .inr ⟨v, hv, front, b, back, rfl, hfront, hb⟩

end Reading

end Numeral

/-! ## The sign of a literal -/

namespace Literal

open Numeral

variable {cs : List Char}

theorem integer?_eq_least {base : ℕ} : integer? base cs = some Int64.minValue ↔
    Numeral.read? base (dropSuffix isIntSuffix cs) = some minInt64 :=
  map_ofInt_eq_minValue fun _ hn => read?_mem_range hn

theorem magnitude?_eq_least :
    magnitude? cs = some (.int Int64.minValue) ↔ SpellsLeast (dropSuffix isIntSuffix cs) := by
  rw [← prefixed?_eq_least, Literal.magnitude?.eq_def]
  split
  · rw [prefixed?_dropSuffix_hex (.inl rfl) rfl rfl]
    simp [integer?_eq_least]
  · rw [prefixed?_dropSuffix_hex (.inr rfl) rfl rfl]
    simp [integer?_eq_least]
  · next hx hX =>
    rw [prefixed?_dropSuffix_ten (fun hex heq => hx hex heq) fun hex heq => hX hex heq]
    split
    · next hmark =>
      -- The mark of a floating-point number is kept, and is no digit.
      refine iff_of_false (by simp) fun hread => ?_
      obtain ⟨ds, hds, hdigits⟩ := read?_eq_least.1 hread
      obtain ⟨c, hc, hcmark⟩ := List.any_eq_true.1 hmark
      simp only [Bool.or_eq_true, decide_eq_true_eq] at hcmark
      have hkept : c ∈ '-' :: ds := by
        rw [← hds]
        exact mem_dropSuffix hc (by rcases hcmark with (rfl | rfl) | rfl <;> rfl)
      have hmem : c ∈ ds := by
        refine (List.mem_cons.1 hkept).resolve_left ?_
        rcases hcmark with (rfl | rfl) | rfl <;> decide
      have hnone : digitIn? 10 c = none := by rcases hcmark with (rfl | rfl) | rfl <;> rfl
      rw [positional?_eq_none hmem hnone] at hdigits
      cases hdigits
    · simp [integer?_eq_least]

/-- The integer whose sign is changed when a number is read. -/
def negated? : List Char → Option Int64
  | '-' :: cs => (magnitude? (Text.trimFront cs)).bind HostValue.int?
  | _ => none

/-- What is read from an integer behind a minus. -/
theorem number_of_negated? {i : Int64} (h : negated? cs = some i) :
    number cs = OptionT.mk ((some i).mapM fun i => (Numeral.negate i).map .int) := by
  rw [negated?.eq_def] at h
  split at h
  · next cs =>
    obtain ⟨v, hv, hint⟩ := Option.bind_eq_some_iff.1 h
    rw [number, hv]
    cases v <;> cases hint
    rfl
  · cases h

theorem overflows_mapM_sign {v? : Option HostValue} :
    Reading.overflows (OptionT.mk (v?.mapM negate)) = true ↔
      v?.bind HostValue.int? = some Int64.minValue := by
  have hnone : (none : Option Int64) ≠ some Int64.minValue := (Option.some_ne_none _).symm
  rcases v? with _ | v
  · exact iff_of_false Bool.false_ne_true hnone
  · cases v with
    | int i =>
      have hint : Reading.overflows (OptionT.mk ((some i).mapM fun i =>
          (Numeral.negate i).map HostValue.int)) = true ↔ some i = some Int64.minValue :=
        Reading.overflows_mapM_negate
      exact hint
    | _ => exact iff_of_false Bool.false_ne_true hnone

/-- A number overflows just if the least one is behind its minus. -/
theorem overflows_number : (number cs).overflows = true ↔ negated? cs = some Int64.minValue := by
  rw [negated?.eq_def]
  split
  · rw [number, overflows_mapM_sign]
  · next hminus =>
    refine iff_of_false ?_ (Option.some_ne_none _).symm
    rw [number.eq_def]
    split
    · exact absurd rfl (hminus _)
    · exact Bool.false_ne_true
    · exact Bool.false_ne_true

theorem negated?_eq_least : negated? cs = some Int64.minValue ↔
    ∃ ds, cs = '-' :: ds ∧ SpellsLeast (dropSuffix isIntSuffix (Text.trimFront ds)) := by
  rw [negated?.eq_def]
  split
  · next ds =>
    have hint (v : HostValue) : v.int? = some Int64.minValue ↔ v = .int Int64.minValue := by
      cases v <;> simp [HostValue.int?]
    simp [Option.bind_eq_some_iff, hint, ← magnitude?_eq_least]
  · next hminus =>
    refine iff_of_false (by simp) ?_
    rintro ⟨ds, rfl, -⟩
    exact hminus ds rfl

/-- The texts that a literal has its numbers from: the parts of a list in braces, or the whole of
what is neither a name nor quoted. -/
def numberTexts (text : String) : List (List Char) :=
  let cs := Text.trimChars text.toList
  match between? '\x7b' '\x7d' cs with
  | some inner =>
    if inner.contains '\x7b' then []
    else ((splitCommas inner).map Text.trimChars).filter (!·.isEmpty)
  | none =>
    if cs ∈ ["true".toList, "false".toList, "nullptr".toList] ∨ (between? '"' '"' cs).isSome ∨
      (between? '\'' '\'' cs).isSome then [] else [cs]

theorem overflows_list {cs : List Char} : (list cs).overflows = true ↔
    cs.contains '\x7b' = false ∧
      ((((splitCommas cs).map Text.trimChars).filter (!·.isEmpty)).mapM number).overflows =
        true := by
  have hmap (r : Reading (List HostValue)) : (arrayOf <$> r).overflows = r.overflows := by
    rcases r with _ | _ | items <;> rfl
  rw [list]
  split
  · next hnested => exact iff_of_false Bool.false_ne_true (by simp only [hnested]; simp)
  · next hflat => rw [hmap, and_iff_right (Bool.eq_false_iff.2 hflat)]

/-- A literal overflows where its numbers do. -/
theorem overflows_read {text : String} :
    (read text).overflows = true ↔ ((numberTexts text).mapM number).overflows = true := by
  have hsingle (cs : List Char) :
      ([cs].mapM number).overflows = true ↔ (number cs).overflows = true := by
    rw [List.mapM_cons, Reading.overflows_bind, or_iff_left]
    rintro ⟨v, -, h⟩
    cases h
  rw [read, numberTexts]
  cases hbraced : between? '\x7b' '\x7d' (Text.trimChars text.toList) with
  | some inner =>
    simp only [overflows_list]
    cases hflat : inner.contains '\x7b' with
    | true => exact iff_of_false (by simp) Bool.false_ne_true
    | false => simp
  | none =>
    dsimp only
    by_cases hnumber :
      Text.trimChars text.toList ∈ ["true".toList, "false".toList, "nullptr".toList] ∨
        (between? '"' '"' (Text.trimChars text.toList)).isSome ∨
        (between? '\'' '\'' (Text.trimChars text.toList)).isSome
    · rw [if_pos hnumber]
      refine iff_of_false ?_ Bool.false_ne_true
      simp only [List.mem_cons, List.not_mem_nil, or_false] at hnumber
      split_ifs
      · exact Bool.false_ne_true
      · exact Bool.false_ne_true
      · exact Bool.false_ne_true
      · split
        · exact Bool.false_ne_true
        · split
          · exact Bool.false_ne_true
          · exact Bool.false_ne_true
          · simp_all
    · rw [if_neg hnumber, hsingle]
      obtain ⟨hname, hquoted, hchar⟩ : _ ∧ _ ∧ _ := by simpa only [not_or] using hnumber
      simp_all

end Literal

/-! ## The sign of a template argument -/

namespace TemplateArg

open Numeral

/-- The integer whose sign is changed when an argument is read. -/
def negated? : TemplateArg → Option Int64
  | value text =>
    match text.toList with
    | '-' :: digits =>
      (Numeral.magnitude? (dropSuffix Pattern.isIntSuffix digits)).map Int64.ofInt
    | _ => none
  | type _ => none

theorem negated?_eq_some {a : TemplateArg} {i : Int64} : a.negated? = some i ↔
    ∃ ds, a = .value (String.ofList ('-' :: ds)) ∧
      (Numeral.magnitude? (dropSuffix Pattern.isIntSuffix ds)).map Int64.ofInt = some i := by
  cases a with
  | type t => exact iff_of_false (by simp [negated?]) (by simp)
  | value text =>
    rw [negated?]
    constructor
    · intro h
      split at h
      · next ds htext => exact ⟨ds, by rw [← htext, String.ofList_toList], h⟩
      · cases h
    · rintro ⟨ds, htext, h⟩
      rw [value.inj htext, String.toList_ofList]
      exact h

theorem readInteger_minus (ds : List Char) : readInteger ('-' :: ds) =
    OptionT.mk (((Numeral.magnitude? (dropSuffix Pattern.isIntSuffix ds)).map Int64.ofInt).mapM
      fun i => (negate i).map Int64.toInt) := by
  have hread : readInteger ('-' :: ds) =
      OptionT.mk ((Numeral.magnitude? (dropSuffix Pattern.isIntSuffix ds)).mapM fun n =>
        (negate (Int64.ofInt n)).map Int64.toInt) := rfl
  rw [hread]
  cases Numeral.magnitude? (dropSuffix Pattern.isIntSuffix ds) <;> rfl

/-- What is read from an integer behind a minus. -/
theorem integer_of_negated? {a : TemplateArg} {i : Int64} (h : a.negated? = some i) :
    a.integer = OptionT.mk ((some i).mapM fun i => (negate i).map Int64.toInt) := by
  obtain ⟨ds, rfl, hds⟩ := negated?_eq_some.1 h
  rw [integer, String.toList_ofList, readInteger_minus, hds]

/-- An argument overflows just if the least number is behind its minus. -/
theorem overflows_integer {a : TemplateArg} :
    a.integer.overflows = true ↔ a.negated? = some Int64.minValue := by
  have hnone : (none : Option Int64) ≠ some Int64.minValue := (Option.some_ne_none _).symm
  cases a with
  | type t => exact iff_of_false Bool.false_ne_true hnone
  | value text =>
    rw [negated?]
    split
    · next ds htext =>
      rw [integer, htext, readInteger_minus, Reading.overflows_mapM_negate]
    · next hminus =>
      refine iff_of_false ?_ hnone
      rw [integer, readInteger.eq_def]
      split
      · next htext => exact absurd htext (hminus _)
      · exact Bool.false_ne_true

theorem negated?_eq_least {a : TemplateArg} : a.negated? = some Int64.minValue ↔
    ∃ ds, a = .value (String.ofList ('-' :: ds)) ∧
      SpellsLeast ((dropSuffix Pattern.isIntSuffix ds).filter (· ≠ '\'')) := by
  have hleast (ds : List Char) :
      (Numeral.magnitude? (dropSuffix Pattern.isIntSuffix ds)).map Int64.ofInt =
        some Int64.minValue ↔
      SpellsLeast ((dropSuffix Pattern.isIntSuffix ds).filter (· ≠ '\'')) := by
    have hread : Numeral.magnitude? (dropSuffix Pattern.isIntSuffix ds) =
      prefixed? ((dropSuffix Pattern.isIntSuffix ds).filter (· ≠ '\'')) := rfl
    rw [hread, map_ofInt_eq_minValue fun _ hn => prefixed?_mem_range hn, prefixed?_eq_least]
  simp only [negated?_eq_some, hleast]

end TemplateArg

namespace Numeral

/-- The least number stands behind a minus just if its own sign and digits do, and reading overflows
there and nowhere else. Every other number behind a minus is read with the sign changed. -/
theorem negated_least_iff (text : String) (a : TemplateArg) :
    ((Literal.read text).overflows = true ↔
      ∃ front ds back, Literal.numberTexts text = front ++ ('-' :: ds) :: back ∧
        (∀ cs ∈ front, ∃ v, (Literal.number cs).value? = some v) ∧
        SpellsLeast (dropSuffix Literal.isIntSuffix (Text.trimFront ds))) ∧
    (∀ cs i, Literal.negated? cs = some i → i ≠ Int64.minValue →
      ∃ j, (Literal.number cs).value? = some (.int j) ∧ j.toInt = -i.toInt) ∧
    (a.integer.overflows = true ↔
      ∃ ds, a = .value (String.ofList ('-' :: ds)) ∧
        SpellsLeast ((dropSuffix Pattern.isIntSuffix ds).filter (· ≠ '\''))) ∧
    (∀ i, a.negated? = some i → i ≠ Int64.minValue → a.integer? = some (-i.toInt)) := by
  refine ⟨?_, fun cs i hi hne => ⟨-i, ?_, toInt_neg_of_ne hne⟩, ?_, fun i hi hne => ?_⟩
  · rw [Literal.overflows_read, Reading.overflows_mapM_iff]
    simp only [Literal.overflows_number, Literal.negated?_eq_least]
    constructor
    · rintro ⟨front, _, back, htexts, hfront, ds, rfl, hleast⟩
      exact ⟨front, ds, back, htexts, hfront, hleast⟩
    · rintro ⟨front, ds, back, htexts, hfront, hleast⟩
      exact ⟨front, _, back, htexts, hfront, ds, rfl, hleast⟩
  · rw [Literal.number_of_negated? hi, Option.mapM_some, negate_of_ne hne]
    rfl
  · rw [TemplateArg.overflows_integer, TemplateArg.negated?_eq_least]
  · rw [TemplateArg.integer?, TemplateArg.integer_of_negated? hi, Option.mapM_some,
      negate_of_ne hne, ← toInt_neg_of_ne hne]
    rfl

/-- The least number is negated where a second minus stands behind the first: in a literal, in an
argument where a quote comes between the two, and in an argument behind a substitution. Reading
overflows, and gives no answer. -/
theorem negated_least :
    Literal.numberTexts "--9223372036854775808" = ["--9223372036854775808".toList] ∧
    Literal.negated? "--9223372036854775808".toList = some Int64.minValue ∧
    (Literal.read "--9223372036854775808").overflows = true ∧
    (∃ a, TemplateArg.parse "-'-9223372036854775808'" = .ok a ∧
      a.negated? = some Int64.minValue ∧ a.integer.overflows = true) ∧
    ∃ a b, TemplateArg.parse "-N" = .ok a ∧ TemplateArg.parse "-9223372036854775808" = .ok b ∧
      (a.substitute (.ofList [("N", b)])).negated? = some Int64.minValue ∧
      (a.substitute (.ofList [("N", b)])).integer.overflows = true :=
  ⟨by decide +kernel, by decide +kernel, by decide +kernel,
    ⟨.value "-'-9223372036854775808'", by decide +kernel, by decide +kernel, by decide +kernel⟩,
    .value "-N", .value "-9223372036854775808", by decide +kernel, by decide +kernel,
    by decide +kernel, by decide +kernel⟩

end Numeral
end Bindery
