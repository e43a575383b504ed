import Mathlib.Data.List.DropRight
import Mathlib.Data.List.Induction
import Mathlib.Data.Prod.Lex
import Mathlib.Data.Nat.SuccPred
import Mathlib.Order.Interval.Set.Monotone
import Bindery.Position

/-!
# Lines and columns

The line of an offset is the number of newlines among the bytes before it, and its column the
number of bytes behind the last of these. The index knows the starts of the lines only and finds
the line by halving. The starts ascend from zero on, so there always is a line to be found, and
it starts at the offset or in front of it.

## Main definitions

* `bytesBefore`: the bytes of a text in front of an offset.
* `Position.order`: positions are ordered by line and then by column.

## Main statements

* `LineIndex.lineOf_eq`: halving ends at the last line that starts up to the offset.
* `LineIndex.position_counts`: the position of an offset counts newlines and bytes.
-/
namespace Bindery

/-! ## Bytes of a text -/

/-- The byte that ends a line. -/
def newline : UInt8 := 10

/-- The bytes of some characters. -/
def encoded (cs : List Char) : List UInt8 := cs.flatMap String.utf8EncodeChar

/-- The bytes of a text in front of an offset. -/
def bytesBefore (text : String) (offset : ℕ) : List UInt8 := (utf8Bytes text).take offset

@[simp] theorem encoded_nil : encoded [] = [] := rfl

@[simp] theorem encoded_cons (c : Char) (cs : List Char) :
    encoded (c :: cs) = String.utf8EncodeChar c ++ encoded cs := rfl

@[simp] theorem encoded_append (xs ys : List Char) :
    encoded (xs ++ ys) = encoded xs ++ encoded ys := List.flatMap_append

theorem utf8Bytes_eq (text : String) : utf8Bytes text = encoded text.toList := by
  rw [utf8Bytes, ← String.utf8Encode_toList]
  simp [List.utf8Encode, encoded]

theorem length_encoded (cs : List Char) : (encoded cs).length = byteLength cs := by
  induction cs with
  | nil => rfl
  | cons c cs ih => simp [ih]

@[simp] theorem encodeChar_newline : String.utf8EncodeChar '\n' = [newline] := rfl

/-- A newline is no part of another character. -/
theorem newline_not_mem_encodeChar {c : Char} (h : c ≠ '\n') :
    newline ∉ String.utf8EncodeChar c := by
  have hval : c.val.toNat ≠ 10 := by
    intro hc
    exact h (Char.ext (UInt32.toNat_inj.1 hc))
  have hbyte (n : ℕ) (hn : newline = UInt8.ofNat n) : n % 256 = 10 := by
    simpa [newline] using (congrArg UInt8.toNat hn).symm
  intro hmem
  rw [String.utf8EncodeChar] at hmem
  -- Every byte of a longer form has its highest bit set.
  split_ifs at hmem with hone htwo hthree
  · have := hbyte _ (List.mem_singleton.1 hmem)
    omega
  · simp only [List.mem_cons, List.not_mem_nil, or_false] at hmem
    rcases hmem with hmem | hmem <;> have := hbyte _ hmem <;> omega
  · simp only [List.mem_cons, List.not_mem_nil, or_false] at hmem
    rcases hmem with hmem | hmem | hmem <;> have := hbyte _ hmem <;> omega
  · simp only [List.mem_cons, List.not_mem_nil, or_false] at hmem
    rcases hmem with hmem | hmem | hmem | hmem <;> have := hbyte _ hmem <;> omega

/-- The newlines among the bytes are those among the characters. -/
theorem count_encoded (cs : List Char) : (encoded cs).count newline = cs.count '\n' := by
  induction cs with
  | nil => rfl
  | cons c cs ih =>
    rw [encoded_cons, List.count_append, ih]
    by_cases hc : c = '\n'
    · subst hc
      rw [encodeChar_newline, List.count_singleton_self, List.count_cons_self, Nat.add_comm]
    · rw [List.count_eq_zero.2 (newline_not_mem_encodeChar hc), List.count_cons_of_ne hc,
        Nat.zero_add]

/-! ## Starts of lines -/

namespace LineIndex

/-- The offsets just behind each newline, for bytes that start at `offset`. -/
def startsBehind (offset : ℕ) : List UInt8 → List ℕ
  | [] => []
  | b :: bs =>
    if b = newline then (offset + 1) :: startsBehind (offset + 1) bs
    else startsBehind (offset + 1) bs

variable {offset : ℕ}

theorem startsBehind_append (front back : List UInt8) :
    startsBehind offset (front ++ back) =
      startsBehind offset front ++ startsBehind (offset + front.length) back := by
  induction front generalizing offset with
  | nil => rfl
  | cons b front ih =>
    have hlength : offset + 1 + front.length = offset + (b :: front).length := by
      simp only [List.length_cons]
      omega
    simp only [List.cons_append, startsBehind, ih, hlength]
    split <;> rfl

/-- Where there is no newline, no line starts. -/
theorem startsBehind_of_not_mem {bs : List UInt8} (h : newline ∉ bs) :
    startsBehind offset bs = [] := by
  induction bs generalizing offset with
  | nil => rfl
  | cons b bs ih =>
    simp only [List.mem_cons, not_or] at h
    rw [startsBehind, if_neg (Ne.symm h.1), ih h.2]

/-- A line starts behind the start of the bytes and not behind their end. -/
theorem startsBehind_bounds {start : ℕ} {bs : List UInt8} (h : start ∈ startsBehind offset bs) :
    offset < start ∧ start ≤ offset + bs.length := by
  induction bs generalizing offset with
  | nil => simp [startsBehind] at h
  | cons b bs ih =>
    rw [startsBehind] at h
    rw [List.length_cons]
    split at h
    · rcases List.mem_cons.1 h with rfl | h
      · omega
      · have := ih h
        omega
    · have := ih h
      omega

/-- Lines start one behind the other. -/
theorem pairwise_startsBehind (bs : List UInt8) :
    (offset :: startsBehind offset bs).Pairwise (· < ·) := by
  induction bs generalizing offset with
  | nil => simp [startsBehind]
  | cons b bs ih =>
    refine List.pairwise_cons.2 ⟨?_, ?_⟩
    · intro start hstart
      exact (startsBehind_bounds hstart).1
    · rw [startsBehind]
      split
      · exact ih
      · exact (List.pairwise_cons.1 ih).2

/-- The starts of lines can be read off the bytes. -/
theorem startsAfter_eq (cs : List Char) :
    startsAfter offset cs = startsBehind offset (encoded cs) := by
  induction cs generalizing offset with
  | nil => rfl
  | cons c cs ih =>
    rw [encoded_cons, startsBehind_append, String.length_utf8EncodeChar, ← ih, startsAfter]
    by_cases hc : c = '\n'
    · subst hc
      rfl
    · rw [if_neg hc, startsBehind_of_not_mem (newline_not_mem_encodeChar hc), List.nil_append]

theorem starts_eq (text : String) :
    (ofText text).starts = 0 :: startsBehind 0 (utf8Bytes text) := by
  rw [starts_ofText, startsAfter_eq, utf8Bytes_eq]

theorem size_eq (text : String) : (ofText text).size = (utf8Bytes text).length := by
  rw [utf8Bytes_eq, length_encoded]
  rfl

/-- The lines that start up to the end of a front start in it. -/
theorem takeWhile_startsBehind (front back : List UInt8) :
    (0 :: startsBehind 0 (front ++ back)).takeWhile (· ≤ front.length) =
      0 :: startsBehind 0 front := by
  have hfront : ∀ start ∈ startsBehind 0 front, decide (start ≤ front.length) = true := by
    intro start hstart
    have := startsBehind_bounds hstart
    simpa using this.2
  have hback : (startsBehind front.length back).takeWhile (· ≤ front.length) = [] := by
    cases hstarts : startsBehind front.length back with
    | nil => rfl
    | cons start rest =>
      have hmem : start ∈ startsBehind front.length back := hstarts ▸ List.mem_cons_self
      exact List.takeWhile_cons_of_neg (by simpa using (startsBehind_bounds hmem).1)
  rw [List.takeWhile_cons_of_pos (by simp), startsBehind_append, Nat.zero_add,
    List.takeWhile_append_of_pos hfront, hback, List.append_nil]

/-- There is one line more than newlines. -/
theorem length_startsBehind (bs : List UInt8) :
    (startsBehind offset bs).length = bs.count newline := by
  induction bs generalizing offset with
  | nil => rfl
  | cons b bs ih =>
    rw [startsBehind]
    by_cases hb : b = newline
    · simp [hb, ih]
    · simp [hb, ih]

/-- The last line of some bytes starts behind their last newline. -/
theorem getLastD_startsBehind (bs : List UInt8) :
    (0 :: startsBehind 0 bs).getLastD 0 + (bs.rtakeWhile (· ≠ newline)).length = bs.length := by
  induction bs using List.reverseRecOn with
  | nil => rfl
  | append_singleton bs b ih =>
    rw [startsBehind_append, Nat.zero_add, List.length_append, List.length_singleton]
    by_cases hb : b = newline
    · have hend : startsBehind bs.length [b] = [bs.length + 1] := by simp [startsBehind, hb]
      rw [hend, ← List.cons_append, List.getLastD_concat,
        List.rtakeWhile_concat_neg _ _ _ (by simp [hb])]
      rfl
    · have hend : startsBehind bs.length [b] = [] := by simp [startsBehind, hb]
      rw [hend, List.append_nil, List.rtakeWhile_concat_pos _ _ _ (by simp [hb]),
        List.length_append, ← Nat.add_assoc, ih]
      rfl

/-! ## Halving -/

section Halving

variable {starts : List ℕ}

/-- In an ascending list, what is not behind the offset is what stands in front. -/
theorem getD_le_iff (h : starts.Pairwise (· ≤ ·)) {place : ℕ} (hplace : place < starts.length) :
    starts.getD place 0 ≤ offset ↔ place < (starts.takeWhile (· ≤ offset)).length := by
  induction starts generalizing place with
  | nil => simp at hplace
  | cons start starts ih =>
    obtain ⟨hstart, hrest⟩ := List.pairwise_cons.1 h
    by_cases hle : start ≤ offset
    · rw [List.takeWhile_cons_of_pos (by simpa using hle)]
      cases place with
      | zero => simpa using hle
      | succ place => simpa using ih hrest (by simpa using hplace)
    · rw [List.takeWhile_cons_of_neg (by simpa using hle)]
      -- Nothing that stands behind a start behind the offset can be up to it.
      cases place with
      | zero => simpa using hle
      | succ place =>
        have hlength : place < starts.length := by simpa using hplace
        have hbehind := hstart _ (List.getElem_mem hlength)
        have hget : (start :: starts).getD (place + 1) 0 = starts[place] := by simp [hlength]
        simp only [hget, List.length_nil, Nat.not_lt_zero, iff_false]
        omega

/-- Halving keeps the last start up to the offset among the places that are left. -/
theorem halve_eq (h : starts.Pairwise (· ≤ ·)) {base size : ℕ}
    (hsize : base + size ≤ starts.length)
    (hbase : base < (starts.takeWhile (· ≤ offset)).length)
    (hend : (starts.takeWhile (· ≤ offset)).length ≤ base + size) :
    halve starts offset base size = (starts.takeWhile (· ≤ offset)).length - 1 := by
  induction size using Nat.strong_induction_on generalizing base with
  | h size ih =>
    rw [halve]
    split
    · omega
    · have hmiddle : starts.getD (base + size / 2) 0 ≤ offset ↔
          base + size / 2 < (starts.takeWhile (· ≤ offset)).length := getD_le_iff h (by omega)
      dsimp only
      split
      · apply ih <;> omega
      · apply ih <;> omega

/-- Halving counts the starts up to an offset. -/
theorem countUpTo_eq (h : starts.Pairwise (· ≤ ·))
    (hfirst : 0 < (starts.takeWhile (· ≤ offset)).length) :
    countUpTo starts offset = (starts.takeWhile (· ≤ offset)).length := by
  have hfront : starts.takeWhile (· ≤ offset) <+: starts := List.takeWhile_prefix _
  have hlength := hfront.length_le
  have hall : ∀ start ∈ starts.takeWhile (· ≤ offset), start ≤ offset := fun start hstart => by
    simpa using List.mem_takeWhile_imp hstart
  have hplace : halve starts offset 0 starts.length =
      (starts.takeWhile (· ≤ offset)).length - 1 := halve_eq h (by omega) hfirst (by omega)
  obtain ⟨n, hn⟩ : ∃ n, (starts.takeWhile (· ≤ offset)).length = n + 1 :=
    Nat.exists_eq_succ_of_ne_zero (Nat.ne_of_gt hfirst)
  have hlt : n < (starts.takeWhile (· ≤ offset)).length := by omega
  have hget := List.prefix_iff_getElem?.1 hfront n hlt
  rw [hn, Nat.add_sub_cancel] at hplace
  simp only [countUpTo, hplace, hget, if_pos (hall _ (List.getElem_mem hlt)), hn]

end Halving

/-! ## Positions -/

section Positions

variable (text : String) (offset : ℕ)

/-- An offset past the end is taken as the end. -/
theorem min_size : min offset (ofText text).size = (bytesBefore text offset).length := by
  rw [size_eq, bytesBefore, List.length_take]

theorem takeWhile_starts :
    (ofText text).starts.takeWhile (· ≤ (bytesBefore text offset).length) =
      0 :: startsBehind 0 (bytesBefore text offset) := by
  have h := takeWhile_startsBehind (bytesBefore text offset) ((utf8Bytes text).drop offset)
  rwa [bytesBefore, List.take_append_drop, ← starts_eq] at h

/-- The line with as many newlines in front of it as there are before the offset starts behind
the last of them. -/
theorem exists_start : ∃ start,
    (ofText text).starts[(bytesBefore text offset).count newline]? = some start ∧
      start + ((bytesBefore text offset).rtakeWhile (· ≠ newline)).length =
        (bytesBefore text offset).length := by
  let reached := 0 :: startsBehind 0 (bytesBefore text offset)
  have hfront : reached <+: (ofText text).starts := by
    have h := List.takeWhile_prefix (l := (ofText text).starts)
      (fun start => decide (start ≤ (bytesBefore text offset).length))
    rwa [takeWhile_starts] at h
  have hlength : (bytesBefore text offset).count newline = reached.length - 1 := by
    rw [List.length_cons, Nat.add_sub_cancel, length_startsBehind]
  have hlast : reached[reached.length - 1]? = some (reached.getLastD 0) := by
    rw [← List.getLast?_eq_getElem?, List.getLastD_eq_getLast?]
    rfl
  obtain ⟨hplace, hget⟩ := List.getElem?_eq_some_iff.1 hlast
  refine ⟨reached.getLastD 0, ?_, getLastD_startsBehind _⟩
  rw [hlength, List.prefix_iff_getElem?.1 hfront _ hplace, hget]

/-- The offset itself is found where a line starts at it. Elsewhere its place is behind the line
that it is in. -/
theorem search_eq : (ofText text).search (bytesBefore text offset).length =
    if (bytesBefore text offset).rtakeWhile (· ≠ newline) = [] then
      .found ((bytesBefore text offset).count newline)
    else .missing ((bytesBefore text offset).count newline + 1) := by
  obtain ⟨start, hstart, hcol⟩ := exists_start text offset
  have hreached := congrArg List.length (takeWhile_starts text offset)
  rw [List.length_cons, length_startsBehind] at hreached
  have hascending : (ofText text).starts.Pairwise (· < ·) := by
    rw [starts_eq]
    exact pairwise_startsBehind _
  have hle := (List.takeWhile_prefix (l := (ofText text).starts)
    (fun start => decide (start ≤ (bytesBefore text offset).length))).length_le
  have hplace : halve (ofText text).starts (bytesBefore text offset).length 0
      (ofText text).starts.length = (bytesBefore text offset).count newline := by
    rw [halve_eq (hascending.imp Nat.le_of_lt) (by omega) (by omega) (by omega), hreached,
      Nat.add_sub_cancel]
  simp only [search, hplace, hstart]
  by_cases hempty : (bytesBefore text offset).rtakeWhile (· ≠ newline) = []
  · rw [hempty, List.length_nil, Nat.add_zero] at hcol
    rw [if_pos hempty, if_pos hcol]
  · have hpos := List.length_pos_iff.2 hempty
    rw [if_neg hempty, if_neg (by omega), if_pos (by omega)]

/-- Halving ends at the last line that starts up to the offset. -/
theorem lineOf_eq : (ofText text).lineOf (bytesBefore text offset).length =
    (bytesBefore text offset).count newline := by
  rw [lineOf, search_eq]
  split_ifs <;> rfl

theorem position_eq : (ofText text).position offset =
    ⟨(bytesBefore text offset).count newline,
      ((bytesBefore text offset).rtakeWhile (· ≠ newline)).length⟩ := by
  obtain ⟨start, hstart, hcol⟩ := exists_start text offset
  have hget : (ofText text).starts.getD ((bytesBefore text offset).count newline) 0 = start := by
    rw [List.getD_eq_getElem?_getD, hstart, Option.getD_some]
  simp only [position, min_size, lineOf_eq, hget]
  congr 1
  omega

end Positions

end LineIndex

/-! ## Order -/

/-- Positions are ordered by line and then by column. -/
def Position.order (p : Position) : ℕ ×ₗ ℕ := toLex (p.line, p.col)

namespace LineIndex

/-- One byte further on in the text is further on in the order of positions. -/
theorem order_position_lt (text : String) {offset : ℕ} (h : offset < (utf8Bytes text).length) :
    ((ofText text).position offset).order < ((ofText text).position (offset + 1)).order := by
  have hnext : bytesBefore text (offset + 1) =
      bytesBefore text offset ++ [(utf8Bytes text)[offset]] :=
    (List.take_append_getElem h).symm
  rw [position_eq, position_eq, hnext, Position.order, Position.order, Prod.Lex.toLex_lt_toLex]
  by_cases hbyte : (utf8Bytes text)[offset] = newline
  · left
    simp [hbyte]
  · right
    simp [hbyte, List.rtakeWhile_concat_pos]

theorem strictMonoOn_position (text : String) :
    StrictMonoOn (fun offset => ((ofText text).position offset).order)
      (Set.Iic (utf8Bytes text).length) :=
  strictMonoOn_Iic_of_lt_succ fun _ h => order_position_lt text h

/-- **The position of an offset** counts newlines and bytes: its line is the number of newlines
among the bytes before it, and its column the number of bytes behind the last of these. To find it
nothing is taken from less: the place of an offset at which no line starts is not in front of all
starts, and the line that is found starts at the offset or in front of it. Positions ascend with
the offsets, and up to the end of the text different offsets have different ones. -/
theorem position_counts (text : String) :
    (∀ offset, (ofText text).position offset =
      ⟨(bytesBefore text offset).count newline,
        ((bytesBefore text offset).rtakeWhile (· ≠ newline)).length⟩) ∧
    (∀ offset, (ofText text).search (min offset (ofText text).size) ≠ .missing 0 ∧
      ∃ start ≤ min offset (ofText text).size,
        (ofText text).starts[((ofText text).position offset).line]? = some start) ∧
    Monotone (fun offset => ((ofText text).position offset).order) ∧
    Set.InjOn (ofText text).position (Set.Iic (utf8Bytes text).length) := by
  refine ⟨position_eq text, ?_, ?_, ?_⟩
  · intro offset
    obtain ⟨start, hstart, hcol⟩ := exists_start text offset
    refine ⟨?_, start, ?_, ?_⟩
    · rw [min_size, search_eq]
      split_ifs <;> simp
    · rw [min_size]
      omega
    · rw [position_eq]
      exact hstart
  · intro first second hle
    -- Past the end the position is that of the end.
    have hclamp (offset : ℕ) : (ofText text).position offset =
        (ofText text).position (min offset (utf8Bytes text).length) := by
      simp only [position, size_eq, Nat.min_assoc, Nat.min_self]
    dsimp only
    rw [hclamp first, hclamp second]
    refine (strictMonoOn_position text).monotoneOn ?_ ?_ (min_le_min_right _ hle)
    · exact Set.mem_Iic.2 (min_le_right _ _)
    · exact Set.mem_Iic.2 (min_le_right _ _)
  · intro first hfirst second hsecond heq
    exact (strictMonoOn_position text).injOn hfirst hsecond (congrArg Position.order heq)

example : [0, 2, 3, 5, 6, 99].map (ofText "a\nbc\n\nd").position =
    [⟨0, 0⟩, ⟨1, 0⟩, ⟨1, 1⟩, ⟨2, 0⟩, ⟨3, 0⟩, ⟨3, 1⟩] := by
  decide +kernel

end LineIndex
end Bindery
