import Bindery.Proofs.Native.Layout
import Bindery.Value.Native
import Mathlib.Data.Set.Function

/-!
# Buffers in two orders

In either order the multi-indices of a shape correspond to the places of its buffer, one to one.
The odometer shows the multi-indices in the order of the places, so the walk puts at each place the
element of the place that corresponds to it. It leaves the buffer only if that is too short for its
shape. Moving a buffer therefore keeps the element at every multi-index.

## Main statements

* `Layout.next_index`: the odometer shows the multi-indices in the order of the places.
* `Layout.getElem?_of_scatter?`, `Layout.scatter?_eq_none`: what a walk puts where, and when it
  leaves the buffer.
* `Layout.move_eq_gather`: walking over a buffer and putting it together place by place.
* `Layout.move_keeps_elements`: what moving does to the elements.
-/
namespace Bindery
namespace Layout

variable {α : Type} {source target layout : Layout} {shape ns : List Nat} {data items : List α}
  {out moved : Array α} {j k : Nat}

/-! ## The odometer -/

theorem pos_of_mem (h : 0 < volume ns) : ∀ n ∈ ns, 0 < n := by
  induction ns with
  | nil => simp
  | cons m ns ih =>
    rw [volume_cons] at h
    intro n hn
    rcases List.mem_cons.1 hn with rfl | hn
    · exact Nat.pos_of_mul_pos_right h
    · exact ih (Nat.pos_of_mul_pos_left h) n hn

theorem tick_unstride (h : ∀ n ∈ ns, 0 < n) (k : Nat) :
    tick ns (unstride ns k) = unstride ns (k + 1) := by
  induction ns generalizing k with
  | nil => rfl
  | cons n ns ih =>
    have hpos : 0 < n := h n (.head _)
    have hk : k % n + n * (k / n) = k := Nat.mod_add_div k n
    rw [unstride, unstride, tick]
    split
    · next hlt =>
      -- The wheel moves by one.
      have hsucc : k + 1 = k % n + 1 + n * (k / n) := by omega
      rw [hsucc, Nat.add_mul_mod_self_left, Nat.mod_eq_of_lt hlt, Nat.add_mul_div_left _ _ hpos,
        Nat.div_eq_of_lt hlt, Nat.zero_add]
    · next hge =>
      -- The wheel starts over, and the next one moves.
      have hlt : k % n < n := Nat.mod_lt k hpos
      have hsucc : k + 1 = n * (k / n + 1) := by
        rw [Nat.mul_add, Nat.mul_one]
        omega
      rw [hsucc, Nat.mul_mod_right, Nat.mul_div_cancel_left _ hpos,
        ih fun m hm => h m (.tail _ hm)]

/-- The odometer shows the multi-indices in the order of the places. -/
theorem next_index (h : 0 < volume shape) (k : Nat) :
    layout.next shape (layout.index shape k) = layout.index shape (k + 1) := by
  have hpos : ∀ n ∈ layout.fastestFirst shape, 0 < n := pos_of_mem (by simpa using h)
  rw [next, index, fastestFirst_fastestFirst, tick_unstride hpos, index]

theorem unstride_zero (ns : List Nat) : unstride ns 0 = List.replicate ns.length 0 := by
  induction ns with
  | nil => rfl
  | cons n ns ih => rw [unstride, Nat.zero_mod, Nat.zero_div, ih, List.length_cons,
      List.replicate_succ]

theorem index_zero (layout : Layout) (shape : List Nat) :
    layout.index shape 0 = List.replicate shape.length 0 := by
  rw [index, unstride_zero, length_fastestFirst]
  cases layout <;> simp [fastestFirst]

/-! ## Walking over a buffer -/

theorem place_lt_volume (source target : Layout) (hk : k < volume shape) :
    source.place target shape k < volume shape := by
  rw [place, if_pos hk]
  exact offset_lt (inShape_index hk)

theorem offset_index_eq_place (hk : k < volume shape) :
    target.offset shape (source.index shape k) = target.place source shape k := (if_pos hk).symm

/-- A walk that is at the place `k` and stays in the buffer changes no more than the places that
correspond to the places from `k` on. These get the elements to come. -/
theorem getElem?_of_scatter? (hlast : k + items.length ≤ volume shape)
    (hmoved : scatter? source target shape items (source.index shape k) out = some moved) :
    moved.size = out.size ∧ ∀ j, moved[j]? =
      if k ≤ source.place target shape j ∧ source.place target shape j < k + items.length
      then items[source.place target shape j - k]? else out[j]? := by
  induction items generalizing k out with
  | nil =>
    cases hmoved
    exact ⟨rfl, fun j => by rw [if_neg (by simp)]⟩
  | cons a items ih =>
    rw [List.length_cons] at hlast ⊢
    have hk : k < volume shape := by omega
    rw [scatter?, next_index (by omega), offset_index_eq_place hk] at hmoved
    split at hmoved
    · next hplace =>
      obtain ⟨hsize, helements⟩ := ih (by omega) hmoved
      refine ⟨by rw [hsize, Array.size_set], fun j => ?_⟩
      rw [helements j]
      by_cases hj : source.place target shape j = k
      · -- The place that gets this element: none of the later ones goes there.
        have hback : target.place source shape k = j := by rw [← hj, place_place]
        subst hback
        rw [hj, if_neg (by omega), if_pos (by omega), Nat.sub_self, Array.getElem?_set_self]
        rfl
      · have hne : target.place source shape k ≠ j := by
          rintro rfl
          exact hj (place_place source target shape k)
        rw [Array.getElem?_set_ne hplace hne]
        by_cases hrange : k ≤ source.place target shape j ∧
            source.place target shape j < k + (items.length + 1)
        · have hindex : source.place target shape j - k =
              source.place target shape j - (k + 1) + 1 := by omega
          rw [if_pos (by omega), if_pos hrange, hindex, List.getElem?_cons_succ]
        · rw [if_neg (by omega), if_neg hrange]
    · cases hmoved

/-- A walk ends with a buffer if all places that it comes to are in the buffer. -/
theorem exists_scatter?_eq_some (hlast : k + items.length ≤ volume shape)
    (hall : ∀ i, k ≤ i → i < k + items.length → target.place source shape i < out.size) :
    ∃ moved, scatter? source target shape items (source.index shape k) out = some moved := by
  induction items generalizing k out with
  | nil => exact ⟨out, rfl⟩
  | cons a items ih =>
    rw [List.length_cons] at hlast hall
    have hk : k < volume shape := by omega
    rw [scatter?, next_index (by omega), offset_index_eq_place hk, dif_pos (hall k (by omega)
      (by omega))]
    exact ih (by omega) fun i hi hlt => by
      rw [Array.size_set]
      exact hall i (by omega) (by omega)

/-- A walk that comes to a place outside the buffer ends without one. -/
theorem scatter?_eq_none (hlast : k + items.length ≤ volume shape) {i : Nat} (hi : k ≤ i)
    (hlt : i < k + items.length) (hfar : out.size ≤ target.place source shape i) :
    scatter? source target shape items (source.index shape k) out = none := by
  induction items generalizing k out with
  | nil => exact absurd hlt (by simpa using hi)
  | cons a items ih =>
    rw [List.length_cons] at hlast hlt
    have hk : k < volume shape := by omega
    rw [scatter?, next_index (by omega), offset_index_eq_place hk]
    split
    · next hplace =>
      have hne : k ≠ i := by
        rintro rfl
        omega
      exact ih (by omega) (by omega) (by omega) (by rwa [Array.size_set])
    · rfl

/-- Walking over a buffer puts it together as it is put together place by place. -/
theorem move?_eq_some (horder : (source = target || shape.length < 2 : Bool) = false)
    (hall : ∀ k < data.length, source.place target shape k < data.length) :
    source.move? target shape data = some (source.gather target shape data) := by
  let items := data.take (volume shape)
  have hlength : items.length = min (volume shape) data.length := List.length_take
  obtain ⟨moved, hmoved⟩ :
      ∃ moved, scatter? source target shape items (source.index shape 0) data.toArray =
        some moved := by
    refine exists_scatter?_eq_some (by omega) fun i _ hi => ?_
    rw [List.size_toArray]
    exact place_lt hall (by omega)
  obtain ⟨hsize, helements⟩ := getElem?_of_scatter? (by omega) hmoved
  have hgather : source.gather target shape data = moved.toList := by
    refine gather_eq_of_getElem? horder (by simpa using hsize) fun j hj => ?_
    have hmovedAt := helements j
    rw [← Array.getElem?_toList] at hmovedAt
    rw [hmovedAt]
    by_cases hvolume : j < volume shape
    · have hplace := hall j hj
      have hlt : source.place target shape j < volume shape := place_lt_volume source target hvolume
      rw [if_pos (by omega), Nat.sub_zero, List.getElem?_take_of_lt hlt]
    · have hplace : source.place target shape j = j := if_neg hvolume
      rw [hplace, if_neg (by omega), List.getElem?_toArray]
  rw [move?, if_neg (Bool.eq_false_iff.1 horder), ← index_zero source, hmoved, hgather]
  rfl

/-- The walk leaves a buffer in which the element of some place is missing. -/
theorem move?_eq_none (horder : (source = target || shape.length < 2 : Bool) = false)
    (hk : k < data.length) (hfar : ¬source.place target shape k < data.length) :
    source.move? target shape data = none := by
  obtain ⟨i, hi, hi'⟩ : ∃ i, i < data.length ∧
      ¬target.place source shape i < data.length := by
    by_contra hnone
    push Not at hnone
    exact hfar (place_lt hnone hk)
  have hvolume : i < volume shape := by
    by_contra hge
    rw [place, if_neg hge] at hi'
    exact hi' hi
  rw [move?, if_neg (Bool.eq_false_iff.1 horder), ← index_zero source,
    scatter?_eq_none (by simp) (Nat.zero_le i) (by simp [hi, hvolume]) (by simpa using hi')]
  rfl

/-- Walking over a buffer moves it as putting it together place by place does. -/
theorem move_eq_gather (source target : Layout) (shape : List Nat) (data : List α) :
    source.move target shape data = source.gather target shape data := by
  cases horder : (source = target || shape.length < 2 : Bool) with
  | true => simp only [move, move?, gather, horder, if_true, Option.getD_some]
  | false =>
    by_cases hall : ∀ k < data.length, source.place target shape k < data.length
    · rw [move, move?_eq_some horder hall, Option.getD_some]
    · obtain ⟨k, hk, hfar⟩ : ∃ k, k < data.length ∧
          ¬source.place target shape k < data.length := by
        simpa using hall
      rw [move, move?_eq_none horder hk hfar, Option.getD_none, gather_of_not_lt hk hfar]

/-- **Moving a buffer to another order and back gives back the buffer**, whatever its length. -/
theorem move_move (source target : Layout) (shape : List Nat) (data : List α) :
    target.move source shape (source.move target shape data) = data := by
  rw [move_eq_gather, move_eq_gather, gather_gather]

/-! ## Where the elements are -/

theorem fastestFirst_of_length_lt {axes : List α} (h : axes.length < 2) (layout : Layout) :
    layout.fastestFirst axes = axes := by
  cases layout with
  | colMajor => rfl
  | rowMajor =>
    match axes, h with
    | [], _ | [_], _ => rfl

/-- Where nothing is moved, places correspond to themselves. -/
theorem place_of_same (h : (source = target || shape.length < 2 : Bool) = true) (k : Nat) :
    source.place target shape k = k := by
  rw [place]
  split
  · next hk =>
    have hoffset : source.offset shape (target.index shape k) =
        target.offset shape (target.index shape k) := by
      rcases Bool.or_eq_true_iff.1 h with h | h
      · rw [of_decide_eq_true h]
      · have hlength : ((target.index shape k).zip shape).length < 2 :=
          Nat.lt_of_le_of_lt (by simp) (of_decide_eq_true h)
        rw [offset, offset, fastestFirst_of_length_lt hlength, fastestFirst_of_length_lt hlength]
    rw [hoffset, offset_index hk]
  · rfl

/-- Moving keeps the number of elements, and puts at each place the element of the place that
corresponds to it. -/
theorem getElem?_move (hdata : data.length = volume shape) (source target : Layout) :
    (source.move target shape data).length = data.length ∧
      ∀ j, (source.move target shape data)[j]? = data[source.place target shape j]? := by
  cases horder : (source = target || shape.length < 2 : Bool) with
  | true =>
    have hmove : source.move target shape data = data := by
      simp only [move, move?, horder, if_true, Option.getD_some]
    exact ⟨by rw [hmove], fun j => by rw [hmove, place_of_same horder]⟩
  | false =>
    have hlt : ∀ k < data.length, source.place target shape k < data.length := by
      rw [hdata]
      exact fun k hk => place_lt_volume source target hk
    obtain ⟨moved, hlen, hmoved⟩ := exists_getElem?_place hlt
    rw [move_eq_gather, gather_eq_of_getElem? horder hlen hmoved]
    refine ⟨hlen, fun j => ?_⟩
    by_cases hj : j < data.length
    · exact (hmoved j hj).symm
    · have hplace : source.place target shape j = j := if_neg (by omega)
      rw [hplace, List.getElem?_eq_none (by omega), List.getElem?_eq_none (by omega)]

/-- The walk stays in a buffer that fills its shape. -/
theorem move?_of_length (hdata : data.length = volume shape) (source target : Layout) :
    source.move? target shape data = some (source.move target shape data) := by
  cases horder : (source = target || shape.length < 2 : Bool) with
  | true => simp only [move, move?, horder, if_true, Option.getD_some]
  | false =>
    rw [move_eq_gather, move?_eq_some horder fun k hk => ?_]
    rw [hdata] at hk ⊢
    exact place_lt_volume source target hk

/-- Moving keeps the element at every multi-index. -/
theorem getElem?_move_offset (hdata : data.length = volume shape) (source target : Layout)
    {index : List Nat} (h : inShape shape index = true) :
    (source.move target shape data)[target.offset shape index]? =
      data[source.offset shape index]? := by
  rw [(getElem?_move hdata source target).2, place, if_pos (offset_lt h), index_offset h]

/-- In every order the multi-indices of a shape correspond to the places of its buffer. -/
theorem bijOn_offset (layout : Layout) (shape : List Nat) :
    Set.BijOn (layout.offset shape) {index | inShape shape index = true}
      (Set.Iio (volume shape)) := by
  refine ⟨fun index hindex => offset_lt hindex, fun index hindex index' hindex' heq => ?_,
    fun k hk => ⟨layout.index shape k, inShape_index hk, offset_index hk⟩⟩
  rw [← index_offset hindex, heq, index_offset hindex']

end Layout
end Bindery
