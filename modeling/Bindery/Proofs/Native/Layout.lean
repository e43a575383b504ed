import Mathlib.Data.Finset.Card
import Mathlib.Data.Finset.Range
import Bindery.Native.Shape

/-!
# Storage orders

The places of a buffer and the multi-indices of its shape correspond, one to one, in either
order. So a buffer in another order can be put together place by place. Doing so there and back
gives back the buffer, also if it has more or fewer elements than the shape asks for.

## Main definitions

* `Layout.index`: the multi-index of a place.
* `Layout.place`: how the places of two orders correspond.
* `Layout.gather`: a buffer in another order, place by place.

## Main statements

* `Layout.offset_index`, `Layout.index_offset`: places and multi-indices correspond.
* `Layout.gather_gather`: there and back.
-/
namespace Bindery

theorem volume_cons (n : Nat) (shape : List Nat) : volume (n :: shape) = n * volume shape := rfl

theorem volume_append (xs ys : List Nat) : volume (xs ++ ys) = volume xs * volume ys := by
  induction xs with
  | nil => simp [volume]
  | cons n xs ih => rw [List.cons_append, volume_cons, volume_cons, ih, Nat.mul_assoc]

theorem volume_reverse (shape : List Nat) : volume shape.reverse = volume shape := by
  induction shape with
  | nil => rfl
  | cons n shape ih =>
    rw [List.reverse_cons, volume_append, ih, volume_cons, volume_cons, Nat.mul_comm]
    simp [volume]

namespace Layout

/-- The index of a place axis by axis, the fastest axis first. -/
def unstride : List Nat → Nat → List Nat
  | [], _ => []
  | n :: ns, k => k % n :: unstride ns (k / n)

/-- The multi-index of a place in a buffer. -/
def index (layout : Layout) (shape : List Nat) (k : Nat) : List Nat :=
  layout.fastestFirst (unstride (layout.fastestFirst shape) k)

/-- Where in one order the element stands that has the place `k` in another one. What stands
behind the last element of the shape has the same place in all orders. -/
def place (source target : Layout) (shape : List Nat) (k : Nat) : Nat :=
  if k < volume shape then source.offset shape (target.index shape k) else k

/-- A buffer in another order, place by place. One in which the element of some place is missing
stays as it is. -/
def gather {α : Type} (source target : Layout) (shape : List Nat) (data : List α) : List α :=
  if source = target || shape.length < 2 then data
  else
    let places := (List.range data.length).map (source.place target shape)
    if places.all (· < data.length) then places.filterMap (data[·]?) else data

/-! ## One axis after the other -/

@[simp] theorem length_unstride (ns : List Nat) (k : Nat) : (unstride ns k).length = ns.length := by
  induction ns generalizing k with
  | nil => rfl
  | cons n ns ih => simp [unstride, ih]

theorem strided_unstride {ns : List Nat} {k : Nat} (h : k < volume ns) :
    strided ((unstride ns k).zip ns) = k := by
  induction ns generalizing k with
  | nil =>
    have hzero : k = 0 := by simpa [volume] using h
    simp [unstride, strided, hzero]
  | cons n ns ih =>
    rw [volume_cons] at h
    have hdiv : k / n < volume ns := Nat.div_lt_of_lt_mul h
    rw [unstride, List.zip_cons_cons, strided, ih hdiv]
    exact Nat.mod_add_div k n

theorem mem_zip_unstride {ns : List Nat} {k : Nat} (h : k < volume ns) :
    ∀ p ∈ (unstride ns k).zip ns, p.1 < p.2 := by
  induction ns generalizing k with
  | nil => simp
  | cons n ns ih =>
    rw [volume_cons] at h
    have hpos : 0 < n := Nat.pos_of_ne_zero fun hn => by simp [hn] at h
    intro p hp
    rcases List.mem_cons.1 hp with rfl | hp
    · exact Nat.mod_lt k hpos
    · exact ih (Nat.div_lt_of_lt_mul h) p hp

theorem strided_lt {is ns : List Nat} (hlen : is.length = ns.length)
    (h : ∀ p ∈ is.zip ns, p.1 < p.2) : strided (is.zip ns) < volume ns := by
  induction ns generalizing is with
  | nil => simp [strided, volume]
  | cons n ns ih =>
    obtain _ | ⟨i, is⟩ := is
    · simp at hlen
    · have hi : i < n := h (i, n) (.head _)
      have hrest := ih (Nat.succ.inj hlen) fun p hp => h p (.tail _ hp)
      rw [List.zip_cons_cons, strided, volume_cons]
      calc i + n * strided (is.zip ns) < n + n * strided (is.zip ns) := Nat.add_lt_add_right hi _
        _ = n * (strided (is.zip ns) + 1) := by rw [Nat.mul_add, Nat.mul_one, Nat.add_comm]
        _ ≤ n * volume ns := Nat.mul_le_mul_left n hrest

theorem unstride_strided {is ns : List Nat} (hlen : is.length = ns.length)
    (h : ∀ p ∈ is.zip ns, p.1 < p.2) : unstride ns (strided (is.zip ns)) = is := by
  induction ns generalizing is with
  | nil => simpa [unstride] using (List.length_eq_zero_iff.1 hlen).symm
  | cons n ns ih =>
    obtain _ | ⟨i, is⟩ := is
    · simp at hlen
    · have hi : i < n := h (i, n) (.head _)
      have hpos : 0 < n := Nat.lt_of_le_of_lt (Nat.zero_le i) hi
      rw [List.zip_cons_cons, strided, unstride, Nat.add_mul_mod_self_left, Nat.mod_eq_of_lt hi,
        Nat.add_mul_div_left _ _ hpos, Nat.div_eq_of_lt hi, Nat.zero_add,
        ih (Nat.succ.inj hlen) fun p hp => h p (.tail _ hp)]

/-! ## Places and multi-indices -/

theorem inShape_iff {shape index : List Nat} : inShape shape index = true ↔
    index.length = shape.length ∧ ∀ p ∈ index.zip shape, p.1 < p.2 := by
  simp [inShape, List.all_eq_true]

theorem fastestFirst_fastestFirst {α : Type} (layout : Layout) (axes : List α) :
    layout.fastestFirst (layout.fastestFirst axes) = axes := by
  cases layout <;> simp [fastestFirst]

@[simp] theorem length_fastestFirst {α : Type} (layout : Layout) (axes : List α) :
    (layout.fastestFirst axes).length = axes.length := by
  cases layout <;> simp [fastestFirst]

@[simp] theorem mem_fastestFirst {α : Type} (layout : Layout) {axes : List α} {a : α} :
    a ∈ layout.fastestFirst axes ↔ a ∈ axes := by
  cases layout <;> simp [fastestFirst]

theorem fastestFirst_zip (layout : Layout) {is ns : List Nat} (h : is.length = ns.length) :
    layout.fastestFirst (is.zip ns) = (layout.fastestFirst is).zip (layout.fastestFirst ns) := by
  cases layout with
  | rowMajor => exact List.reverse_zipWith h
  | colMajor => rfl

@[simp] theorem volume_fastestFirst (layout : Layout) (shape : List Nat) :
    volume (layout.fastestFirst shape) = volume shape := by
  cases layout with
  | rowMajor => exact volume_reverse shape
  | colMajor => rfl

variable {layout : Layout} {shape : List Nat}

theorem zip_index {k : Nat} (layout : Layout) (shape : List Nat) :
    layout.fastestFirst ((layout.index shape k).zip shape) =
      (unstride (layout.fastestFirst shape) k).zip (layout.fastestFirst shape) := by
  rw [fastestFirst_zip layout (by simp [index]), index, fastestFirst_fastestFirst]

/-- The multi-index of a place stands at that place. -/
theorem offset_index {k : Nat} (h : k < volume shape) :
    layout.offset shape (layout.index shape k) = k := by
  rw [offset, zip_index]
  exact strided_unstride (by simpa using h)

theorem inShape_index {k : Nat} (h : k < volume shape) :
    inShape shape (layout.index shape k) = true := by
  refine inShape_iff.2 ⟨by simp [index], fun p hp => ?_⟩
  rw [← layout.mem_fastestFirst, zip_index] at hp
  exact mem_zip_unstride (by simpa using h) p hp

/-- The place of a multi-index has that multi-index. -/
theorem index_offset {index : List Nat} (h : inShape shape index = true) :
    layout.index shape (layout.offset shape index) = index := by
  obtain ⟨hlen, hlt⟩ := inShape_iff.1 h
  rw [Layout.index, offset, fastestFirst_zip layout hlen,
    unstride_strided (by simp [hlen]) fun p hp => ?_, fastestFirst_fastestFirst]
  rw [← fastestFirst_zip layout hlen, mem_fastestFirst] at hp
  exact hlt p hp

theorem offset_lt {index : List Nat} (h : inShape shape index = true) :
    layout.offset shape index < volume shape := by
  obtain ⟨hlen, hlt⟩ := inShape_iff.1 h
  rw [offset, fastestFirst_zip layout hlen, ← volume_fastestFirst layout shape]
  refine strided_lt (by simp [hlen]) fun p hp => ?_
  rw [← fastestFirst_zip layout hlen, mem_fastestFirst] at hp
  exact hlt p hp

/-! ## Place by place -/

/-- Places correspond one to one. -/
theorem place_place (source target : Layout) (shape : List Nat) (k : Nat) :
    source.place target shape (target.place source shape k) = k := by
  by_cases h : k < volume shape
  · have hindex : inShape shape (source.index shape k) = true := inShape_index h
    rw [place, place, if_pos h, if_pos (offset_lt hindex), index_offset hindex, offset_index h]
  · rw [place, place, if_neg h, if_neg h]

/-- If the places of a buffer correspond to places of the buffer in one direction, they do so in
the other one. -/
theorem place_lt {source target : Layout} {shape : List Nat} {n : Nat}
    (h : ∀ k < n, source.place target shape k < n) {k : Nat} (hk : k < n) :
    target.place source shape k < n := by
  have hinj : Function.Injective (source.place target shape) := fun a b hab => by
    rw [← place_place target source shape a, hab, place_place]
  have himage : (Finset.range n).image (source.place target shape) = Finset.range n := by
    refine Finset.eq_of_subset_of_card_le (fun a ha => ?_) ?_
    · obtain ⟨b, hb, rfl⟩ := Finset.mem_image.1 ha
      exact Finset.mem_range.2 (h b (Finset.mem_range.1 hb))
    · rw [Finset.card_image_of_injective _ hinj]
  obtain ⟨j, hj, rfl⟩ := Finset.mem_image.1 (himage ▸ Finset.mem_range.2 hk)
  rw [place_place]
  exact Finset.mem_range.1 hj

/-- If every place of a buffer corresponds to a place of it, some buffer has the elements there. -/
theorem exists_getElem?_place {α : Type} {source target : Layout} {shape : List Nat}
    {data : List α} (h : ∀ k < data.length, source.place target shape k < data.length) :
    ∃ moved : List α, moved.length = data.length ∧
      ∀ k < data.length, data[source.place target shape k]? = moved[k]? := by
  refine ⟨List.ofFn fun k : Fin data.length =>
    data.get ⟨source.place target shape k, h k k.2⟩, by simp, fun k hk => ?_⟩
  simp [hk, h k hk]

/-- A buffer that has all elements, and where they stand afterwards. -/
theorem gather_eq_of_getElem? {α : Type} {source target : Layout} {shape : List Nat}
    {data moved : List α} (horder : (source = target || shape.length < 2) = false)
    (hlen : moved.length = data.length)
    (h : ∀ k < data.length, data[source.place target shape k]? = moved[k]?) :
    source.gather target shape data = moved := by
  have hall : ∀ k < data.length, source.place target shape k < data.length := by
    intro k hk
    refine (List.getElem?_eq_some_iff (a := moved.get ⟨k, hlen ▸ hk⟩)).1 ?_ |>.1
    simp [h k hk, hlen, hk]
  have hmoved : ((List.range data.length).map (source.place target shape)).map (data[·]?) =
      moved.map some := by
    refine List.ext_getElem? fun k => ?_
    by_cases hk : k < data.length
    · simp [hk, hlen, h k hk]
    · simp [hk, hlen]
  have hfilter := congrArg (List.filterMap id) hmoved
  rw [List.filterMap_map, List.filterMap_map] at hfilter
  have hif : (if ∀ k < data.length, source.place target shape k < data.length then
      List.filterMap (fun k => data[source.place target shape k]?) (List.range data.length)
      else data) = moved := by
    rw [if_pos hall]
    simpa [Function.comp_def] using hfilter
  rw [gather, if_neg (Bool.eq_false_iff.1 horder)]
  simpa [Function.comp_def] using hif

/-- A buffer in which some place has no counterpart stays as it is. -/
theorem gather_of_not_lt {α : Type} {source target : Layout} {shape : List Nat} {data : List α}
    {k : Nat} (hk : k < data.length) (h : ¬source.place target shape k < data.length) :
    source.gather target shape data = data := by
  have hall : ¬∀ k < data.length, source.place target shape k < data.length :=
    fun hall => h (hall k hk)
  simp only [gather, List.all_map, List.all_eq_true, List.mem_range,
    Function.comp_apply, decide_eq_true_eq]
  rw [if_neg hall, ite_self]

/-- Another order and back gives back the buffer, whatever its length. -/
theorem gather_gather {α : Type} (source target : Layout) (shape : List Nat) (data : List α) :
    target.gather source shape (source.gather target shape data) = data := by
  have hcomm : decide (target = source) = decide (source = target) := decide_eq_decide.2 eq_comm
  cases horder : (source = target || shape.length < 2 : Bool) with
  | true => simp only [gather, hcomm, horder, if_true]
  | false =>
    have horder' : (target = source || shape.length < 2 : Bool) = false := hcomm ▸ horder
    by_cases hall : ∀ k < data.length, source.place target shape k < data.length
    · obtain ⟨moved, hlen, hmoved⟩ := exists_getElem?_place hall
      rw [gather_eq_of_getElem? horder hlen hmoved]
      refine gather_eq_of_getElem? horder' hlen.symm fun k hk => ?_
      rw [hlen] at hk
      have hback := place_lt hall hk
      rw [← hmoved _ hback, place_place]
    · obtain ⟨k, hk, hfar⟩ : ∃ k, k < data.length ∧
          ¬source.place target shape k < data.length := by
        simpa using hall
      rw [gather_of_not_lt hk hfar]
      -- If every place had a counterpart in the other direction, it would have one in this one.
      by_contra hne
      have hall' : ∀ k < data.length, target.place source shape k < data.length := by
        intro j hj
        by_contra hj'
        exact hne (gather_of_not_lt hj hj')
      exact hfar (place_lt hall' hk)

end Layout
end Bindery
