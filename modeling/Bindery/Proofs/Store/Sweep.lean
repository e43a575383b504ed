import Mathlib.Data.Finset.Card
import Mathlib.Data.Finset.Range
import Bindery.Value.Store

/-!
# What a sweep leaves

A sweep only releases wrappers and destroys objects, and it stops for a reason: afterwards a
wrapper that nobody holds is released, and a living object has an owner. What is still held at
the end was held all the time, so its wrapper is as it was before.

## Main definitions

* `Store.held`: the wrappers that somebody holds.
* `Store.Sound`: an owned object is there and alive.
* `Store.Shrinks`: only wrappers were released and only unowned objects destroyed.
* `Store.Settled`: nothing is left to release or to destroy.
-/
namespace Bindery

theorem getElem?_append_of_eq_some {α : Type} {xs : List α} {i : Nat} {a : α}
    (h : xs[i]? = some a) (ys : List α) : (xs ++ ys)[i]? = some a := by
  rw [List.getElem?_append_left (List.getElem?_eq_some_iff.1 h).1, h]

/-- An object after its end. -/
def Cell.destroyed (c : Cell) : Cell :=
  { c with fields := {}, destructions := c.destructions + 1 }

theorem Cell.isLive_iff (c : Cell) : c.isLive = true ↔ c.destructions = 0 := by
  simp [Cell.isLive]

@[simp] theorem Cell.isLive_destroyed (c : Cell) : c.destroyed.isLive = false := by
  simp [Cell.isLive, Cell.destroyed]

namespace Store

/-- The wrappers that somebody holds: the host, or a field of a living object. -/
def held (roots : List Nat) (s : Store) : List Nat := roots ++ s.heldByFields

/-- An object that a wrapper owns is there and alive. -/
def Sound (s : Store) : Prop :=
  ∀ i, s.hasOwner i = true → ∃ c, s.cells[i]? = some c ∧ c.isLive = true

/-- One round of a sweep. -/
def round (roots : List Nat) (s : Store) : Store := destroyUnowned (dropUnheld roots s)

/-- Nothing is left to release or to destroy. -/
structure Settled (roots : List Nat) (s : Store) : Prop where
  released : ∀ {i : Nat} {w : Wrapper}, s.wrappers[i]? = some w → i ∉ s.held roots → w = .released
  owned : ∀ {i : Nat} {c : Cell}, s.cells[i]? = some c → c.isLive = true → s.hasOwner i = true

/-! ## Owners and holders -/

theorem hasOwner_iff {s : Store} {i : Nat} :
    s.hasOwner i = true ↔ ∃ w : Nat, s.wrappers[w]? = some (.owns i) := by
  rw [hasOwner, List.contains_iff_mem, List.mem_iff_getElem?]

theorem hasOwner_of_wrapper {s : Store} {h : Handle} {i : Nat} (hh : s.wrapper h = .owns i) :
    s.hasOwner i = true := by
  rw [wrapper] at hh
  rcases hw : s.wrappers[h.wrapper]? with _ | w
  · simp [hw] at hh
  · rw [hw, Option.getD_some] at hh
    exact hasOwner_iff.2 ⟨h.wrapper, hh ▸ hw⟩

theorem mem_heldByFields {s : Store} {w : Nat} :
    w ∈ s.heldByFields ↔ ∃ (i : Nat) (c : Cell), s.cells[i]? = some c ∧ c.isLive = true ∧
      ∃ name h, (name, NativeValue.object h) ∈ c.fields.entries ∧ h.wrapper = w := by
  simp only [heldByFields, List.mem_flatMap, List.mem_filter, List.mem_filterMap,
    Option.map_eq_some_iff]
  constructor
  · rintro ⟨c, ⟨hc, hlive⟩, ⟨name, v⟩, hv, h, hh, rfl⟩
    obtain ⟨i, hi⟩ := List.mem_iff_getElem?.1 hc
    cases v <;> simp only [NativeValue.handle?, Option.some.injEq, reduceCtorEq] at hh
    subst hh
    exact ⟨i, c, hi, hlive, name, _, hv, rfl⟩
  · rintro ⟨i, c, hi, hlive, name, h, hv, rfl⟩
    exact ⟨c, ⟨List.mem_of_getElem? hi, hlive⟩, (name, .object h), hv, h, rfl, rfl⟩

/-! ## What keeps a store sound -/

namespace Sound

variable {s : Store}

/-- A further wrapper, which finds alive what it owns. -/
theorem wrap (hs : s.Sound) {w : Wrapper}
    (h : ∀ i, w = .owns i → ∃ c, s.cells[i]? = some c ∧ c.isLive = true) (className : String)
    (ownership : Ownership) : (s.wrap className ownership w).2.Sound := by
  intro i hi
  rcases List.mem_append.1 (List.contains_iff_mem.1 hi) with hold | hnew
  · exact hs i (List.contains_iff_mem.2 hold)
  · exact h i (List.mem_singleton.1 hnew).symm

theorem addCell (hs : s.Sound) (c : Cell) : Sound { s with cells := s.cells ++ [c] } := by
  intro i hi
  obtain ⟨d, hd, hlive⟩ := hs i hi
  exact ⟨d, getElem?_append_of_eq_some hd _, hlive⟩

theorem adopt (hs : s.Sound) (ownership : Ownership) (className : String)
    (fields : OrderedMap String NativeValue) (label : Option String) :
    (s.adopt ownership className fields label).2.Sound := by
  refine (hs.addCell ⟨className, fields, label, 0⟩).wrap (fun i hi => ?_) className ownership
  rw [Wrapper.owns.injEq] at hi
  exact ⟨⟨className, fields, label, 0⟩, by simp [← hi], rfl⟩

theorem release (hs : s.Sound) (h : Handle) : (s.release h).Sound := by
  intro i hi
  rcases List.mem_or_eq_of_mem_set (List.contains_iff_mem.1 hi) with hold | hnew
  · exact hs i (List.contains_iff_mem.2 hold)
  · simp at hnew

end Sound

/-! ## One round -/

theorem getElem?_wrappers_round (roots : List Nat) (s : Store) (i : Nat) :
    (s.round roots).wrappers[i]? =
      (s.wrappers[i]?).map fun w => if i ∈ s.held roots then w else .released := by
  simp only [round, destroyUnowned, dropUnheld, held, List.getElem?_map, List.getElem?_zipIdx,
    Nat.zero_add, Option.map_map]
  rcases s.wrappers[i]? with _ | w
  · rfl
  · simp

theorem getElem?_cells_round (roots : List Nat) (s : Store) (i : Nat) :
    (s.round roots).cells[i]? = (s.cells[i]?).map fun c =>
      if c.isLive = true ∧ (s.round roots).hasOwner i = false then c.destroyed else c := by
  simp only [round, destroyUnowned, dropUnheld, hasOwner, List.getElem?_map,
    List.getElem?_zipIdx, Nat.zero_add, Option.map_map]
  rcases s.cells[i]? with _ | c
  · rfl
  · simp only [Option.map_some, Function.comp_apply, Cell.destroyed, Bool.and_eq_true,
      Bool.not_eq_true']
    congr

/-- Only wrappers that nobody holds were released, and only living objects without an owner
were destroyed. -/
structure Shrinks (roots : List Nat) (s t : Store) : Prop where
  length_wrappers : t.wrappers.length = s.wrappers.length
  length_cells : t.cells.length = s.cells.length
  wrapper : ∀ i : Nat, t.wrappers[i]? = s.wrappers[i]? ∨ t.wrappers[i]? = some .released
  kept : ∀ {i : Nat}, i ∈ t.held roots → t.wrappers[i]? = s.wrappers[i]?
  cell : ∀ i : Nat, t.cells[i]? = s.cells[i]? ∨ ∃ c, s.cells[i]? = some c ∧ c.isLive = true ∧
    t.hasOwner i = false ∧ t.cells[i]? = some c.destroyed

namespace Shrinks

variable {roots : List Nat} {s t u : Store}

theorem refl (roots : List Nat) (s : Store) : Shrinks roots s s :=
  ⟨rfl, rfl, fun _ => .inl rfl, fun _ => rfl, fun _ => .inl rfl⟩

theorem hasOwner (h : Shrinks roots s t) {i : Nat} (hi : t.hasOwner i = true) :
    s.hasOwner i = true := by
  obtain ⟨w, hw⟩ := hasOwner_iff.1 hi
  rcases h.wrapper w with hsame | hgone
  · exact hasOwner_iff.2 ⟨w, hsame ▸ hw⟩
  · simp [hgone] at hw

/-- A living object was not touched. -/
theorem cell_of_isLive (h : Shrinks roots s t) {i : Nat} {c : Cell} (hc : t.cells[i]? = some c)
    (hlive : c.isLive = true) : s.cells[i]? = some c := by
  rcases h.cell i with hsame | ⟨d, -, -, -, hd⟩
  · rw [← hsame, hc]
  · rw [hd, Option.some.injEq] at hc
    simp [← hc] at hlive

theorem mem_heldByFields (h : Shrinks roots s t) {w : Nat} (hw : w ∈ t.heldByFields) :
    w ∈ s.heldByFields := by
  obtain ⟨i, c, hc, hlive, hfield⟩ := Store.mem_heldByFields.1 hw
  exact Store.mem_heldByFields.2 ⟨i, c, h.cell_of_isLive hc hlive, hlive, hfield⟩

theorem mem_held (h : Shrinks roots s t) {w : Nat} (hw : w ∈ t.held roots) : w ∈ s.held roots := by
  rw [held, List.mem_append] at hw ⊢
  exact hw.imp_right h.mem_heldByFields

theorem trans (h : Shrinks roots s t) (h' : Shrinks roots t u) : Shrinks roots s u where
  length_wrappers := h'.length_wrappers.trans h.length_wrappers
  length_cells := h'.length_cells.trans h.length_cells
  wrapper i := by
    rcases h'.wrapper i with hsame | hgone
    · rw [hsame]
      exact h.wrapper i
    · exact .inr hgone
  kept hi := (h'.kept hi).trans (h.kept (h'.mem_held hi))
  cell i := by
    rcases h'.cell i with hsame | ⟨c, hc, hlive, howner, hgone⟩
    · rw [hsame]
      rcases h.cell i with hsame' | ⟨c, hc, hlive, howner, hgone⟩
      · exact .inl hsame'
      · refine .inr ⟨c, hc, hlive, ?_, hgone⟩
        exact Bool.eq_false_iff.2 fun hu => Bool.eq_false_iff.1 howner (h'.hasOwner hu)
    · exact .inr ⟨c, h.cell_of_isLive hc hlive, hlive, howner, hgone⟩

theorem sound (h : Shrinks roots s t) (hs : s.Sound) : t.Sound := by
  intro i hi
  obtain ⟨c, hc, hlive⟩ := hs i (h.hasOwner hi)
  rcases h.cell i with hsame | ⟨-, -, -, howner, -⟩
  · exact ⟨c, hsame.trans hc, hlive⟩
  · simp [howner] at hi

end Shrinks

theorem shrinks_round (roots : List Nat) (s : Store) : Shrinks roots s (s.round roots) where
  length_wrappers := by simp [round, destroyUnowned, dropUnheld]
  length_cells := by simp [round, destroyUnowned, dropUnheld]
  wrapper i := by
    rw [getElem?_wrappers_round]
    rcases s.wrappers[i]? with _ | w
    · exact .inl rfl
    · by_cases hi : i ∈ s.held roots <;> simp [hi]
  kept {i} hi := by
    have hheld : i ∈ s.held roots := by
      rw [held, List.mem_append] at hi ⊢
      refine hi.imp_right fun hi => ?_
      obtain ⟨j, c, hc, hlive, hfield⟩ := mem_heldByFields.1 hi
      rw [getElem?_cells_round, Option.map_eq_some_iff] at hc
      obtain ⟨d, hd, rfl⟩ := hc
      by_cases hgone : d.isLive = true ∧ (s.round roots).hasOwner j = false
      · simp [hgone] at hlive
      · rw [if_neg hgone] at hlive hfield
        exact mem_heldByFields.2 ⟨j, d, hd, hlive, hfield⟩
    rw [getElem?_wrappers_round]
    simp [hheld]
  cell i := by
    rw [getElem?_cells_round]
    rcases hc : s.cells[i]? with _ | c
    · exact .inl rfl
    · by_cases hgone : c.isLive = true ∧ (s.round roots).hasOwner i = false
      · exact .inr ⟨c, rfl, hgone.1, hgone.2, by simp [hgone]⟩
      · exact .inl (by simp [hgone])

theorem shrinks_sweepRounds (roots : List Nat) (n : Nat) (s : Store) :
    Shrinks roots s (sweepRounds roots n s) := by
  induction n generalizing s with
  | zero => exact .refl roots s
  | succ n ih => exact (shrinks_round roots s).trans (ih _)

theorem shrinks_sweep (roots : List Nat) (s : Store) : Shrinks roots s (s.sweep roots) :=
  shrinks_sweepRounds roots _ s

/-! ## The end of a sweep -/

theorem settled_of_round_eq {roots : List Nat} {s : Store} (h : s.round roots = s) :
    s.Settled roots where
  released {i w} hw hi := by
    have hround := getElem?_wrappers_round roots s i
    rw [h, hw] at hround
    simpa [hi] using hround
  owned {i c} hc hlive := by
    by_contra howner
    have hround := getElem?_cells_round roots s i
    rw [h, hc] at hround
    have hdead : c = c.destroyed := by
      simpa [hlive, Bool.eq_false_iff.2 howner] using hround
    rw [hdead] at hlive
    simp at hlive

/-- The places of the living objects. -/
def livePlaces (s : Store) : Finset Nat :=
  (Finset.range s.cells.length).filter fun i => (s.cells[i]?).any Cell.isLive = true

theorem mem_livePlaces {s : Store} {i : Nat} :
    i ∈ s.livePlaces ↔ ∃ c, s.cells[i]? = some c ∧ c.isLive = true := by
  simp only [livePlaces, Finset.mem_filter, Finset.mem_range, Option.any_eq_true_iff_get]
  grind

theorem card_livePlaces_le (s : Store) : s.livePlaces.card ≤ s.cells.length := by
  have h := Finset.card_filter_le (Finset.range s.cells.length)
    fun i => (s.cells[i]?).any Cell.isLive = true
  rwa [Finset.card_range] at h

/-- A round that destroys nothing leaves nothing to do. -/
theorem round_round_of_cells_eq {roots : List Nat} {s : Store}
    (h : (s.round roots).cells = s.cells) : (s.round roots).round roots = s.round roots := by
  have hheld : (s.round roots).held roots = s.held roots := by
    simp only [held, heldByFields, h]
  have hwrappers : ((s.round roots).round roots).wrappers = (s.round roots).wrappers := by
    refine List.ext_getElem? fun i => ?_
    rw [getElem?_wrappers_round, hheld, getElem?_wrappers_round, Option.map_map]
    congr 1
    funext w
    by_cases hi : i ∈ s.held roots <;> simp [hi]
  have hcells : ((s.round roots).round roots).cells = (s.round roots).cells := by
    refine List.ext_getElem? fun i => ?_
    have howner : ((s.round roots).round roots).hasOwner i = (s.round roots).hasOwner i := by
      simp only [hasOwner, hwrappers]
    rw [getElem?_cells_round roots (s.round roots), howner, h, ← getElem?_cells_round, h]
  calc (s.round roots).round roots
      = ⟨((s.round roots).round roots).wrappers, ((s.round roots).round roots).cells⟩ := rfl
    _ = s.round roots := by rw [hwrappers, hcells]

theorem livePlaces_round_subset (roots : List Nat) (s : Store) :
    (s.round roots).livePlaces ⊆ s.livePlaces := by
  intro i hi
  obtain ⟨c, hc, hlive⟩ := mem_livePlaces.1 hi
  exact mem_livePlaces.2 ⟨c, (shrinks_round roots s).cell_of_isLive hc hlive, hlive⟩

theorem cells_round_of_livePlaces_eq {roots : List Nat} {s : Store}
    (h : (s.round roots).livePlaces = s.livePlaces) : (s.round roots).cells = s.cells := by
  refine List.ext_getElem? fun i => ?_
  rcases (shrinks_round roots s).cell i with hsame | ⟨c, hc, hlive, -, hgone⟩
  · exact hsame
  · have hi : i ∈ (s.round roots).livePlaces := h ▸ mem_livePlaces.2 ⟨c, hc, hlive⟩
    obtain ⟨d, hd, hdlive⟩ := mem_livePlaces.1 hi
    rw [hgone, Option.some.injEq] at hd
    simp [← hd] at hdlive

theorem sweepRounds_of_round_eq {roots : List Nat} {s : Store} (h : s.round roots = s) (n : Nat) :
    sweepRounds roots n s = s := by
  induction n with
  | zero => rfl
  | succ n ih =>
    change sweepRounds roots n (s.round roots) = s
    rw [h, ih]

/-- Each round destroys an object or is the last one that changes anything, so more rounds than
there are living objects reach the end. -/
theorem round_sweepRounds {roots : List Nat} {n : Nat} {s : Store} (h : s.livePlaces.card < n) :
    (sweepRounds roots n s).round roots = sweepRounds roots n s := by
  induction n generalizing s with
  | zero => omega
  | succ n ih =>
    change (sweepRounds roots n (s.round roots)).round roots = sweepRounds roots n (s.round roots)
    by_cases hlive : (s.round roots).livePlaces = s.livePlaces
    · have hdone := round_round_of_cells_eq (cells_round_of_livePlaces_eq hlive)
      rw [sweepRounds_of_round_eq hdone, hdone]
    · have hsub : (s.round roots).livePlaces ⊂ s.livePlaces :=
        (livePlaces_round_subset roots s).ssubset_of_ne hlive
      have hcard := Finset.card_lt_card hsub
      exact ih (by omega)

/-- **A sweep goes to the end.** -/
theorem settled_sweep (roots : List Nat) (s : Store) : (s.sweep roots).Settled roots :=
  settled_of_round_eq (round_sweepRounds (Nat.lt_succ_of_le (card_livePlaces_le s)))

/-! ## Sweeps that destroy nothing -/

/-- Every living object has an owner that somebody holds. -/
def Upheld (roots : List Nat) (s : Store) : Prop :=
  ∀ (i : Nat) (c : Cell), s.cells[i]? = some c → c.isLive = true →
    ∃ w ∈ s.held roots, s.wrappers[w]? = some (.owns i)

theorem Settled.upheld {roots : List Nat} {s : Store} (h : s.Settled roots) : s.Upheld roots := by
  intro i c hc hlive
  obtain ⟨w, hw⟩ := hasOwner_iff.1 (h.owned hc hlive)
  refine ⟨w, ?_, hw⟩
  by_contra hheld
  exact absurd (h.released hw hheld) (by simp)

theorem cells_round_of_upheld {roots : List Nat} {s : Store} (h : s.Upheld roots) :
    (s.round roots).cells = s.cells := by
  refine List.ext_getElem? fun i => ?_
  rcases (shrinks_round roots s).cell i with hsame | ⟨c, hc, hlive, howner, -⟩
  · exact hsame
  · obtain ⟨w, hheld, hw⟩ := h i c hc hlive
    have hkept : (s.round roots).wrappers[w]? = some (.owns i) := by
      rw [getElem?_wrappers_round, hw]
      simp [hheld]
    exact absurd (hasOwner_iff.2 ⟨w, hkept⟩) (by simp [howner])

theorem Upheld.round {roots : List Nat} {s : Store} (h : s.Upheld roots) :
    (s.round roots).Upheld roots := by
  have hcells := cells_round_of_upheld h
  have hheld : (s.round roots).held roots = s.held roots := by
    simp only [held, heldByFields, hcells]
  intro i c hc hlive
  obtain ⟨w, hw, howns⟩ := h i c (hcells ▸ hc) hlive
  refine ⟨w, hheld ▸ hw, ?_⟩
  rw [getElem?_wrappers_round, howns]
  simp [hw]

/-- Where every living object has a held owner, a sweep destroys nothing. -/
theorem cells_sweep_of_upheld {roots : List Nat} {s : Store} (h : s.Upheld roots) :
    (s.sweep roots).cells = s.cells := by
  have hrounds : ∀ (n : Nat) (s : Store), s.Upheld roots →
      (sweepRounds roots n s).cells = s.cells := by
    intro n
    induction n with
    | zero => exact fun _ _ => rfl
    | succ n ih => exact fun s h => (ih _ h.round).trans (cells_round_of_upheld h)
  exact hrounds _ s h

end Store
end Bindery
