import Bindery.Proofs.Store.Sweep

/-!
# Further wrappers and written fields

A handle that crosses to the native side brings at most one further wrapper along, for the object
that it was made for. A field that is written changes nothing else, and the only objects that
may end with it are those that the old value of the field was needed for.

## Main definitions

* `Store.field?`: a field of an object.
* `Store.Targets`: what a wrapper was made for.
* `Store.Extends`: further wrappers, and nothing else that matters.
* `Store.Takes`: how a handle crosses to the native side.
-/
namespace Bindery

theorem OrderedMap.mem_insertEntry_of_mem {α β : Type} [DecidableEq α] {key : α} {value : β}
    {xs : List (α × β)} {p : α × β} (hp : p ∈ xs) :
    p ∈ insertEntry key value xs ∨ (⟨xs⟩ : OrderedMap α β).find? key = some p.2 ∧ p.1 = key := by
  induction xs with
  | nil => simp at hp
  | cons x xs ih =>
    obtain ⟨a, b⟩ := x
    by_cases hk : a = key
    · rcases List.mem_cons.1 hp with rfl | hp
      · exact .inr ⟨by simp [find?, hk], hk⟩
      · exact .inl (by simp [insertEntry, hk, hp])
    · rcases List.mem_cons.1 hp with rfl | hp
      · exact .inl (by simp [insertEntry, hk])
      · rcases ih hp with hmem | ⟨hfind, hkey⟩
        · exact .inl (by simp [insertEntry, hk, hmem])
        · exact .inr ⟨by simpa [find?, hk] using hfind, hkey⟩

/-- Storing keeps every pair but the one that was found at the key. -/
theorem OrderedMap.mem_entries_insert_of_mem {α β : Type} [DecidableEq α] {m : OrderedMap α β}
    (key : α) (value : β) {p : α × β} (hp : p ∈ m.entries) :
    p ∈ (m.insert key value).entries ∨ m.find? key = some p.2 :=
  (mem_insertEntry_of_mem hp).imp_right And.left

namespace Store

/-- A field of an object. -/
def field? (s : Store) (i : Nat) (name : String) : Option NativeValue :=
  (s.cells[i]?).bind fun c => c.fields.find? name

/-- The wrapper of the handle owns the object or refers to it. -/
def Targets (s : Store) (h : Handle) (i : Nat) : Prop :=
  s.wrapper h = .owns i ∨ s.wrapper h = .refers i

variable {s t u : Store} {h k : Handle} {i j : Nat}

/-! ## Wrappers -/

theorem wrapper_eq {x : Wrapper} (hx : x ≠ .released) :
    s.wrapper h = x ↔ s.wrappers[h.wrapper]? = some x := by
  rw [wrapper]
  cases s.wrappers[h.wrapper]? <;> simp [hx.symm]

/-- A handle reaches the object that its wrapper was made for, while that has an owner. -/
theorem reach?_eq_some : s.reach? h = some i ↔ s.Targets h i ∧ s.hasOwner i = true := by
  have howns : s.wrapper h = .owns i → s.hasOwner i = true := hasOwner_of_wrapper
  unfold Targets reach?
  split <;> grind

/-- The later store has the same objects and all old wrappers, and no object got its first
owner. -/
structure Extends (s t : Store) : Prop where
  cells : t.cells = s.cells
  wrapper : ∀ {w : Nat} {x : Wrapper}, s.wrappers[w]? = some x → t.wrappers[w]? = some x
  hasOwner : ∀ i, t.hasOwner i = s.hasOwner i

namespace Extends

theorem refl (s : Store) : s.Extends s := ⟨rfl, fun h => h, fun _ => rfl⟩

theorem trans (h : s.Extends t) (h' : t.Extends u) : s.Extends u :=
  ⟨h'.cells.trans h.cells, fun hx => h'.wrapper (h.wrapper hx),
    fun i => (h'.hasOwner i).trans (h.hasOwner i)⟩

/-- A further wrapper that owns nothing, or something that has an owner. -/
theorem wrap (s : Store) (className : String) (ownership : Ownership) {w : Wrapper}
    (h : ∀ i, w = .owns i → s.hasOwner i = true) : s.Extends (s.wrap className ownership w).2 where
  cells := rfl
  wrapper hx := getElem?_append_of_eq_some hx _
  hasOwner i := by
    rw [Bool.eq_iff_iff, Store.hasOwner, Store.hasOwner, List.contains_iff_mem,
      List.contains_iff_mem]
    constructor
    · intro hmem
      rcases List.mem_append.1 hmem with hold | hnew
      · exact hold
      · exact List.contains_iff_mem.1 (h i (List.mem_singleton.1 hnew).symm)
    · exact fun hmem => List.mem_append.2 (.inl hmem)

theorem borrow (s : Store) (h : Handle) : s.Extends (s.borrow h).2 := by
  refine wrap s _ _ fun i hi => ?_
  cases hw : s.wrapper h <;> simp [hw] at hi

theorem targets (hst : s.Extends t) (hi : s.Targets h i) : t.Targets h i := by
  refine hi.imp (fun howns => ?_) fun hrefers => ?_
  · exact (wrapper_eq (by simp)).2 (hst.wrapper ((wrapper_eq (by simp)).1 howns))
  · exact (wrapper_eq (by simp)).2 (hst.wrapper ((wrapper_eq (by simp)).1 hrefers))

theorem reach? (hst : s.Extends t) (hi : s.reach? h = some i) : t.reach? h = some i := by
  rw [reach?_eq_some] at hi ⊢
  exact ⟨hst.targets hi.1, hst.hasOwner i ▸ hi.2⟩

theorem sound (hst : s.Extends t) (hs : s.Sound) : t.Sound := by
  intro i hi
  rw [hst.hasOwner] at hi
  rw [hst.cells]
  exact hs i hi

end Extends

/-- How a handle crosses to the native side: as it is, as a reference, or as one more holder. -/
inductive Takes (s : Store) (h : Handle) : Handle → Store → Prop where
  | same : Takes s h h s
  | borrowed : Takes s h (s.borrow h).1 (s.borrow h).2
  | shared {further : Handle} {grown : Store} (hk : s.share h = .ok (further, grown)) :
    Takes s h further grown

theorem share_eq_ok (hk : s.share h = .ok (k, t)) :
    ∃ i, s.wrapper h = .owns i ∧ s.wrap h.className .shared (.owns i) = (k, t) := by
  rw [share] at hk
  split at hk
  · simp at hk
  · split at hk
    · exact ⟨_, ‹_›, Except.ok.inj hk⟩
    · simp at hk

theorem Extends.wrapper_eq_owns (hst : s.Extends t) (hi : s.wrapper h = .owns i) :
    t.wrapper h = .owns i :=
  (wrapper_eq (by simp)).2 (hst.wrapper ((wrapper_eq (by simp)).1 hi))

theorem wrapper_wrap (s : Store) (className : String) (ownership : Ownership) (w : Wrapper) :
    (s.wrap className ownership w).2.wrapper (s.wrap className ownership w).1 = w := by
  simp [wrap, wrapper]

namespace Takes

theorem extended (h' : s.Takes h k t) : s.Extends t := by
  cases h' with
  | same => exact .refl s
  | borrowed => exact .borrow s h
  | shared hk =>
    obtain ⟨i, howns, hwrap⟩ := share_eq_ok hk
    have hstep := Extends.wrap s h.className .shared (w := .owns i) fun j hj => by
      rw [Wrapper.owns.injEq] at hj
      exact hj ▸ hasOwner_of_wrapper howns
    rwa [hwrap] at hstep

/-- The wrapper on the native side was made for the same object. -/
theorem targets (h' : s.Takes h k t) (hi : s.Targets h i) : t.Targets k i := by
  cases h' with
  | same => exact hi
  | borrowed =>
    refine .inr ?_
    rw [borrow, wrapper_wrap]
    rcases hi with howns | hrefers
    · rw [howns]
    · rw [hrefers]
  | shared hk =>
    obtain ⟨j, howns, hwrap⟩ := share_eq_ok hk
    have hnew := wrapper_wrap s h.className .shared (.owns j)
    rw [hwrap] at hnew
    rcases hi with hi | hi
    · exact .inl (hnew.trans (howns.symm.trans hi))
    · simp [howns] at hi

end Takes

/-! ## Fields -/

section Fields

variable {name : String} {value : NativeValue}

theorem getElem?_cells_writeField (s : Store) (i : Nat) (name : String) (value : NativeValue)
    (j : Nat) : (s.writeField i name value).cells[j]? = (s.cells[j]?).map fun c =>
      if i = j then { c with fields := c.fields.insert name value } else c := by
  rw [writeField, List.getElem?_modify]
  rfl

theorem Sound.writeField (hs : s.Sound) : (s.writeField i name value).Sound := by
  intro j hj
  obtain ⟨c, hc, hlive⟩ := hs j hj
  refine ⟨_, by rw [getElem?_cells_writeField, hc]; rfl, ?_⟩
  split <;> exact hlive

theorem field?_writeField (s : Store) (i : Nat) (name : String) (value : NativeValue) (j : Nat)
    (other : String) : (s.writeField i name value).field? j other =
      if j = i ∧ other = name then (s.cells[i]?).map fun _ => value else s.field? j other := by
  rw [field?, getElem?_cells_writeField, field?]
  by_cases hij : i = j
  · subst hij
    cases s.cells[i]? with
    | none => simp
    | some c => by_cases hname : other = name <;> simp [hname]
  · cases s.cells[j]? <;> simp [hij, Ne.symm hij]

/-- Writing a field takes away from an object only owners that the old value was. -/
theorem upheld_writeField {roots : List Nat} (hs : s.Upheld roots) (hst : s.Extends t)
    (hold : ∀ o p, s.field? i name = some (.object o) → s.wrapper o ≠ .owns p) :
    (t.writeField i name value).Upheld roots := by
  intro j c hc hlive
  obtain ⟨d, hd, hdlive⟩ : ∃ d, s.cells[j]? = some d ∧ d.isLive = true := by
    rw [getElem?_cells_writeField, Option.map_eq_some_iff, hst.cells] at hc
    obtain ⟨d, hd, rfl⟩ := hc
    refine ⟨d, hd, ?_⟩
    split at hlive <;> exact hlive
  obtain ⟨w, hw, howns⟩ := hs j d hd hdlive
  refine ⟨w, List.mem_append.2 ((List.mem_append.1 hw).imp_right fun hw => ?_),
    hst.wrapper howns⟩
  obtain ⟨l, e, he, helive, other, g, hg, rfl⟩ := mem_heldByFields.1 hw
  refine mem_heldByFields.2 ⟨l, _, by rw [getElem?_cells_writeField, hst.cells, he]; rfl, ?_⟩
  by_cases hil : i = l
  · simp only [if_pos hil]
    rcases OrderedMap.mem_entries_insert_of_mem name value hg with hg | hg
    · exact ⟨helive, other, g, hg, rfl⟩
    · refine absurd ((wrapper_eq (by simp)).2 howns) (hold g j ?_)
      rw [field?, hil, he]
      exact hg
  · simp only [if_neg hil]
    exact ⟨helive, other, g, hg, rfl⟩

/-- The handle that was written is held by the object. -/
theorem mem_heldByFields_of_field? {c : Cell} (hc : s.cells[i]? = some c) (hlive : c.isLive = true)
    (hk : s.field? i name = some (.object k)) : k.wrapper ∈ s.heldByFields := by
  rw [field?, hc, Option.bind_some] at hk
  exact mem_heldByFields.2
    ⟨i, c, hc, hlive, name, k, OrderedMap.mem_entries_of_find? hk, rfl⟩

end Fields

/-! ## Sweeping -/

section Sweeping

variable {roots : List Nat}

theorem Shrinks.cell_of_hasOwner (h : Shrinks roots s t) (hi : t.hasOwner i = true) :
    t.cells[i]? = s.cells[i]? := by
  rcases h.cell i with hsame | ⟨-, -, -, hnone, -⟩
  · exact hsame
  · simp [hnone] at hi

theorem Shrinks.field?_of_hasOwner (h : Shrinks roots s t) (hi : t.hasOwner i = true)
    (name : String) : t.field? i name = s.field? i name := by
  rw [field?, field?, h.cell_of_hasOwner hi]

/-- What is held afterwards has the wrapper that it had before. -/
theorem Shrinks.wrapper_of_mem_held (hst : Shrinks roots s t) (hh : h.wrapper ∈ t.held roots) :
    t.wrapper h = s.wrapper h := by
  rw [Store.wrapper, Store.wrapper, hst.kept hh]

end Sweeping
end Store
end Bindery
