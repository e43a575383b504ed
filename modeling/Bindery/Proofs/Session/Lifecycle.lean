import Bindery.Proofs.Session.Ledger

/-!
# The life of objects behind handles

What a handle reaches can be read off the ledger: an object is destroyed, once, when none of its
owning wrappers that were not released is held any more, and a handle is alive as long as its
wrapper was not released and its object was not destroyed. What is gone never comes back.

## Main definitions

* `Store.Follows`: a later store, in which no wrapper and no owner of old objects came back.
-/
namespace Bindery

/-! ## Nothing comes back -/

/-- In the later store an old wrapper is as it was or is released, and an old object has an
owner only if it had one. -/
structure Store.Follows (s t : Store) : Prop where
  length_wrappers : s.wrappers.length ≤ t.wrappers.length
  length_cells : s.cells.length ≤ t.cells.length
  wrapper : ∀ w < s.wrappers.length,
    t.wrappers[w]? = s.wrappers[w]? ∨ t.wrappers[w]? = some .released
  owner : ∀ i < s.cells.length, t.hasOwner i = true → s.hasOwner i = true

namespace Store.Follows

variable {s t u : Store}

theorem refl (s : Store) : s.Follows s :=
  ⟨Nat.le_refl _, Nat.le_refl _, fun _ _ => .inl rfl, fun _ _ h => h⟩

theorem trans (h : s.Follows t) (h' : t.Follows u) : s.Follows u where
  length_wrappers := h.length_wrappers.trans h'.length_wrappers
  length_cells := h.length_cells.trans h'.length_cells
  wrapper w hw := by
    rcases h'.wrapper w (hw.trans_le h.length_wrappers) with hsame | hgone
    · rw [hsame]
      exact h.wrapper w hw
    · exact .inr hgone
  owner i hi howner := h.owner i hi (h'.owner i (hi.trans_le h.length_cells) howner)

theorem of_shrinks {roots : List Nat} (h : Shrinks roots s t) : s.Follows t :=
  ⟨h.length_wrappers.ge, h.length_cells.ge, fun w _ => h.wrapper w, fun _ _ => h.hasOwner⟩

theorem sweep (s : Store) (roots : List Nat) : s.Follows (s.sweep roots) :=
  of_shrinks (shrinks_sweep roots s)

/-- A further wrapper owns nothing old, unless that has an owner already. -/
theorem wrap (s : Store) (className : String) (ownership : Ownership) {w : Wrapper}
    (h : ∀ i < s.cells.length, w = .owns i → s.hasOwner i = true) :
    s.Follows (s.wrap className ownership w).2 where
  length_wrappers := by simp [Store.wrap]
  length_cells := Nat.le_refl _
  wrapper v hv := .inl (List.getElem?_append_left hv)
  owner i hi howner := by
    rcases List.mem_append.1 (List.contains_iff_mem.1 howner) with hold | hnew
    · exact List.contains_iff_mem.2 hold
    · exact h i hi (List.mem_singleton.1 hnew).symm

theorem adopt (s : Store) (ownership : Ownership) (className : String)
    (fields : OrderedMap String NativeValue) (label : Option String) :
    s.Follows (s.adopt ownership className fields label).2 where
  length_wrappers := by simp [Store.adopt, Store.wrap]
  length_cells := by simp [Store.adopt, Store.wrap]
  wrapper v hv := .inl (List.getElem?_append_left hv)
  owner i hi howner := by
    rcases List.mem_append.1 (List.contains_iff_mem.1 howner) with hold | hnew
    · exact List.contains_iff_mem.2 hold
    · rw [List.mem_singleton, Wrapper.owns.injEq] at hnew
      omega

theorem borrow (s : Store) (h : Handle) : s.Follows (s.borrow h).2 := by
  refine wrap s _ _ fun i _ hi => ?_
  cases hw : s.wrapper h <;> simp [hw] at hi

theorem share {h k : Handle} (hshare : s.share h = .ok (k, t)) : s.Follows t := by
  rw [Store.share] at hshare
  split at hshare
  · simp at hshare
  · split at hshare
    · rename_i cell hw
      have hstore : (s.wrap h.className .shared (.owns cell)).2 = t :=
        congrArg Prod.snd (Except.ok.inj hshare)
      rw [← hstore]
      refine wrap s _ _ fun i _ hi => ?_
      rw [Wrapper.owns.injEq] at hi
      exact hi ▸ hasOwner_of_wrapper hw
    · simp at hshare

theorem release (s : Store) (h : Handle) : s.Follows (s.release h) where
  length_wrappers := by simp [Store.release]
  length_cells := Nat.le_refl _
  wrapper w hw := by
    simp only [Store.release, List.getElem?_set]
    by_cases heq : h.wrapper = w <;> simp [heq, hw]
  owner i _ howner := by
    rcases List.mem_or_eq_of_mem_set (List.contains_iff_mem.1 howner) with hold | hnew
    · exact List.contains_iff_mem.2 hold
    · simp at hnew

/-- A handle that reaches nothing now will reach nothing later, as long as old wrappers refer to
old objects. -/
theorem isAlive {h : Handle} (hst : s.Follows t) (hw : h.wrapper < s.wrappers.length)
    (hrefers : ∀ i, s.wrapper h = .refers i → i < s.cells.length) (hdead : s.isAlive h = false) :
    t.isAlive h = false := by
  rcases hst.wrapper h.wrapper hw with hsame | hgone
  · have hwrapper : t.wrapper h = s.wrapper h := by rw [Store.wrapper, Store.wrapper, hsame]
    cases hcase : s.wrapper h with
    | owns i => simp [Store.isAlive, reach?, hcase] at hdead
    | released => simp [Store.isAlive, reach?, hwrapper, hcase]
    | refers i =>
      have hnone : s.hasOwner i = false := by
        by_contra howner
        simp [Store.isAlive, reach?, hcase, howner] at hdead
      have hnone' : t.hasOwner i = false := by
        by_contra howner
        have := hst.owner i (hrefers i hcase) (by simpa using howner)
        simp [hnone] at this
      simp [Store.isAlive, reach?, hwrapper, hcase, hnone']
  · simp [Store.isAlive, reach?, Store.wrapper, hgone]

end Store.Follows

namespace Session

theorem follows_step {st : Step} (hst : st.isOnHandles = true) (s : Session) :
    s.store.Follows (s.step st).2.store := by
  have hempty : ∀ {slot : String} {f : Handle → Sitting Outcome}, s.slots.find? slot = none →
      (Sitting.slot slot >>= f) s = .error .noSlot :=
    fun hh => bind_of_error (slot_of_find?_eq_none hh)
  cases st <;> simp only [Step.isOnHandles, Bool.false_eq_true] at hst
  case create className isShared fields target =>
    exact (Store.Follows.adopt s.store (.ofNew isShared) _ _ _).trans (.sweep _ _)
  case clone slot target =>
    cases hh : s.slots.find? slot with
    | none => rw [step_of_error (hempty hh)]; exact .refl _
    | some h =>
      rw [step_clone hh, store_settled_put]
      exact .sweep _ _
  case borrow slot target =>
    cases hh : s.slots.find? slot with
    | none => rw [step_of_error (hempty hh)]; exact .refl _
    | some h =>
      rw [step_borrow hh, store_settled_put]
      exact (Store.Follows.borrow s.store h).trans (.sweep _ _)
  case share slot target =>
    cases hh : s.slots.find? slot with
    | none => rw [step_of_error (hempty hh)]; exact .refl _
    | some h =>
      cases hshare : s.store.share h with
      | error e => rw [step_share_of_error hh hshare]; exact .refl _
      | ok made =>
        rw [step_share hh hshare, store_settled_put]
        exact (Store.Follows.share hshare).trans (.sweep _ _)
  case destroy slot =>
    cases hh : s.slots.find? slot with
    | none => rw [step_of_error (hempty hh)]; exact .refl _
    | some h =>
      rw [step_destroy hh]
      exact (Store.Follows.release s.store h).trans (.sweep _ _)
  case drop => exact .sweep _ _

theorem follows_of_acts {x y : Session × Ledger} (h : Relation.ReflTransGen Acts x y) :
    x.1.store.Follows y.1.store := by
  induction h with
  | refl => exact .refl _
  | tail _ hstep ih =>
    obtain ⟨hst, -⟩ := hstep
    exact ih.trans (follows_step hst _)

/-! ## What the ledger says -/

theorem run_cell (h : Handle) (s : Store) :
    h.cell.run s = match s.cell? h with
      | some c => .ok (c, s)
      | none => .error (.destroyed h.className) := by
  cases hc : s.cell? h <;>
    simp [Handle.cell, hc, bind, StateT.bind, Except.bind, StateT.run, get, getThe,
      MonadStateOf.get, StateT.get, pure, Except.pure, StateT.pure, throw, throwThe,
      MonadExceptOf.throw, StateT.lift]

section Ledger

variable {s : Session} {l : Ledger}

/-- An object is alive exactly as long as some owner of it, not released, is held. -/
theorem isLive_iff (ht : Tracks s l) (hs : s.store.Settled s.roots) {i : Nat} {c : Cell}
    (hc : s.store.cells[i]? = some c) :
    c.isLive = true ↔ ∃ (w : Nat) (r : WrapperRecord), l[w]? = some r ∧ r.object = i ∧
      r.ownership ≠ .borrowed ∧ r.released = false ∧ w ∈ s.held := by
  constructor
  · intro hlive
    obtain ⟨w, hw, howns⟩ := hs.upheld i c hc hlive
    obtain ⟨r, hr, hstate⟩ := ht.state hw
    rw [howns, Option.some.injEq, eq_comm, WrapperRecord.state_eq_owns] at hstate
    exact ⟨w, r, hr, hstate.1, hstate.2.1, hstate.2.2, hw⟩
  · rintro ⟨w, r, hr, rfl, hborrowed, hreleased, hw⟩
    obtain ⟨q, hq, hstate⟩ := ht.state hw
    rw [hr, Option.some.injEq] at hq
    have howns : s.store.wrappers[w]? = some (.owns r.object) := by
      rw [hstate, ← hq, WrapperRecord.state_eq_owns.2 ⟨rfl, hborrowed, hreleased⟩]
    obtain ⟨d, hd, hlive⟩ := ht.sound _ (Store.hasOwner_iff.2 ⟨w, howns⟩)
    rw [hc, Option.some.injEq] at hd
    rwa [hd]

/-- What a handle of the host reaches: the object that its wrapper was made for, unless the
wrapper was released or the object destroyed. -/
theorem reach?_eq (ht : Tracks s l) (hs : s.store.Settled s.roots) {h : Handle}
    (hh : h ∈ s.handles) :
    ∃ (r : WrapperRecord) (c : Cell), l[h.wrapper]? = some r ∧
      s.store.cells[r.object]? = some c ∧
      s.store.reach? h = if r.released = false ∧ c.isLive = true then some r.object else none := by
  obtain ⟨r, hr, hstate, -⟩ := ht.wrapper_eq hh
  have hlt := ht.object r (List.mem_of_getElem? hr)
  obtain ⟨c, hc⟩ : ∃ c, s.store.cells[r.object]? = some c := ⟨_, List.getElem?_eq_getElem hlt⟩
  refine ⟨r, c, hr, hc, ?_⟩
  have howner : s.store.hasOwner r.object = c.isLive := by
    rw [Bool.eq_iff_iff]
    refine ⟨fun h => ?_, fun h => hs.owned hc h⟩
    obtain ⟨d, hd, hlive⟩ := ht.sound _ h
    rw [hc, Option.some.injEq] at hd
    rwa [hd]
  cases hreleased : r.released
  · by_cases hborrowed : r.ownership = .borrowed
    · have hrefers := hstate.trans (WrapperRecord.state_eq_refers.2 ⟨rfl, hborrowed, hreleased⟩)
      simp [Store.reach?, hrefers, howner]
    · have howns := hstate.trans (WrapperRecord.state_eq_owns.2 ⟨rfl, hborrowed, hreleased⟩)
      have hlive : c.isLive = true := howner ▸ Store.hasOwner_of_wrapper howns
      simp [Store.reach?, howns, hlive]
  · simp [Store.reach?, hstate, WrapperRecord.state, hreleased]

/-- The end of a wrapper that owns nothing is the end of no object. -/
theorem cells_of_borrowed (ht : Tracks s l) (hs : s.store.Settled s.roots) {slot : String}
    {h : Handle} (hh : s.slots.find? slot = some h) (hborrowed : h.ownership = .borrowed) :
    (s.step (.destroy slot)).2.store.cells = s.store.cells ∧
      (s.step (.drop slot)).2.store.cells = s.store.cells := by
  obtain ⟨r, hr, hstate, hownership⟩ := ht.wrapper_eq (mem_handles_of_find? hh)
  have hother : ∀ {w i : Nat}, s.store.wrappers[w]? = some (.owns i) → h.wrapper ≠ w := by
    rintro w i hw rfl
    have howns : s.store.wrapper h = .owns i := by simp [Store.wrapper, hw]
    rw [hstate, WrapperRecord.state_eq_owns, hownership] at howns
    exact howns.2.1 hborrowed
  constructor
  · rw [step_destroy hh]
    refine Store.cells_sweep_of_upheld fun i c hc hlive => ?_
    obtain ⟨w, hw, howns⟩ := hs.upheld i c hc hlive
    refine ⟨w, hw, ?_⟩
    simp [Store.release, hother howns, howns]
  · rw [step_drop]
    refine Store.cells_sweep_of_upheld fun i c hc hlive => ?_
    obtain ⟨w, hw, howns⟩ := hs.upheld i c hc hlive
    refine ⟨w, ?_, howns⟩
    rcases List.mem_append.1 hw with hroot | hfield
    · obtain ⟨p, hp, rfl⟩ := List.mem_map.1 hroot
      refine List.mem_append.2 (.inl (List.mem_map.2 ⟨p, List.mem_filter.2 ⟨hp, ?_⟩, rfl⟩))
      have hne : p.1 ≠ slot := by
        rintro rfl
        have hp' : s.slots.find? p.1 = some p.2 := OrderedMap.find?_of_mem ht.keys hp
        rw [hh, Option.some.injEq] at hp'
        exact hother howns (by rw [hp'])
      simpa using hne
    · exact List.mem_append.2 (.inr hfield)

end Ledger

/-- **The life of objects.** Whatever the host does with handles: an object is destroyed at most
once, and it has been destroyed exactly when no wrapper that was made to own it, and was not
released, is held any more. The end of a wrapper that borrows destroys nothing. A handle of the
host is alive exactly when its wrapper was not released and its object not destroyed; then, and
only then, it gives access to the object. Two handles reach the same object exactly when both are
alive and were made for one object. A handle that is not alive never is again. -/
theorem lifecycle {m : BoundModule} {s : Session} {l : Ledger} (hreached : Reached m s l) :
    (∀ (i : Nat) (c : Cell), s.store.cells[i]? = some c → c.destructions ≤ 1 ∧
      (c.destructions = 1 ↔ ¬∃ (w : Nat) (r : WrapperRecord), l[w]? = some r ∧ r.object = i ∧
        r.ownership ≠ .borrowed ∧ r.released = false ∧ w ∈ s.held)) ∧
    (∀ (slot : String) (h : Handle), s.slots.find? slot = some h → h.ownership = .borrowed →
      (s.step (.destroy slot)).2.store.cells = s.store.cells ∧
      (s.step (.drop slot)).2.store.cells = s.store.cells) ∧
    (∀ h ∈ s.handles, ∃ (r : WrapperRecord) (c : Cell), l[h.wrapper]? = some r ∧
      s.store.cells[r.object]? = some c ∧
      (s.store.isAlive h = true ↔ r.released = false ∧ c.destructions = 0) ∧
      h.cell.run s.store = if s.store.isAlive h then .ok (c, s.store)
        else .error (.destroyed h.className)) ∧
    (∀ a ∈ s.handles, ∀ b ∈ s.handles, s.store.sameObject a b = true ↔
      s.store.isAlive a = true ∧ s.store.isAlive b = true ∧
        (l[a.wrapper]?).map (·.object) = (l[b.wrapper]?).map (·.object)) ∧
    ∀ (t : Session) (k : Ledger), Relation.ReflTransGen Acts (s, l) (t, k) →
      ∀ h ∈ s.handles, s.store.isAlive h = false → t.store.isAlive h = false := by
  obtain ⟨ht, hs⟩ := hreached.tracks
  refine ⟨fun i c hc => ?_, fun slot h hh hborrowed => cells_of_borrowed ht hs hh hborrowed,
    fun h hh => ?_, fun a ha b hb => ?_, fun t k hsteps h hh hdead => ?_⟩
  · refine ⟨ht.once c (List.mem_of_getElem? hc), ?_⟩
    have honce := ht.once c (List.mem_of_getElem? hc)
    rw [← isLive_iff ht hs hc, c.isLive_iff]
    omega
  · obtain ⟨r, c, hr, hc, hreach⟩ := reach?_eq ht hs hh
    refine ⟨r, c, hr, hc, ?_, ?_⟩
    · rw [Store.isAlive, hreach, ← c.isLive_iff]
      split <;> simp_all
    · rw [run_cell, Store.cell?, Store.isAlive, hreach]
      by_cases halive : r.released = false ∧ c.isLive = true
      · simp [halive, hc]
      · simp [halive]
  · obtain ⟨r, c, hr, -, hreach⟩ := reach?_eq ht hs ha
    obtain ⟨q, d, hq, -, hreach'⟩ := reach?_eq ht hs hb
    rw [Store.sameObject, Store.isAlive, Store.isAlive, hreach, hreach', hr, hq]
    by_cases hone : r.released = false ∧ c.isLive = true <;>
      by_cases hother : q.released = false ∧ d.isLive = true <;> simp [hone, hother]
  · obtain ⟨r, hr, hstate, -⟩ := ht.wrapper_eq hh
    refine (follows_of_acts hsteps).isAlive ?_ (fun i hi => ?_) hdead
    · exact (List.getElem?_eq_some_iff.1 hr).1.trans_eq ht.length
    · rw [hstate, WrapperRecord.state_eq_refers] at hi
      exact hi.1 ▸ ht.object r (List.mem_of_getElem? hr)

/-- Two holders of one object, a reference to it, and one that is borrowed too late: the first
holder is released and the second one dropped. -/
def twoHolders : List Step :=
  [.create "A" true [] "first", .share "first" (some "second"), .borrow "second" (some "seen"),
    .destroy "first", .borrow "first" (some "late"), .drop "second"]

/-- What the two holders leave behind, with its ledger. -/
def afterTwoHolders : Session × Ledger :=
  twoHolders.foldl (fun x st => ((x.1.step st).2, x.2.enter x.1 st))
    ({ exports := ⟨"m", {}, []⟩ }, [])

theorem reached_afterTwoHolders :
    Reached ⟨"m", {}, []⟩ afterTwoHolders.1 afterTwoHolders.2 := by
  have hrun : ∀ (steps : List Step) (x : Session × Ledger),
      (∀ st ∈ steps, st.isOnHandles = true ∧ ∀ s : Session, s.Grants st) →
      Relation.ReflTransGen Acts x
        (steps.foldl (fun x st => ((x.1.step st).2, x.2.enter x.1 st)) x) := by
    intro steps
    induction steps with
    | nil => exact fun _ _ => .refl
    | cons st steps ih =>
      intro x hsteps
      have hst := hsteps st (.head _)
      have hrest := fun st' hst' => hsteps st' (.tail _ hst')
      exact .head (.step (s := x.1) (l := x.2) hst.1 (hst.2 _)) (ih _ hrest)
  refine hrun twoHolders _ ?_
  simp [twoHolders, Step.isOnHandles, Grants]

/-- The object was destroyed, so by the ledger nobody holds an owner of it that was not
released. -/
theorem lifecycle_afterTwoHolders :
    Reached ⟨"m", {}, []⟩ afterTwoHolders.1 afterTwoHolders.2 ∧
    afterTwoHolders.1.store.cells.map Cell.destructions = [1] ∧
    ¬∃ (w : Nat) (r : WrapperRecord), afterTwoHolders.2[w]? = some r ∧ r.object = 0 ∧
      r.ownership ≠ .borrowed ∧ r.released = false ∧ w ∈ afterTwoHolders.1.held := by
  refine ⟨reached_afterTwoHolders, by decide, ?_⟩
  have hcell : afterTwoHolders.1.store.cells[0]? = some ⟨"A", {}, some "first", 1⟩ := rfl
  exact ((lifecycle reached_afterTwoHolders).1 0 _ hcell).2.1 rfl

end Session
end Bindery
