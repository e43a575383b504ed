import Mathlib.Logic.Relation
import Bindery.Proofs.Session.Effects

/-!
# A ledger of handles

A host makes objects, borrows and shares them, copies and drops handles, and destroys. A ledger
notes what was done and nothing of what became of it: for each wrapper the object that it was
made for, its ownership, and whether it was released. Every step on handles keeps the store and
the ledger in agreement.

## Main definitions

* `WrapperRecord`, `Ledger`: what was done to each wrapper.
* `Session.Acts`: one step on handles, noted in the ledger.
* `Session.Reached`: the sessions and ledgers that such steps lead to.
* `Session.Tracks`: the store agrees with the ledger.
-/
namespace Bindery

/-! ## The ledger -/

/-- What was done to a wrapper. -/
structure WrapperRecord where
  /-- The place of the object that the wrapper was made for. -/
  object : Nat
  ownership : Ownership
  /-- The wrapper was released, or was borrowed from one that had been. -/
  released : Bool
deriving DecidableEq

/-- The state of a wrapper of which somebody holds a handle. -/
def WrapperRecord.state (r : WrapperRecord) : Wrapper :=
  if r.released then .released
  else if r.ownership = .borrowed then .refers r.object
  else .owns r.object

theorem WrapperRecord.state_eq_owns {r : WrapperRecord} {i : Nat} :
    r.state = .owns i ↔ r.object = i ∧ r.ownership ≠ .borrowed ∧ r.released = false := by
  cases hreleased : r.released <;> by_cases hborrowed : r.ownership = .borrowed <;>
    simp [state, hreleased, hborrowed]

theorem WrapperRecord.state_eq_refers {r : WrapperRecord} {i : Nat} :
    r.state = .refers i ↔ r.object = i ∧ r.ownership = .borrowed ∧ r.released = false := by
  cases hreleased : r.released <;> by_cases hborrowed : r.ownership = .borrowed <;>
    simp [state, hreleased, hborrowed]

/-- What was done to each wrapper, by its number. -/
abbrev Ledger := List WrapperRecord

/-- The record of the wrapper that a slot names. -/
def Ledger.ofSlot? (l : Ledger) (s : Session) (slot : String) : Option WrapperRecord :=
  (s.slots.find? slot).bind fun h => l[h.wrapper]?

/-- The ledger after a step. -/
def Ledger.enter (l : Ledger) (s : Session) : Step → Ledger
  | .create _ isShared _ _ => l ++ [⟨s.store.cells.length, .ofNew isShared, false⟩]
  | .borrow slot _ =>
    match l.ofSlot? s slot with
    | some r => l ++ [⟨r.object, .borrowed, r.released⟩]
    | none => l
  | .share slot _ =>
    match l.ofSlot? s slot with
    | some r =>
      if r.ownership = .shared && !r.released then l ++ [⟨r.object, .shared, false⟩] else l
    | none => l
  | .destroy slot =>
    match s.slots.find? slot with
    | some h => l.modify h.wrapper fun r => { r with released := true }
    | none => l
  | _ => l

/-- A step on handles: new objects, copies, references, further holders, and their ends. -/
def Step.isOnHandles : Step → Bool
  | .create .. | .clone .. | .borrow .. | .share .. | .destroy .. | .drop .. => true
  | _ => false

namespace Session

/-- A new object may hold handles in its fields, but only ones that the host has. -/
def Grants (s : Session) : Step → Prop
  | .create _ _ fields _ => ∀ p ∈ fields, ∀ h, p.2.handle? = some h → h ∈ s.handles
  | _ => True

/-- One step on handles, noted in the ledger. -/
inductive Acts : Session × Ledger → Session × Ledger → Prop where
  | step {s : Session} {l : Ledger} {st : Step} (hst : st.isOnHandles = true) (hst' : s.Grants st) :
      Acts (s, l) ((s.step st).2, l.enter s st)

/-- Steps on handles lead from nothing to a session and its ledger. -/
def Reached (m : BoundModule) (s : Session) (l : Ledger) : Prop :=
  Relation.ReflTransGen Acts ({ exports := m }, []) (s, l)

/-- The store agrees with the ledger, as far as somebody holds a handle. -/
structure Tracks (s : Session) (l : Ledger) : Prop where
  length : l.length = s.store.wrappers.length
  keys : s.slots.keys.Nodup
  state : ∀ {w : Nat}, w ∈ s.held → ∃ r, l[w]? = some r ∧ s.store.wrappers[w]? = some r.state
  ownership : ∀ {h : Handle} {r : WrapperRecord}, h ∈ s.handles → l[h.wrapper]? = some r →
    r.ownership = h.ownership
  object : ∀ r ∈ l, r.object < s.store.cells.length
  sound : s.store.Sound
  once : ∀ c ∈ s.store.cells, c.destructions ≤ 1

/-! ## Sweeping keeps the ledger right -/

theorem Tracks.settled {s : Session} {l : Ledger} (h : Tracks s l) : Tracks s.settled l := by
  have hshrinks : Store.Shrinks s.roots s.store s.settled.store := Store.shrinks_sweep _ _
  refine ⟨h.length.trans hshrinks.length_wrappers.symm, h.keys, ?_, h.ownership, ?_,
    hshrinks.sound h.sound, ?_⟩
  · intro w hw
    obtain ⟨r, hr, hstate⟩ := h.state (hshrinks.mem_held hw)
    exact ⟨r, hr, (hshrinks.kept hw).trans hstate⟩
  · intro r hr
    exact (h.object r hr).trans_eq hshrinks.length_cells.symm
  · intro c hc
    obtain ⟨i, hi⟩ := List.mem_iff_getElem?.1 hc
    rcases hshrinks.cell i with hsame | ⟨d, hd, hlive, -, hgone⟩
    · exact h.once c (List.mem_of_getElem? (hsame ▸ hi))
    · rw [hgone, Option.some.injEq] at hi
      have hzero := d.isLive_iff.1 hlive
      simp [← hi, Cell.destroyed, hzero]

/-! ## Each step keeps the ledger right -/

section Changes

variable {s : Session} {l : Ledger}

theorem mem_held_put {target : Option String} {h : Handle} {w : Nat}
    (hw : w ∈ (s.put target h).held) : w = h.wrapper ∨ w ∈ s.held := by
  rw [held, Store.held, List.mem_append, store_put] at hw
  rcases hw with hw | hw
  · obtain ⟨k, hk, rfl⟩ := mem_roots.1 hw
    rcases mem_handles_put hk with rfl | hk
    · exact .inl rfl
    · exact .inr (mem_held_of_mem_handles hk)
  · exact .inr (List.mem_append.2 (.inr hw))

/-- A copy of a handle. -/
theorem Tracks.put (ht : Tracks s l) {h : Handle} (hh : h ∈ s.handles) (target : Option String) :
    Tracks (s.put target h) l where
  length := by rw [store_put]; exact ht.length
  keys := keys_nodup_put ht.keys target h
  state hw := by
    rw [store_put]
    rcases mem_held_put hw with rfl | hw
    · exact ht.state (mem_held_of_mem_handles hh)
    · exact ht.state hw
  ownership hk hr := by
    rcases mem_handles_put hk with rfl | hk
    · exact ht.ownership hh hr
    · exact ht.ownership hk hr
  object := by rw [store_put]; exact ht.object
  sound := by rw [store_put]; exact ht.sound
  once := by rw [store_put]; exact ht.once

/-- A further wrapper for an object. One that owns must find it alive. -/
theorem Tracks.wrap (ht : Tracks s l) {r : WrapperRecord}
    (hobject : r.object < s.store.cells.length)
    (hlive : ∀ i, r.state = .owns i → ∃ c, s.store.cells[i]? = some c ∧ c.isLive = true)
    (className : String) (target : Option String) :
    Tracks (Session.put { s with store := (s.store.wrap className r.ownership r.state).2 } target
      (s.store.wrap className r.ownership r.state).1) (l ++ [r]) where
  length := by simp [Store.wrap, ht.length]
  keys := by
    cases target with
    | none => exact ht.keys
    | some name => exact OrderedMap.nodup_keys_insert ht.keys
  state {w} hw := by
    simp only [store_put, Store.wrap]
    rcases mem_held_put hw with rfl | hw
    · refine ⟨r, ?_, ?_⟩
      · simp [Store.wrap, ← ht.length]
      · simp [Store.wrap]
    · obtain ⟨q, hq, hstate⟩ := ht.state (w := w) hw
      exact ⟨q, getElem?_append_of_eq_some hq _, getElem?_append_of_eq_some hstate _⟩
  ownership := by
    intro k q hk hq
    rcases mem_handles_put hk with rfl | hk
    · have hnew : (l ++ [r])[s.store.wrappers.length]? = some r := by simp [← ht.length]
      rw [show (s.store.wrap className r.ownership r.state).1.wrapper = s.store.wrappers.length
        from rfl, hnew, Option.some.injEq] at hq
      rw [← hq]
      rfl
    · obtain ⟨q', hq', -⟩ := ht.state (mem_held_of_mem_handles hk)
      rw [getElem?_append_of_eq_some hq', Option.some.injEq] at hq
      exact ht.ownership hk (hq ▸ hq')
  object := by
    intro q hq
    rw [store_put]
    rcases List.mem_append.1 hq with hq | hq
    · exact ht.object q hq
    · rw [List.mem_singleton.1 hq]
      exact hobject
  sound := by rw [store_put]; exact ht.sound.wrap hlive className r.ownership
  once := by rw [store_put]; exact ht.once

/-- A further object, the fields of which hold handles of the host only. -/
theorem Tracks.addCell (ht : Tracks s l) {c : Cell} (hnew : c.destructions = 0)
    (hfields : ∀ p ∈ c.fields.entries, ∀ h, p.2.handle? = some h → h ∈ s.handles) :
    Tracks { s with store := { s.store with cells := s.store.cells ++ [c] } } l where
  length := ht.length
  keys := ht.keys
  state {w} hw := by
    refine ht.state ?_
    rcases List.mem_append.1 hw with hw | hw
    · exact List.mem_append.2 (.inl hw)
    · obtain ⟨i, d, hd, hlive, name, h, hfield, rfl⟩ := Store.mem_heldByFields.1 hw
      by_cases hi : i < s.store.cells.length
      · rw [List.getElem?_append_left hi] at hd
        exact List.mem_append.2 (.inr
          (Store.mem_heldByFields.2 ⟨i, d, hd, hlive, name, h, hfield, rfl⟩))
      · rw [List.getElem?_append_right (Nat.le_of_not_lt hi)] at hd
        have hcell : d = c := by
          have := List.mem_of_getElem? hd
          simpa using this
        subst hcell
        exact mem_held_of_mem_handles (hfields _ hfield h rfl)
  ownership := ht.ownership
  object r hr := (ht.object r hr).trans_le (by simp)
  sound := ht.sound.addCell c
  once := by
    intro d hd
    rcases List.mem_append.1 hd with hd | hd
    · exact ht.once d hd
    · rw [List.mem_singleton.1 hd, hnew]
      exact Nat.zero_le 1

/-- The release of a wrapper. -/
theorem Tracks.release (ht : Tracks s l) (h : Handle) :
    Tracks { s with store := s.store.release h }
      (l.modify h.wrapper fun r => { r with released := true }) where
  length := by simp [Store.release, ht.length]
  keys := ht.keys
  state {w} hw := by
    obtain ⟨r, hr, hstate⟩ := ht.state (w := w) hw
    simp only [Store.release, List.getElem?_modify, List.getElem?_set, hr]
    by_cases hwrapper : h.wrapper = w
    · have hlt : w < s.store.wrappers.length := (List.getElem?_eq_some_iff.1 hstate).1
      simp [hwrapper, hlt, WrapperRecord.state]
    · simp [hwrapper, hstate]
  ownership {k q} hk hq := by
    rw [List.getElem?_modify, Option.map_eq_map, Option.map_eq_some_iff] at hq
    obtain ⟨r, hr, rfl⟩ := hq
    rw [← ht.ownership hk hr]
    split <;> rfl
  object q hq := by
    obtain ⟨w, hw⟩ := List.mem_iff_getElem?.1 hq
    rw [List.getElem?_modify, Option.map_eq_map, Option.map_eq_some_iff] at hw
    obtain ⟨r, hr, rfl⟩ := hw
    have hobject := ht.object r (List.mem_of_getElem? hr)
    split <;> exact hobject
  sound := ht.sound.release h
  once := ht.once

/-- The end of a slot. -/
theorem Tracks.erase (ht : Tracks s l) (slot : String) :
    Tracks { s with slots := s.slots.erase slot } l := by
  have hhandles : ∀ k ∈ Session.handles { s with slots := s.slots.erase slot }, k ∈ s.handles := by
    intro k hk
    obtain ⟨p, hp, rfl⟩ := List.mem_map.1 hk
    exact List.mem_map.2 ⟨p, List.mem_of_mem_filter hp, rfl⟩
  refine ⟨ht.length, OrderedMap.nodup_keys_erase ht.keys, ?_, ?_, ht.object, ht.sound, ht.once⟩
  · intro w hw
    refine ht.state ?_
    rcases List.mem_append.1 hw with hw | hw
    · obtain ⟨k, hk, rfl⟩ := mem_roots.1 hw
      exact mem_held_of_mem_handles (hhandles k hk)
    · exact List.mem_append.2 (.inr hw)
  · intro k r hk hr
    exact ht.ownership (hhandles k hk) hr

/-- The record of a handle of the host, and the state of its wrapper. -/
theorem Tracks.wrapper_eq (ht : Tracks s l) {h : Handle} (hh : h ∈ s.handles) :
    ∃ r, l[h.wrapper]? = some r ∧ s.store.wrapper h = r.state ∧ r.ownership = h.ownership := by
  obtain ⟨r, hr, hstate⟩ := ht.state (mem_held_of_mem_handles hh)
  exact ⟨r, hr, by simp [Store.wrapper, hstate], ht.ownership hh hr⟩

theorem Tracks.step_create (ht : Tracks s l) {className target : String} {isShared : Bool}
    {fields : List (String × NativeValue)}
    (hgrants : s.Grants (.create className isShared fields target)) :
    Tracks (s.step (.create className isShared fields target)).2
      (l.enter s (.create className isShared fields target)) := by
  let r : WrapperRecord := ⟨s.store.cells.length, .ofNew isShared, false⟩
  let c : Cell := ⟨className, .ofList fields, some target, 0⟩
  have hcell := ht.addCell (c := c) rfl
    fun p hp h hh => hgrants p (OrderedMap.mem_entries_ofList hp) h hh
  have hstate : r.state = .owns s.store.cells.length := by cases isShared <;> rfl
  have hmade := hcell.wrap (r := r) (by simp [r]) (fun i hi => ?_) className (some target)
  · rw [hstate] at hmade
    exact hmade.settled
  · rw [hstate, Wrapper.owns.injEq] at hi
    exact ⟨c, by simp [← hi], rfl⟩

theorem Tracks.step_borrow (ht : Tracks s l) {slot : String} {h : Handle}
    (hh : s.slots.find? slot = some h) (target : Option String) :
    Tracks (s.step (.borrow slot target)).2 (l.enter s (.borrow slot target)) := by
  obtain ⟨r, hr, hstate, -⟩ := ht.wrapper_eq (mem_handles_of_find? hh)
  let q : WrapperRecord := ⟨r.object, .borrowed, r.released⟩
  have henter : l.enter s (.borrow slot target) = l ++ [q] := by
    simp [Ledger.enter, Ledger.ofSlot?, hh, hr, q]
  have hborrow : s.store.borrow h = s.store.wrap h.className .borrowed q.state := by
    simp only [Store.borrow, hstate, WrapperRecord.state, q]
    cases r.released <;> cases r.ownership <;> rfl
  have hwrap := ht.wrap (r := q) (ht.object r (List.mem_of_getElem? hr)) (fun i hi => ?_)
    h.className target
  · rw [Session.step_borrow hh, hborrow, henter]
    exact hwrap.settled
  · cases hreleased : r.released <;> simp [WrapperRecord.state, q, hreleased] at hi

theorem Tracks.step_share (ht : Tracks s l) {slot : String} {h : Handle}
    (hh : s.slots.find? slot = some h) (target : Option String) :
    Tracks (s.step (.share slot target)).2 (l.enter s (.share slot target)) := by
  obtain ⟨r, hr, hstate, hownership⟩ := ht.wrapper_eq (mem_handles_of_find? hh)
  by_cases hshared : r.ownership = .shared ∧ r.released = false
  · let q : WrapperRecord := ⟨r.object, .shared, false⟩
    have henter : l.enter s (.share slot target) = l ++ [q] := by
      simp [Ledger.enter, Ledger.ofSlot?, hh, hr, hshared, q]
    have howns : s.store.wrapper h = .owns r.object := by
      rw [hstate]
      simp [WrapperRecord.state, hshared]
    have hshare : s.store.share h = .ok (s.store.wrap h.className .shared q.state) := by
      rw [Store.share, ← hownership, hshared.1, howns]
      rfl
    have hwrap := ht.wrap (r := q) (ht.object r (List.mem_of_getElem? hr)) (fun i hi => ?_)
      h.className target
    · rw [Session.step_share hh hshare, henter]
      exact hwrap.settled
    · have hi' : r.object = i := by simpa [WrapperRecord.state, q] using hi
      exact hi' ▸ ht.sound _ (Store.hasOwner_of_wrapper howns)
  · have henter : l.enter s (.share slot target) = l := by
      simp [Ledger.enter, Ledger.ofSlot?, hh, hr, hshared]
    obtain ⟨e, hshare⟩ : ∃ e, s.store.share h = .error e := by
      by_cases hkind : r.ownership = .shared
      · have hreleased : r.released = true := by simpa [hkind] using hshared
        simp [Store.share, ← hownership, hkind, hstate, WrapperRecord.state, hreleased]
      · simp [Store.share, ← hownership, hkind]
    rw [step_share_of_error hh hshare, henter]
    exact ht

theorem Tracks.step (ht : Tracks s l) {st : Step} (hst : st.isOnHandles = true)
    (hgrants : s.Grants st) : Tracks (s.step st).2 (l.enter s st) := by
  -- A step that names an empty slot changes neither side.
  have hempty : ∀ {slot : String} {f : Handle → Sitting Outcome}, s.slots.find? slot = none →
      (Sitting.slot slot >>= f) s = .error .noSlot :=
    fun hh => bind_of_error (slot_of_find?_eq_none hh)
  cases st <;> simp only [Step.isOnHandles, Bool.false_eq_true] at hst
  case create => exact ht.step_create hgrants
  case clone slot target =>
    cases hh : s.slots.find? slot with
    | none => rw [step_of_error (hempty hh)]; exact ht
    | some h =>
      rw [step_clone hh]
      exact (ht.put (mem_handles_of_find? hh) target).settled
  case borrow slot target =>
    cases hh : s.slots.find? slot with
    | none =>
      rw [step_of_error (hempty hh)]
      simpa [Ledger.enter, Ledger.ofSlot?, hh] using ht
    | some h => exact ht.step_borrow hh target
  case share slot target =>
    cases hh : s.slots.find? slot with
    | none =>
      rw [step_of_error (hempty hh)]
      simpa [Ledger.enter, Ledger.ofSlot?, hh] using ht
    | some h => exact ht.step_share hh target
  case destroy slot =>
    cases hh : s.slots.find? slot with
    | none =>
      rw [step_of_error (hempty hh)]
      simpa [Ledger.enter, hh] using ht
    | some h =>
      rw [step_destroy hh]
      simpa [Ledger.enter, hh] using (ht.release h).settled
  case drop slot => exact (ht.erase slot).settled

end Changes

/-! ## Runs -/

/-- After a step that comes from a settled session, there is nothing left to do. -/
theorem settled_step {s : Session} (hs : s.store.Settled s.roots) (st : Step) :
    (s.step st).2.store.Settled (s.step st).2.roots := by
  cases h : Sitting.perform st s with
  | error e => rw [step_of_error h]; exact hs
  | ok result =>
    rw [step_of_ok h]
    exact Store.settled_sweep _ _

theorem Reached.tracks {m : BoundModule} {s : Session} {l : Ledger} (h : Reached m s l) :
    Tracks s l ∧ s.store.Settled s.roots := by
  have hrun : ∀ {x y : Session × Ledger}, Relation.ReflTransGen Acts x y →
      Tracks x.1 x.2 ∧ x.1.store.Settled x.1.roots →
      Tracks y.1 y.2 ∧ y.1.store.Settled y.1.roots := by
    intro x y hsteps hx
    induction hsteps with
    | refl => exact hx
    | tail _ hstep ih =>
      obtain ⟨hst, hgrants⟩ := hstep
      exact ⟨ih.1.step hst hgrants, settled_step ih.2 _⟩
  refine hrun h ⟨⟨rfl, List.nodup_nil, ?_, ?_, ?_, ?_, ?_⟩, ?_, ?_⟩ <;>
    simp [held, Store.held, roots, handles, Store.heldByFields, Store.Sound, Store.hasOwner]

end Session
end Bindery
