import Bindery.Proofs.Store.Sweep
import Bindery.Session.Step
import Mathlib

/-!
# What single steps of a session do

The session after a step, for each step on handles: what is put into a slot, what becomes of the
store, and then everything that nobody holds goes. A step that fails leaves the session alone.

## Main definitions

* `Session.handles`: the handles that the host has.
* `Session.held`: the wrappers that somebody holds.
* `Session.put`: the session with a handle in a slot.
-/
namespace Bindery.Session

/-- The handles that the host has. -/
def handles (s : Session) : List Handle := s.slots.entries.map (·.2)

/-- The wrappers that somebody holds. -/
def held (s : Session) : List Nat := s.store.held s.roots

/-! ## Slots -/

/-- Put a handle into a slot, if one is given. -/
def put (s : Session) (target : Option String) (h : Handle) : Session :=
  match target with
  | some name => { s with slots := s.slots.insert name h }
  | none => s

@[simp] theorem store_put (s : Session) (target : Option String) (h : Handle) :
    (s.put target h).store = s.store := by
  cases target <;> rfl

theorem store_settled_put (s : Session) (target : Option String) (h : Handle) :
    (s.put target h).settled.store = s.store.sweep (s.put target h).roots := by
  rw [settled, store_put]

theorem mem_handles_put {s : Session} {target : Option String} {h k : Handle}
    (hk : k ∈ (s.put target h).handles) : k = h ∨ k ∈ s.handles := by
  cases target with
  | none => exact .inr hk
  | some name =>
    obtain ⟨p, hp, rfl⟩ := List.mem_map.1 hk
    rcases OrderedMap.mem_entries_insert hp with rfl | hp
    · exact .inl rfl
    · exact .inr (List.mem_map.2 ⟨p, hp, rfl⟩)

theorem mem_roots {s : Session} {w : Nat} : w ∈ s.roots ↔ ∃ h ∈ s.handles, h.wrapper = w := by
  have hroots : s.roots = s.handles.map Handle.wrapper := by simp [roots, handles]
  rw [hroots, List.mem_map]

theorem mem_handles_of_find? {s : Session} {slot : String} {h : Handle}
    (hh : s.slots.find? slot = some h) : h ∈ s.handles :=
  List.mem_map.2 ⟨_, OrderedMap.mem_entries_of_find? hh, rfl⟩

theorem mem_held_of_mem_handles {s : Session} {h : Handle} (hh : h ∈ s.handles) :
    h.wrapper ∈ s.held :=
  List.mem_append.2 (.inl (mem_roots.2 ⟨h, hh, rfl⟩))

theorem keys_nodup_put {s : Session} (hs : s.slots.keys.Nodup) (target : Option String)
    (h : Handle) : (s.put target h).slots.keys.Nodup := by
  cases target with
  | none => exact hs
  | some name => exact OrderedMap.nodup_keys_insert hs

/-! ## What steps on handles do -/

theorem slot_of_find? {s : Session} {name : String} {h : Handle}
    (hh : s.slots.find? name = some h) : Sitting.slot name s = .ok (h, s) := by
  simp [Sitting.slot, hh, bind, StateT.bind, Except.bind, get, getThe, MonadStateOf.get,
    StateT.get, pure, Except.pure, StateT.pure]

theorem slot_of_find?_eq_none {s : Session} {name : String} (hh : s.slots.find? name = none) :
    Sitting.slot name s = .error .noSlot := by
  simp [Sitting.slot, hh, bind, StateT.bind, Except.bind, get, getThe, MonadStateOf.get,
    StateT.get, pure, Except.pure, throw, throwThe, MonadExceptOf.throw, StateT.lift]

theorem bind_of_ok {α β : Type} {p : Sitting α} {f : α → Sitting β} {s t : Session} {a : α}
    (h : p s = .ok (a, t)) : (p >>= f) s = f a t := by
  simp [bind, StateT.bind, Except.bind, h]

theorem bind_of_error {α β : Type} {p : Sitting α} {f : α → Sitting β} {s : Session}
    {e : SessionFault} (h : p s = .error e) : (p >>= f) s = .error e := by
  simp [bind, StateT.bind, Except.bind, h]

theorem keep_eq (s : Session) (target : Option String) (h : Handle) :
    Sitting.keep target h s = .ok (s.view h, s.put target h) := by
  cases target <;> rfl

theorem step_of_ok {s t : Session} {st : Step} {o : Outcome}
    (h : Sitting.perform st s = .ok (o, t)) : (s.step st).2 = t.settled := by
  simp only [step, h]

theorem step_of_error {s : Session} {st : Step} {e : SessionFault}
    (h : Sitting.perform st s = .error e) : (s.step st).2 = s := by
  simp only [step, h]

section Named

variable {s : Session} {slot : String} {h : Handle}

theorem step_clone (hh : s.slots.find? slot = some h) (target : Option String) :
    (s.step (.clone slot target)).2 = (s.put target h).settled := by
  refine step_of_ok (o := .handle (s.view h)) ?_
  rw [Sitting.perform, bind_of_ok (slot_of_find? hh), bind_of_ok (keep_eq s target h)]
  rfl

theorem step_borrow (hh : s.slots.find? slot = some h) (target : Option String) :
    (s.step (.borrow slot target)).2 =
      (put { s with store := (s.store.borrow h).2 } target (s.store.borrow h).1).settled := by
  let t : Session := { s with store := (s.store.borrow h).2 }
  have hborrow : Sitting.access h.borrow s = .ok ((s.store.borrow h).1, t) := rfl
  refine step_of_ok (o := .handle (t.view (s.store.borrow h).1)) ?_
  rw [Sitting.perform, bind_of_ok (slot_of_find? hh), bind_of_ok hborrow,
    bind_of_ok (keep_eq t target _)]
  rfl

theorem step_share {shared : Handle} {store : Store} (hh : s.slots.find? slot = some h)
    (hshare : s.store.share h = .ok (shared, store)) (target : Option String) :
    (s.step (.share slot target)).2 = (put { s with store := store } target shared).settled := by
  let t : Session := { s with store := store }
  have haccess : Sitting.access h.share s = .ok (shared, t) := by
    simp [Sitting.access, Handle.share, hshare, bind, StateT.bind, Except.bind, get, getThe,
      MonadStateOf.get, StateT.get, pure, Except.pure, StateT.pure, set, MonadStateOf.set,
      StateT.set, t]
  refine step_of_ok (o := .handle (t.view shared)) ?_
  rw [Sitting.perform, bind_of_ok (slot_of_find? hh), bind_of_ok haccess,
    bind_of_ok (keep_eq t target _)]
  rfl

theorem step_share_of_error {e : Store.ShareFault} (hh : s.slots.find? slot = some h)
    (hshare : s.store.share h = .error e) (target : Option String) :
    (s.step (.share slot target)).2 = s := by
  obtain ⟨e', haccess⟩ : ∃ e', Sitting.access h.share s = .error e' := by
    cases e <;>
      simp [Sitting.access, Handle.share, hshare, bind, StateT.bind, Except.bind, get, getThe,
        MonadStateOf.get, StateT.get, pure, Except.pure, throw, throwThe, MonadExceptOf.throw,
        StateT.lift]
  refine step_of_error (e := e') ?_
  rw [Sitting.perform, bind_of_ok (slot_of_find? hh), bind_of_error haccess]

theorem step_destroy (hh : s.slots.find? slot = some h) :
    (s.step (.destroy slot)).2 = settled { s with store := s.store.release h } := by
  refine step_of_ok (o := .done) ?_
  rw [Sitting.perform, bind_of_ok (slot_of_find? hh)]
  rfl

theorem step_drop (s : Session) (slot : String) :
    (s.step (.drop slot)).2 = settled { s with slots := s.slots.erase slot } := rfl

end Named
end Bindery.Session
