import Bindery.Proofs.Convert.RoundTrip
import Bindery.Proofs.Session.Ledger

/-!
# What holds after any history

Whatever a host does with a module, and whatever values it passes in, an owned object is there
and alive, and nothing is left that nobody holds.

## Main definitions

* `Session.after`: the session after some steps.
* `Session.Intact`: an owned object is there and alive, and the module is the one that was given.
-/
namespace Bindery

/-! ## Accesses -/

section Accesses

variable {α : Type}

theorem preserves_toStoreAccess {P : Store → Prop} {c : Conversion α} (hc : Preserves P c) :
    Preserves P c.toStoreAccess := by
  intro s t a hs h
  exact hc hs (mapError_eq_ok.1 h)

theorem sound_toNative (type : NativeType) (isSubclass : String → String → Bool)
    (v : HostValue) : Preserves Store.Sound (type.toNative isSubclass v) :=
  fun _ _ _ hs h => (NativeType.extends_of_toNative h).sound hs

theorem sound_toHost (type : NativeType) (n : NativeValue) :
    Preserves Store.Sound (type.toHost n) :=
  fun _ _ _ hs h => (NativeType.extends_of_toHost h).sound hs

theorem Handle.sound_borrow (h : Handle) : Preserves Store.Sound h.borrow := by
  intro s t k hs hk
  obtain ⟨-, rfl⟩ := Prod.mk.inj (Except.ok.inj hk)
  exact (Store.Extends.borrow s h).sound hs

theorem Handle.sound_share (h : Handle) : Preserves Store.Sound h.share := by
  intro s t k hs hk
  rcases hshare : s.share h with e | ⟨g, u⟩
  · cases e <;> simp [Handle.share, hshare] at hk
  · obtain ⟨-, rfl⟩ : g = k ∧ u = t := by simpa [Handle.share, hshare] using hk
    exact (Store.Takes.shared hshare).extended.sound hs

theorem Handle.sound_cell (h : Handle) : Preserves Store.Sound h.cell := by
  refine preserves_bind preserves_get fun s => ?_
  split
  · exact preserves_pure _
  · exact preserves_throw _

theorem Handle.sound_reach (h : Handle) : Preserves Store.Sound h.reach := by
  refine preserves_bind preserves_get fun s => ?_
  split
  · exact preserves_pure _
  · exact preserves_throw _

namespace BoundClass

theorem sound_get (c : BoundClass) (h : Handle) (name : String) :
    Preserves Store.Sound (c.get h name) := by
  refine preserves_bind (preserves_liftM _) fun field => ?_
  refine preserves_bind h.sound_cell fun cell => ?_
  split
  · exact preserves_toStoreAccess (sound_toHost _ _)
  · exact preserves_throw _

theorem sound_set (c : BoundClass) (h : Handle) (name : String) (v : HostValue) :
    Preserves Store.Sound (c.set h name v) := by
  refine preserves_bind (preserves_liftM _) fun field => ?_
  have hwrite : Preserves Store.Sound (do
      let native ← (field.type.toNative c.registry.isSubclass v).toStoreAccess
      let cell ← h.reach
      modify fun s => s.writeField cell name native) :=
    preserves_bind (preserves_toStoreAccess (sound_toNative _ _ _)) fun native =>
      preserves_bind h.sound_reach fun cell =>
        preserves_modify fun s hs => hs.writeField
  split
  · exact preserves_bind (preserves_throw _) fun _ => hwrite
  · exact hwrite

theorem sound_construct (c : BoundClass) (args : List HostValue) :
    Preserves Store.Sound (c.construct args) := by
  refine preserves_bind (preserves_liftM _) fun _ => ?_
  intro s t h hs hmade
  obtain ⟨-, rfl⟩ := Prod.mk.inj (Except.ok.inj hmade)
  exact hs.adopt .ownedByWrapper c.native c.initialFields none

end BoundClass

theorem BoundModule.sound_construct (m : BoundModule) (name : String) (args : List HostValue) :
    Preserves Store.Sound (m.construct name args) := by
  refine preserves_bind (preserves_liftM _) fun host => ?_
  split
  · exact preserves_bind (BoundClass.sound_construct _ _) fun _ => preserves_pure _
  · exact preserves_throw _

end Accesses

/-! ## Steps -/

/-- An owned object is there and alive, and the module is the one that was given. -/
structure Session.Intact (m : BoundModule) (s : Session) : Prop where
  sound : s.store.Sound
  exports : s.exports = m

namespace Sitting

variable {m : BoundModule}

theorem intact_access {α : Type} {a : StoreAccess α} (ha : Preserves Store.Sound a) :
    Preserves (Session.Intact m) (access a) := by
  intro s t x hs h
  rcases hr : a s.store with e | ⟨y, u⟩
  · simp [access, hr] at h
  · obtain ⟨-, rfl⟩ : y = x ∧ { s with store := u } = t := by simpa [access, hr] using h
    exact ⟨ha hs.sound hr, hs.exports⟩

theorem intact_slot (name : String) : Preserves (Session.Intact m) (slot name) := by
  refine preserves_bind preserves_get fun s => ?_
  split
  · exact preserves_pure _
  · exact preserves_throw _

theorem intact_boundClass (name : String) : Preserves (Session.Intact m) (boundClass name) := by
  refine preserves_bind preserves_get fun s => ?_
  split
  · exact preserves_pure _
  · exact preserves_throw _

theorem intact_adopt (ownership : Ownership) (className : String)
    (fields : OrderedMap String NativeValue) (label : Option String) :
    Preserves (Session.Intact m) (adopt ownership className fields label) := by
  intro s t h hs hmade
  obtain ⟨-, rfl⟩ := Prod.mk.inj (Except.ok.inj hmade)
  exact ⟨hs.sound.adopt ownership className fields label, hs.exports⟩

theorem intact_value (a : Argument) : Preserves (Session.Intact m) (value a) := by
  cases a with
  | value v => exact preserves_pure v
  | fresh => exact preserves_bind (intact_adopt _ _ _ _) fun _ => preserves_pure _
  | slot name => exact preserves_bind (intact_slot name) fun _ => preserves_pure _

theorem intact_keep (target : Option String) (h : Handle) :
    Preserves (Session.Intact m) (keep target h) := by
  intro s t x hs hkept
  rw [Session.keep_eq] at hkept
  obtain ⟨-, rfl⟩ := Prod.mk.inj (Except.ok.inj hkept)
  cases target <;> exact ⟨hs.sound, hs.exports⟩

theorem intact_check {α : Type} (r : Except AccessFault α) :
    Preserves (Session.Intact m) (check r) := by
  cases r with
  | ok a => exact preserves_pure a
  | error fault => exact preserves_throw _

theorem intact_resolve (name : String) (args : List HostValue) :
    Preserves (Session.Intact m) (resolve name args) := by
  refine preserves_bind preserves_get fun s => ?_
  split
  · exact preserves_pure _
  · exact preserves_bind (intact_check _) fun _ => preserves_pure _

theorem intact_perform (st : Step) : Preserves (Session.Intact m) (perform st) := by
  cases st with
  | create className isShared fields target =>
    exact preserves_bind (intact_adopt _ _ _ _) fun h =>
      preserves_bind (intact_keep _ h) fun _ => preserves_pure _
  | clone name target =>
    exact preserves_bind (intact_slot name) fun h =>
      preserves_bind (intact_keep _ h) fun _ => preserves_pure _
  | borrow name target =>
    exact preserves_bind (intact_slot name) fun h =>
      preserves_bind (intact_access h.sound_borrow) fun k =>
        preserves_bind (intact_keep _ k) fun _ => preserves_pure _
  | share name target =>
    exact preserves_bind (intact_slot name) fun h =>
      preserves_bind (intact_access h.sound_share) fun k =>
        preserves_bind (intact_keep _ k) fun _ => preserves_pure _
  | destroy name =>
    exact preserves_bind (intact_slot name) fun h =>
      preserves_bind (preserves_modify fun s hs => ⟨hs.sound.release h, hs.exports⟩)
        fun _ => preserves_pure _
  | drop name =>
    exact preserves_bind preserves_get fun s =>
      preserves_bind (preserves_modify fun s hs => ⟨hs.sound, hs.exports⟩)
        fun _ => preserves_pure _
  | state name =>
    exact preserves_bind preserves_get fun s =>
      preserves_bind (intact_slot name) fun h => preserves_pure _
  | equal name other =>
    exact preserves_bind (intact_slot name) fun a =>
      preserves_bind (intact_slot other) fun b =>
        preserves_bind preserves_get fun s => preserves_pure _
  | fields name =>
    exact preserves_bind (intact_slot name) fun h =>
      preserves_bind (intact_access h.sound_cell) fun c => preserves_pure _
  | inspect name =>
    exact preserves_bind (intact_slot name) fun h =>
      preserves_bind preserves_get fun s => preserves_pure _
  | destructions => exact preserves_bind preserves_get fun s => preserves_pure _
  | symbols => exact preserves_bind preserves_get fun s => preserves_pure _
  | describe className => exact preserves_bind preserves_get fun s => preserves_pure _
  | construct name args target =>
    exact preserves_bind (preserves_mapM intact_value args) fun values =>
      preserves_bind preserves_get fun s =>
        preserves_bind (intact_access (s.exports.sound_construct name values)) fun r =>
          preserves_bind (intact_keep _ r.2) fun _ => preserves_pure _
  | read className name member target =>
    refine preserves_bind (intact_boundClass className) fun c =>
      preserves_bind (intact_slot name) fun h =>
        preserves_bind (intact_access (c.sound_get h member)) fun v => ?_
    split
    · exact preserves_bind (intact_keep _ _) fun _ => preserves_pure _
    · exact preserves_pure _
  | write className name member argument =>
    exact preserves_bind (intact_boundClass className) fun c =>
      preserves_bind (intact_value argument) fun v =>
        preserves_bind (intact_slot name) fun h =>
          preserves_bind (intact_access (c.sound_set h member v)) fun _ => preserves_pure _
  | method className name args =>
    exact preserves_bind (intact_boundClass className) fun c =>
      preserves_bind (preserves_mapM intact_value args) fun values =>
        preserves_bind (intact_check _) fun _ => preserves_pure _
  | function name args =>
    exact preserves_bind (preserves_mapM intact_value args) fun values =>
      preserves_bind preserves_get fun s =>
        preserves_bind (intact_check _) fun _ => preserves_pure _
  | resolve name args =>
    exact preserves_bind (preserves_mapM intact_value args) fun values =>
      intact_resolve name values
  | catalogue name => exact preserves_bind preserves_get fun s => preserves_pure _

end Sitting

/-! ## Histories -/

namespace Session

/-- The session with a module after some steps. -/
def after (m : BoundModule) (history : List Step) : Session :=
  history.foldl (fun s st => (s.step st).2) { exports := m }

theorem intact_step {m : BoundModule} {s : Session} (hs : s.Intact m) (st : Step) :
    (s.step st).2.Intact m := by
  rcases h : Sitting.perform st s with e | ⟨o, t⟩
  · rw [step_of_error h]
    exact hs
  · rw [step_of_ok h]
    have ht : t.Intact m := Sitting.intact_perform st hs h
    exact ⟨(Store.shrinks_sweep _ _).sound ht.sound, ht.exports⟩

/-- **After any history** the session is intact and nothing is left to release or to destroy. -/
theorem after_intact (m : BoundModule) (history : List Step) :
    (after m history).Intact m ∧ (after m history).store.Settled (after m history).roots := by
  suffices hrun : ∀ s : Session, s.Intact m ∧ s.store.Settled s.roots →
      (history.foldl (fun s st => (s.step st).2) s).Intact m ∧
      (history.foldl (fun s st => (s.step st).2) s).store.Settled
        (history.foldl (fun s st => (s.step st).2) s).roots by
    refine hrun _ ⟨⟨?_, rfl⟩, ?_, ?_⟩ <;> simp [Store.Sound, Store.hasOwner]
  induction history with
  | nil => exact fun s hs => hs
  | cons st history ih => exact fun s hs => ih _ ⟨intact_step hs.1 st, settled_step hs.2 st⟩

end Session
end Bindery
