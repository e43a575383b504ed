import Bindery.Proofs.Session.Soundness

/-!
# Writing an attribute and reading it back

A write that is refused changes nothing. One that is not refused changes no other field, and the
attribute gives back what was written, as the kind of the attribute holds it. The old value of
the attribute goes, and what only it kept alive goes with it: that may be the object which was
written, and even the object which was written to.

## Main definitions

* `Session.Wrote`: what a write leaves behind.

## Main statements

* `Session.write_read`: writing and reading back.
* `Session.write_may_destroy`: two writes of a living object that is gone afterwards.
-/
namespace Bindery

/-! ## Classes -/

namespace BoundClass

variable {c : BoundClass} {h : Handle} {name : String} {v : HostValue} {s t : Store}

/-- What a write that is not refused does. -/
theorem set_eq_ok {x : Unit} (hset : c.set h name v s = .ok (x, t)) :
    ∃ f n u i, c.fields.find? name = some f ∧
      f.type.toNative c.registry.isSubclass v s = .ok (n, u) ∧ u.reach? h = some i ∧
      t = u.writeField i name n := by
  obtain ⟨f, s', hfield, hrest⟩ := bind_apply_eq_ok.1 hset
  obtain ⟨hf, rfl⟩ : c.fields.find? name = some f ∧ s' = s := by
    rw [liftM_apply, field] at hfield
    split at hfield <;> simp_all [Except.map]
  by_cases hreadOnly : f.isReadOnly = true
  · simp [hreadOnly] at hrest
  · simp only [hreadOnly, Bool.false_eq_true, if_false] at hrest
    obtain ⟨n, u, hnative, hreached⟩ := bind_apply_eq_ok.1 hrest
    obtain ⟨i, u', hi, hwritten⟩ := bind_apply_eq_ok.1 hreached
    obtain ⟨hreach, rfl⟩ : u.reach? h = some i ∧ u' = u := by
      rcases hr : u.reach? h with _ | j <;> simp_all [Handle.reach]
    have ht : u'.writeField i name n = t := by simpa using hwritten
    exact ⟨f, n, u', i, hf, mapError_eq_ok.1 hnative, hreach, ht.symm⟩

/-- A read finds the native value of the field. -/
theorem get_eq {f : BoundField} {n : NativeValue} {i : Nat} (hf : c.fields.find? name = some f)
    (hi : s.reach? h = some i) (hn : s.field? i name = some n) :
    c.get h name s = (f.type.toHost n s).mapError .conversion := by
  obtain ⟨d, hd, hfind⟩ : ∃ d, s.cells[i]? = some d ∧ d.fields.find? name = some n :=
    Option.bind_eq_some_iff.1 hn
  have hcell : s.cell? h = some d := by rw [Store.cell?, hi, Option.bind_some, hd]
  simp [get, field, hf, Except.map, Handle.cell, hcell, hfind, Conversion.toStoreAccess]

end BoundClass

namespace Session

/-! ## A single write -/

theorem step_write {s : Session} {className slot name : String} {v : HostValue} {c : BoundClass}
    {h : Handle} (hc : s.exports.classes.find? className = some c)
    (hh : s.slots.find? slot = some h) :
    s.step (.write className slot name (.value v)) = match c.set h name v s.store with
      | .ok (_, store) => (.ok .done, settled { s with store := store })
      | .error fault => (.error (.access fault), s) := by
  have hclass : Sitting.boundClass className s = .ok (c, s) := by simp [Sitting.boundClass, hc]
  have hperform : Sitting.perform (.write className slot name (.value v)) s =
      match c.set h name v s.store with
      | .ok (_, store) => .ok (.done, { s with store := store })
      | .error fault => .error (.access fault) := by
    rw [Sitting.perform, bind_of_ok hclass, bind_of_ok (by rfl), bind_of_ok (slot_of_find? hh)]
    rcases hset : c.set h name v s.store with fault | ⟨x, store⟩ <;>
      simp [Sitting.access, hset]
  rw [step, hperform]
  cases c.set h name v s.store <;> rfl

/-- What a write of `v` to the attribute `name` of the object `i` leaves behind, read through the
handle `h`. -/
structure Wrote (c : BoundClass) (h : Handle) (i : Nat) (name : String) (v : HostValue)
    (s t : Session) : Prop where
  /-- An object ends with the write only if the old value of the attribute was an owner, and the
  host holds no owner of the object. -/
  lives_on : ∀ j, s.store.hasOwner j = true → t.store.hasOwner j = true ∨
    (∃ o p, s.store.field? i name = some (.object o) ∧ s.store.wrapper o = .owns p) ∧
      ∀ g ∈ s.handles, s.store.wrapper g ≠ .owns j
  /-- Every other field of what lives on is as it was. -/
  others : ∀ j other, t.store.hasOwner j = true → j ≠ i ∨ other ≠ name →
    t.store.field? j other = s.store.field? j other
  /-- The attribute gives back what was written. -/
  reads : t.store.hasOwner i = true → ∃ f r u, c.fields.find? name = some f ∧
    c.get h name t.store = .ok (r, u) ∧ f.type.GivesBack s.store t.store u v r

section Write

variable {m : BoundModule} {s : Session} {c : BoundClass} {h : Handle} {i : Nat} {name : String}
  {v : HostValue} {f : BoundField} {n : NativeValue} {store : Store}

/-- An owner that the host holds keeps its object alive, and where the old value of the attribute
is no owner, everything lives on. -/
theorem lives_on_of_write (hs : s.store.Settled s.roots) (hstore : s.store.Extends store) (j : Nat)
    (hj : ∃ d, s.store.cells[j]? = some d ∧ d.isLive = true) :
    ((store.writeField i name n).sweep s.roots).hasOwner j = true ∨
    (∃ o p, s.store.field? i name = some (.object o) ∧ s.store.wrapper o = .owns p) ∧
      ∀ g ∈ s.handles, s.store.wrapper g ≠ .owns j := by
  have hshrinks := Store.shrinks_sweep s.roots (store.writeField i name n)
  by_cases hhost : ∃ g ∈ s.handles, s.store.wrapper g = .owns j
  · obtain ⟨g, hg, howns⟩ := hhost
    refine .inl (Store.hasOwner_of_wrapper (h := g) ?_)
    have hheld : g.wrapper ∈ s.roots := mem_roots.2 ⟨g, hg, rfl⟩
    rw [hshrinks.wrapper_of_mem_held (List.mem_append.2 (.inl hheld))]
    exact hstore.wrapper_eq_owns howns
  · by_cases hold : ∃ o p, s.store.field? i name = some (.object o) ∧ s.store.wrapper o = .owns p
    · exact .inr ⟨hold, fun g hg howns => hhost ⟨g, hg, howns⟩⟩
    · obtain ⟨d, hd, hlive⟩ := hj
      have hupheld : (store.writeField i name n).Upheld s.roots :=
        Store.upheld_writeField hs.upheld hstore fun o p ho hp => hold ⟨o, p, ho, hp⟩
      have hcell := Store.getElem?_cells_writeField store i name n j
      rw [hstore.cells, hd, ← Store.cells_sweep_of_upheld hupheld] at hcell
      refine .inl ((Store.settled_sweep _ _).owned hcell ?_)
      split <;> exact hlive

/-- What comes back of the value that a living object was given. -/
theorem reads_of_write (hs : s.store.Sound) (hh : h ∈ s.handles) (hi : s.store.reach? h = some i)
    (hf : c.fields.find? name = some f)
    (hn : f.type.toNative c.registry.isSubclass v s.store = .ok (n, store))
    (hlive : ((store.writeField i name n).sweep s.roots).hasOwner i = true) :
    ∃ r u, c.get h name ((store.writeField i name n).sweep s.roots) = .ok (r, u) ∧
      f.type.GivesBack s.store ((store.writeField i name n).sweep s.roots) u v r := by
  have hstore := NativeType.extends_of_toNative hn
  have hshrinks := Store.shrinks_sweep s.roots (store.writeField i name n)
  set t := (store.writeField i name n).sweep s.roots
  rw [Store.reach?_eq_some] at hi
  -- The object is there, with the new value in its field, and the handle still reaches it.
  obtain ⟨d, hd, hdlive⟩ := hs i hi.2
  have hcell : t.cells[i]? = some { d with fields := d.fields.insert name n } := by
    rw [hshrinks.cell_of_hasOwner hlive, Store.getElem?_cells_writeField, hstore.cells, hd]
    simp
  have hfield : t.field? i name = some n := by
    rw [Store.field?, hcell]
    simp
  have hroot : h.wrapper ∈ t.held s.roots := List.mem_append.2 (.inl (mem_roots.2 ⟨h, hh, rfl⟩))
  have hreach : t.reach? h = some i := by
    refine Store.reach?_eq_some.2 ⟨?_, hlive⟩
    rw [Store.Targets, hshrinks.wrapper_of_mem_held hroot]
    exact hstore.targets hi.1
  rw [BoundClass.get_eq hf hreach hfield]
  rcases NativeType.toNative_eq_ok hn with ⟨g, k, className, ownership, rfl, rfl, htype, htakes⟩ |
    ⟨-, r, hr, hback⟩
  · obtain ⟨k', u, hget, htakes'⟩ := NativeType.toHost_object className ownership k t
    refine ⟨.object k', u, by rw [htype, hget]; rfl, k', rfl, fun j hj hjlive => ?_⟩
    -- The wrapper in the field was made for the same object, and the object holds it.
    have hkheld : k.wrapper ∈ t.held s.roots :=
      List.mem_append.2 (.inr (Store.mem_heldByFields_of_field? hcell hdlive hfield))
    have htargets : t.Targets k j := by
      rw [Store.Targets, hshrinks.wrapper_of_mem_held hkheld]
      exact htakes.targets (Store.reach?_eq_some.1 hj).1
    exact Store.reach?_eq_some.2
      ⟨htakes'.targets htargets, (htakes'.extended.hasOwner j).trans hjlive⟩
  · exact ⟨r, t, by rw [hr]; rfl, hback _ _ _⟩

theorem wrote_of_set (hs : s.Intact m) (hsettled : s.store.Settled s.roots) (hh : h ∈ s.handles)
    (hi : s.store.reach? h = some i) {x : Unit}
    (hset : c.set h name v s.store = .ok (x, store)) :
    Wrote c h i name v s (settled { s with store := store }) := by
  obtain ⟨f, n, grown, i', hf, hn, hi', rfl⟩ := BoundClass.set_eq_ok hset
  have hstore := NativeType.extends_of_toNative hn
  obtain rfl : i = i' := Option.some.inj ((hstore.reach? hi).symm.trans hi')
  have hshrinks := Store.shrinks_sweep s.roots (grown.writeField i name n)
  refine ⟨fun j hj => ?_, fun j other hj hother => ?_, fun hlive => ?_⟩
  · exact lives_on_of_write hsettled hstore j (hs.sound j hj)
  · calc (settled { s with store := grown.writeField i name n }).store.field? j other
        = (grown.writeField i name n).field? j other := hshrinks.field?_of_hasOwner hj other
      _ = grown.field? j other := by
        rw [Store.field?_writeField, if_neg (by tauto)]
      _ = s.store.field? j other := by rw [Store.field?, hstore.cells, Store.field?]
  · obtain ⟨r, u, hget, hback⟩ := reads_of_write hs.sound hh hi hf hn hlive
    exact ⟨f, r, u, hf, hget, hback⟩

end Write

/-! ## Writing and reading back -/

/-- **What was written is read back.** After any history, a write that is refused changes nothing.
One that is not refused, to a living object, changes no other field of what lives on, and if the
object lives on, the attribute gives back the value. Only the end of the old value can be the end
of an object. -/
theorem write_read {m : BoundModule} {history : List Step} {className slot name : String}
    {v : HostValue} {c : BoundClass} {h : Handle} (hc : m.classes.find? className = some c)
    (hh : (after m history).slots.find? slot = some h) :
    let result := (after m history).step (.write className slot name (.value v))
    (∀ e, result.1 = .error e → result.2 = after m history) ∧
    (∀ o, result.1 = .ok o → ∀ i, (after m history).store.reach? h = some i →
      Wrote c h i name v (after m history) result.2) := by
  obtain ⟨hs, hsettled⟩ := after_intact m history
  rw [step_write (hs.exports ▸ hc) hh]
  rcases hset : c.set h name v (after m history).store with fault | ⟨x, store⟩
  · exact ⟨fun _ _ => rfl, fun o ho => by simp at ho⟩
  · exact ⟨fun e he => by simp at he,
      fun _ _ i hi => wrote_of_set hs hsettled (mem_handles_of_find? hh) hi hset⟩

/-! ## Items, boxes and nodes -/

/-- A class of its own name, made without arguments. -/
def plainClass (r : Registry) (name : String) (fields : List (String × BoundField)) : BoundClass :=
  ⟨name, name, .ofList fields, [.empty], {}, r, []⟩

/-- A field that owns an object of a class. -/
def ownerField (className : String) : BoundField :=
  ⟨.object className .ownedByWrapper, false, .null⟩

/-- An integer field. -/
def countField : BoundField := ⟨.scalar .i32, false, .scalar (.signed .i32 0)⟩

/-- The names of the classes. -/
def boxRegistry : Registry :=
  .ofList [("Item", ⟨"Item", []⟩), ("Box", ⟨"Box", []⟩), ("Node", ⟨"Node", []⟩)]

/-- A box that owns an item. -/
def boxClass : BoundClass :=
  plainClass boxRegistry "Box" [("item", ownerField "Item"), ("k", countField)]

/-- A node that owns a node. -/
def nodeClass : BoundClass :=
  plainClass boxRegistry "Node" [("next", ownerField "Node"), ("k", countField)]

/-- Items, boxes and nodes. -/
def boxes : BoundModule :=
  ⟨"boxes", boxRegistry,
    [.ofClass "Item" (plainClass boxRegistry "Item" [("n", countField)]),
      .ofClass "Box" boxClass, .ofClass "Node" nodeClass]⟩

/-- An item and an empty box. -/
def itemAndBox : List Step :=
  [.construct "Item" [] (some "x"), .construct "Box" [] (some "box")]

/-- The host keeps the item, so the box and the item live on, and the box gives the item back. -/
theorem write_read_itemAndBox :
    boxes.classes.find? "Box" = some boxClass ∧
    (after boxes itemAndBox).slots.find? "box" = some ⟨1, "Box", .ownedByWrapper⟩ ∧
    Wrote boxClass ⟨1, "Box", .ownedByWrapper⟩ 1 "item" (.object ⟨0, "Item", .ownedByWrapper⟩)
      (after boxes itemAndBox) ((after boxes itemAndBox).step
        (.write "Box" "box" "item" (.value (.object ⟨0, "Item", .ownedByWrapper⟩)))).2 :=
  ⟨rfl, rfl, (write_read rfl rfl).2 .done rfl 1 rfl⟩

/-- A box that owns an item, of which the host has a reference only. -/
def boxedItem : List Step :=
  itemAndBox ++ [.write "Box" "box" "item" (.slot "x"), .borrow "x" (some "b"), .drop "x"]

/-- A node that owns itself, of which the host has a reference only. -/
def ringNode : List Step :=
  [.construct "Node" [] (some "a"), .write "Node" "a" "next" (.slot "a"),
    .borrow "a" (some "b"), .drop "a"]

/-- **A write may destroy** the living object that is written, and the one that is written to,
because the old value of the attribute goes with it. A reference to the item of a box is written
to the box, whose attribute was the only owner of the item: what is read back reaches nothing. A
reference to a node that owns itself is written to the node: there is nothing to read from any
more. -/
theorem write_may_destroy :
    (after boxes boxedItem).store.reach? ⟨2, "Item", .borrowed⟩ = some 0 ∧
    (let result := (after boxes boxedItem).step
        (.write "Box" "box" "item" (.value (.object ⟨2, "Item", .borrowed⟩)));
      result.1 = Except.ok .done ∧ ∃ k u,
        boxClass.get ⟨1, "Box", .ownedByWrapper⟩ "item" result.2.store = .ok (.object k, u) ∧
          u.reach? k = none) ∧
    (after boxes ringNode).store.reach? ⟨1, "Node", .borrowed⟩ = some 0 ∧
    (let result := (after boxes ringNode).step
        (.write "Node" "b" "next" (.value (.object ⟨1, "Node", .borrowed⟩)));
      result.1 = Except.ok .done ∧
        nodeClass.get ⟨1, "Node", .borrowed⟩ "next" result.2.store =
          .error (.destroyed "Node")) :=
  ⟨rfl, ⟨rfl, _, _, rfl, rfl⟩, rfl, rfl, rfl⟩

end Session
end Bindery
