import Bindery.OrderedMap
import Bindery.Value.Native

/-!
# The store of native objects

Objects are reached through wrappers, and wrappers through handles. A wrapper owns its
object, refers to an object without owning it, or has been released. An object is destroyed
when the last wrapper that owns it is released or is not held any more. Holders of a wrapper
are the host and the fields of living objects, so the end of one object may be the end of
others. Wrappers and objects are never forgotten: a handle means the same thing for ever.

## Main definitions

* `Store`: wrappers and objects.
* `Store.adopt`, `Store.borrow`, `Store.share`, `Store.release`: making and releasing wrappers.
* `Store.isAlive`, `Store.sameObject`: what a handle reaches.
* `Store.sweep`: release what nobody holds, and destroy what nobody owns.
-/
namespace Bindery

/-- An object and its data members. -/
structure Cell where
  className : String
  fields : OrderedMap String NativeValue
  /-- The name that the object goes by in reports. -/
  label : Option String
  /-- How often the object was destroyed. -/
  destructions : Nat
deriving Inhabited

/-- The object has not been destroyed. -/
def Cell.isLive (c : Cell) : Bool := c.destructions = 0

/-- What a wrapper does for its object. -/
inductive Wrapper where
  | owns (cell : Nat)
  | refers (cell : Nat)
  | released
deriving DecidableEq, Inhabited

/-- Wrappers and objects, each named by its place. -/
structure Store where
  wrappers : List Wrapper := []
  cells : List Cell := []
deriving Inhabited

namespace Store

/-! ## What a handle reaches -/

/-- Some wrapper owns the object. -/
def hasOwner (s : Store) (cell : Nat) : Bool := s.wrappers.contains (.owns cell)

/-- The state of a wrapper. -/
def wrapper (s : Store) (h : Handle) : Wrapper := (s.wrappers[h.wrapper]?).getD .released

/-- The living object that a handle reaches. -/
def reach? (s : Store) (h : Handle) : Option Nat :=
  match s.wrapper h with
  | .owns cell => some cell
  | .refers cell => if s.hasOwner cell then some cell else none
  | .released => none

/-- The handle reaches a living object. -/
def isAlive (s : Store) (h : Handle) : Bool := (s.reach? h).isSome

/-- Both handles reach the same object. -/
def sameObject (s : Store) (a b : Handle) : Bool :=
  match s.reach? a, s.reach? b with
  | some x, some y => x = y
  | _, _ => false

/-- The handles name the same wrapper or reach the same object. -/
def sameHandle (s : Store) (a b : Handle) : Bool := a.wrapper = b.wrapper || s.sameObject a b

/-- The object that a handle reaches. -/
def cell? (s : Store) (h : Handle) : Option Cell := (s.reach? h).bind fun i => s.cells[i]?

/-! ## Making and releasing wrappers -/

/-- Add a wrapper. -/
def wrap (s : Store) (className : String) (ownership : Ownership) (w : Wrapper) :
    Handle × Store :=
  (⟨s.wrappers.length, className, ownership⟩, { s with wrappers := s.wrappers ++ [w] })

/-- Add an object with one wrapper that owns it. -/
def adopt (s : Store) (ownership : Ownership) (className : String)
    (fields : OrderedMap String NativeValue) (label : Option String) : Handle × Store :=
  let grown : Store := { s with cells := s.cells ++ [⟨className, fields, label, 0⟩] }
  grown.wrap className ownership (.owns s.cells.length)

/-- A wrapper that refers to the object of another one. One of a released wrapper is released
from the start. -/
def borrow (s : Store) (h : Handle) : Handle × Store :=
  let w := match s.wrapper h with
    | .owns cell | .refers cell => .refers cell
    | .released => .released
  s.wrap h.className .borrowed w

/-- Why there is no further holder of an object. -/
inductive ShareFault where
  | notShared
  | destroyed
deriving DecidableEq, Inhabited

/-- One more holder of a shared object. -/
def share (s : Store) (h : Handle) : Except ShareFault (Handle × Store) :=
  if h.ownership ≠ .shared then .error .notShared
  else match s.wrapper h with
    | .owns cell => .ok (s.wrap h.className .shared (.owns cell))
    | _ => .error .destroyed

/-- Release a wrapper. -/
def release (s : Store) (h : Handle) : Store :=
  { s with wrappers := s.wrappers.set h.wrapper .released }

/-- Write a field of an object. -/
def writeField (s : Store) (cell : Nat) (name : String) (value : NativeValue) : Store :=
  { s with cells := s.cells.modify cell fun c => { c with fields := c.fields.insert name value } }

/-! ## The end of objects -/

/-- The wrappers that the fields of living objects hold. -/
def heldByFields (s : Store) : List Nat :=
  (s.cells.filter Cell.isLive).flatMap fun c =>
    c.fields.entries.filterMap fun (_, v) => v.handle?.map Handle.wrapper

/-- Release the wrappers that nobody holds. -/
def dropUnheld (roots : List Nat) (s : Store) : Store :=
  let held := roots ++ s.heldByFields
  { s with
    wrappers := s.wrappers.zipIdx.map fun (w, i) => if held.contains i then w else .released }

/-- Destroy the living objects that nobody owns. -/
def destroyUnowned (s : Store) : Store :=
  { s with
    cells := s.cells.zipIdx.map fun (c, i) =>
      if c.isLive && !s.hasOwner i then { c with fields := {}, destructions := c.destructions + 1 }
      else c }

/-- Some rounds of releasing and destroying. -/
def sweepRounds (roots : List Nat) : Nat → Store → Store
  | 0, s => s
  | n + 1, s => sweepRounds roots n (destroyUnowned (dropUnheld roots s))

/-- Release what nobody holds, and destroy what nobody owns. A round that destroys nothing is
the last one that matters, so one round more than there are objects is enough. -/
def sweep (roots : List Nat) (s : Store) : Store := sweepRounds roots (s.cells.length + 1) s

end Store
end Bindery
