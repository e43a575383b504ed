import Bindery.Bound.Module

/-!
# Host sessions

A session is what a host does with a module: it keeps handles in named slots and passes
values in. Slots, and the fields of living objects, are all that holds a wrapper from one
step to the next.

## Main definitions

* `Session`: the store, the slots, and the module in use.
* `Argument`: a value that the host passes.
* `SessionFault`: why a step has no result.
* `Session.settled`: the session once everything that nobody holds is gone.
-/
namespace Bindery

/-- Handles in named slots, the objects behind them, and the module in use. -/
structure Session where
  store : Store := {}
  slots : OrderedMap String Handle := {}
  exports : BoundModule
deriving Inhabited

/-- Why a step has no result. -/
inductive SessionFault where
  | noSlot
  | noClass
  | access (fault : AccessFault)
deriving DecidableEq, Inhabited

/-- A value that the host passes: one of its own, a fresh object, or what a slot holds. -/
inductive Argument where
  | value (v : HostValue)
  | fresh (className : String) (isShared : Bool)
  | slot (name : String)
deriving Inhabited

/-- What can be seen of a handle. -/
structure HandleState where
  handle : Handle
  isAlive : Bool
  /-- The slots whose handles reach the same object. -/
  same : List String
deriving DecidableEq, Inhabited

/-- The ownership of a new object that is counted or not. -/
def Ownership.ofNew (isShared : Bool) : Ownership := if isShared then .shared else .ownedByWrapper

/-- A part of a step. One that fails leaves the session as it was. -/
abbrev Sitting := StateT Session (Except SessionFault)

namespace Session

/-- The wrappers that slots hold. -/
def roots (s : Session) : List Nat := s.slots.entries.map (·.2.wrapper)

/-- The session once everything that nobody holds is gone. -/
def settled (s : Session) : Session := { s with store := s.store.sweep s.roots }

/-- What can be seen of a handle. -/
def view (s : Session) (h : Handle) : HandleState :=
  ⟨h, s.store.isAlive h, (s.slots.entries.filter fun (_, o) => s.store.sameObject o h).map (·.1)⟩

/-- The objects with a label and how often each was destroyed, in order of creation. -/
def destructions (s : Session) : List (String × Nat) :=
  s.store.cells.filterMap fun c => c.label.map fun label => (label, c.destructions)

end Session

namespace Sitting

/-- An access to the store of the session. -/
def access {α : Type} (a : StoreAccess α) : Sitting α := fun s =>
  match a s.store with
  | .ok (result, store) => .ok (result, { s with store })
  | .error fault => .error (.access fault)

/-- What a slot holds. -/
def slot (name : String) : Sitting Handle := do
  match (← get).slots.find? name with
  | some h => return h
  | none => throw .noSlot

/-- The class with a host name. -/
def boundClass (name : String) : Sitting BoundClass := do
  match (← get).exports.classes.find? name with
  | some c => return c
  | none => throw .noClass

/-- A new object with a label. -/
def adopt (ownership : Ownership) (className : String) (fields : OrderedMap String NativeValue)
    (label : Option String) : Sitting Handle := do
  let (h, store) := (← get).store.adopt ownership className fields label
  modify fun s => { s with store }
  return h

/-- The value of an argument. -/
def value : Argument → Sitting HostValue
  | .value v => return v
  | .fresh className isShared => return .object (← adopt (.ofNew isShared) className {} none)
  | .slot name => return .object (← slot name)

/-- Put a handle into a slot if one is given, and say how the handle stood before that. -/
def keep (target : Option String) (h : Handle) : Sitting HandleState := do
  let seen := (← get).view h
  match target with
  | some name => modify fun s => { s with slots := s.slots.insert name h }
  | none => pure ()
  return seen

end Sitting
end Bindery
