import Bindery.Session.Basic

/-!
# Steps of a session

Each step of a session answers with an outcome or with a fault; after a fault the session
goes on. Steps on handles need no module.

## Main definitions

* `Step`, `Outcome`.
* `Session.step`: one step.
-/
namespace Bindery

/-- What the host does. A `target` is the slot that keeps the resulting handle. -/
inductive Step where
  | create (className : String) (isShared : Bool) (fields : List (String × NativeValue))
      (target : String)
  | clone (slot : String) (target : Option String)
  | borrow (slot : String) (target : Option String)
  | share (slot : String) (target : Option String)
  | destroy (slot : String)
  | drop (slot : String)
  | state (slot : String)
  | equal (slot other : String)
  | fields (slot : String)
  | inspect (slot : String)
  | destructions
  | symbols
  | describe (className : String)
  | construct (name : String) (args : List Argument) (target : Option String)
  | read (className slot name : String) (target : Option String)
  | write (className slot name : String) (value : Argument)
  | method (className name : String) (args : List Argument)
  | function (name : String) (args : List Argument)
  | resolve (name : String) (args : List Argument)
  | catalogue (name : String)
deriving Inhabited

/-- What a step answers. -/
inductive Outcome where
  | done
  | truth (b : Bool)
  | handle (h : HandleState)
  | fields (fs : List (String × NativeValue))
  /-- A handle in full, and its object in full. -/
  | inspected (handle : String) (object : Except AccessFault String)
  | destructions (counts : List (String × Nat))
  | symbols (names skipped : List String)
  | described (c : Option BoundClass)
  | constructed (native : String) (h : HandleState)
  | value (v : HostValue)
  | object (h : HandleState)
  | overload (place : Nat)
  /-- An entry point and what it reaches; nothing if there is no such entry point. -/
  | resolved (r : Option (String × Resolved))
  | catalogue (c : Option Catalogue)
deriving Inhabited

/-- An object in full. -/
def Cell.inspect (isAlive : Handle → Bool) (c : Cell) : String :=
  "NativeObject \x7b class: " ++ Text.quoted c.className ++ ", fields: \x7b" ++
    ", ".intercalate (c.fields.entries.map fun (name, v) =>
      Text.quoted name ++ ": " ++ v.inspect isAlive) ++ "\x7d \x7d"

/-- One more holder of a shared object. -/
def Handle.share (h : Handle) : StoreAccess Handle := do
  match (← get).share h with
  | .ok (shared, s) =>
    set s
    return shared
  | .error .destroyed => throw (.destroyed h.className)
  | .error .notShared =>
    throw (.conversion (.typeMismatch ("std::shared_ptr<" ++ h.className ++ ">")
      (h.className ++ " (" ++ h.ownership.title ++ ")")))

/-- A reference to the object of a handle. -/
def Handle.borrow (h : Handle) : StoreAccess Handle := do
  let (b, s) := (← get).borrow h
  set s
  return b

namespace Sitting

/-- A refusal as part of a step. -/
def check {α : Type} (r : Except AccessFault α) : Sitting α :=
  match r with
  | .ok a => return a
  | .error fault => throw (.access fault)

/-- The step on a module without a class of its own. -/
def resolve (name : String) (args : List HostValue) : Sitting Outcome := do
  match (← get).exports.dispatchers.find? name with
  | none => return .resolved none
  | some d =>
    let r ← check ((d.resolve args).mapError .dispatch)
    return .resolved (some (d.catalogue.name, r))

/-- What a step does before everything that nobody holds goes. -/
def perform : Step → Sitting Outcome
  | .create className isShared fields target => do
    let h ← adopt (.ofNew isShared) className (.ofList fields) (some target)
    return .handle (← keep (some target) h)
  | .clone name target => do return .handle (← keep target (← slot name))
  | .borrow name target => do
    let h ← slot name
    return .handle (← keep target (← access h.borrow))
  | .share name target => do
    let h ← slot name
    return .handle (← keep target (← access h.share))
  | .destroy name => do
    let h ← slot name
    modify fun s => { s with store := s.store.release h }
    return .done
  | .drop name => do
    let present := (← get).slots.contains name
    modify fun s => { s with slots := s.slots.erase name }
    return .truth present
  | .state name => do return .handle ((← get).view (← slot name))
  | .equal name other => do
    let a ← slot name
    let b ← slot other
    return .truth ((← get).store.sameHandle a b)
  | .fields name => do
    let h ← slot name
    return .fields (← access h.cell).fields.entries
  | .inspect name => do
    let h ← slot name
    let store := (← get).store
    let object := (h.cell.run store).map fun (c, _) => c.inspect store.isAlive
    return .inspected (h.inspect (store.isAlive h)) object
  | .destructions => do return .destructions (← get).destructions
  | .symbols => do
    let m := (← get).exports
    return .symbols m.symbols m.skipped
  | .describe className => do return .described ((← get).exports.classes.find? className)
  | .construct name args target => do
    let values ← args.mapM value
    let (c, h) ← access ((← get).exports.construct name values)
    return .constructed c.native (← keep target h)
  | .read className name member target => do
    let c ← boundClass className
    let h ← slot name
    match ← access (c.get h member) with
    | .object o => return .object (← keep target o)
    | v => return .value v
  | .write className name member argument => do
    let c ← boundClass className
    let v ← value argument
    let h ← slot name
    access (c.set h member v)
    return .done
  | .method className name args => do
    let c ← boundClass className
    let values ← args.mapM value
    return .overload (← check (c.methodOverload name values))
  | .function name args => do
    let values ← args.mapM value
    return .overload (← check ((← get).exports.functionOverload name values))
  | .resolve name args => do resolve name (← args.mapM value)
  | .catalogue name => do
    return .catalogue (((← get).exports.dispatchers.find? name).map (·.catalogue))

end Sitting

namespace Session

/-- One step. -/
def step (s : Session) (st : Step) : Except SessionFault Outcome × Session :=
  match Sitting.perform st s with
  | .ok (outcome, next) => (.ok outcome, next.settled)
  | .error fault => (.error fault, s)

end Session
end Bindery
