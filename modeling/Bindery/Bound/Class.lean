import Bindery.Convert
import Bindery.Dispatch.Catalogue
import Bindery.Literal

/-!
# Bound classes

A class as it is offered to the host: which signatures construct an object, which reach a
method, and how each data member is read and written. Members with a type that cannot cross
the boundary are left out and reported. Methods have no body here; objects carry their data
members only.

## Main definitions

* `AccessFault`: why a class or module refuses an access.
* `BoundClass.bind`: a class under its host name.
* `BoundClass.construct`, `BoundClass.get`, `BoundClass.set`, `BoundClass.methodOverload`.
-/
namespace Bindery

/-- Why an access is refused. -/
inductive AccessFault where
  | conversion (fault : ConversionFault)
  | dispatch (fault : DispatchFault)
  | unknownAttribute (owner name : String)
  | destroyed (className : String)
deriving DecidableEq, Inhabited

/-- The words for a fault. -/
def AccessFault.message : AccessFault → String
  | conversion fault => fault.message
  | dispatch fault => fault.message
  | unknownAttribute owner name => "`" ++ owner ++ "` has no attribute `" ++ name ++ "`"
  | destroyed className =>
    "object of class `" ++ className ++ "` has already been destroyed"

/-- An access, which may change the store. A refused one leaves it as it was. -/
abbrev StoreAccess := StateT Store (Except AccessFault)

/-- A conversion as part of an access. -/
def Conversion.toStoreAccess {α : Type} (c : Conversion α) : StoreAccess α :=
  fun s => (c s).mapError .conversion

/-- The place of the first overload that takes the arguments. -/
def SignaturePattern.pick (r : Registry) (owner name : String)
    (overloads : List SignaturePattern) (args : List HostValue) : Except AccessFault Nat :=
  let call := args.map ArgTag.ofValue
  match overloads.findIdx? fun s => (s.tier? r.isSubclass call).isSome with
  | some i => .ok i
  | none =>
    .error (.conversion (.typeMismatch ("arguments accepted by `" ++ owner ++ "." ++ name ++ "`")
      ("(" ++ ArgTag.callText call ++ ")")))

/-! ## Fields -/

/-- A data member that the host can reach. -/
structure BoundField where
  type : NativeType
  isReadOnly : Bool
  /-- The value in a new object. -/
  initial : NativeValue
deriving Inhabited

namespace BoundField

/-- The value of a member in a new object: its initialiser if that is a literal which
converts, else the value of the type. -/
def initialValue (r : Registry) (type : NativeType) (initializer : Option String) :
    NativeValue :=
  match initializer.bind Literal.read? with
  | none => .initial type
  | some value =>
    match (type.toNative r.isSubclass value).run {} with
    | .ok (native, _) => native
    | .error _ => .initial type

/-- A field whose type can cross the boundary. -/
def bind (r : Registry) (f : Field) : Except MarshalFault BoundField := do
  let type ← r.valueType f.type
  return ⟨type, f.isConst, initialValue r type f.default⟩

/-- Reading the initialiser of a field that binds overflows. -/
def overflows (r : Registry) (f : Field) : Bool :=
  (r.valueType f.type).isOk && f.default.any fun text => (Literal.read text).overflows

end BoundField

/-! ## Classes -/

/-- A class as it is offered to the host. -/
structure BoundClass where
  exportName : String
  native : String
  fields : OrderedMap String BoundField
  constructors : List SignaturePattern
  methods : OrderedMap String (List SignaturePattern)
  registry : Registry
  /-- The members that are left out, each behind the name of the class. -/
  skipped : List String
deriving Inhabited

namespace BoundClass

/-- What of a list binds. -/
def bound {α β : Type} (f : α → Except MarshalFault β) (items : List α) : List (α × β) :=
  items.filterMap fun a => (f a).toOption.map fun b => (a, b)

/-- What of a list does not bind. -/
def unbound {α β : Type} (f : α → Except MarshalFault β) (items : List α) : List α :=
  items.filter fun a => (f a).toOption.isNone

/-- The name of constructors on the host side. -/
def constructorName : String := "__init__"

/-- A class under its host name. -/
def bind (r : Registry) (exportName : String) (c : ExportedClass) : BoundClass :=
  let constructor := fun (k : Constructor) => SignaturePattern.ofParams r k.params
  let method := fun (m : String × Method) => SignaturePattern.ofSignature r m.2.signature
  let methods := c.methods.flatMap fun g => g.overloads.map fun m => (g.name, m)
  let groups := OrderedMap.groupBy (fun ((m, _) : (String × Method) × SignaturePattern) => m.1)
    (bound method methods)
  { exportName, native := c.native, registry := r
    fields := .ofList ((bound (BoundField.bind r) c.fields).map fun (f, b) => (f.name, b))
    constructors := (bound constructor c.constructors).map (·.2) ++
      if c.defaultConstructor then [.empty] else []
    methods := ⟨groups.entries.map fun (name, ms) => (name, ms.map (·.2))⟩
    skipped := ((unbound (BoundField.bind r) c.fields).map (·.name) ++
      (unbound constructor c.constructors).map (fun _ => constructorName) ++
      (unbound method methods).map (·.1)).map fun member => exportName ++ "." ++ member }

/-- The names of methods, then of fields. -/
def attributes (c : BoundClass) : List String := c.methods.keys ++ c.fields.keys

/-- There is no such attribute. -/
def unknown (c : BoundClass) (name : String) : AccessFault := .unknownAttribute c.exportName name

/-- The field with a name. -/
def field (c : BoundClass) (name : String) : Except AccessFault BoundField :=
  match c.fields.find? name with
  | some f => .ok f
  | none => .error (c.unknown name)

/-- The members of a new object. -/
def initialFields (c : BoundClass) : OrderedMap String NativeValue :=
  ⟨c.fields.entries.map fun (name, f) => (name, f.initial)⟩

/-- A new object, owned by the handle that is returned. -/
def construct (c : BoundClass) (args : List HostValue) : StoreAccess Handle := do
  let _ ← SignaturePattern.pick c.registry c.exportName constructorName c.constructors args
  let (h, s) := (← get).adopt .ownedByWrapper c.native c.initialFields none
  set s
  return h

/-- The overload of a method that a call reaches. -/
def methodOverload (c : BoundClass) (name : String) (args : List HostValue) :
    Except AccessFault Nat :=
  match c.methods.find? name with
  | some overloads => SignaturePattern.pick c.registry c.exportName name overloads args
  | none => .error (c.unknown name)

end BoundClass

/-- The place of the living object that a handle reaches. -/
def Handle.reach (h : Handle) : StoreAccess Nat := do
  match (← get).reach? h with
  | some cell => return cell
  | none => throw (.destroyed h.className)

/-- The members of the living object that a handle reaches. -/
def Handle.cell (h : Handle) : StoreAccess Cell := do
  match (← get).cell? h with
  | some cell => return cell
  | none => throw (.destroyed h.className)

namespace BoundClass

/-- The value of an attribute of an object. -/
def get (c : BoundClass) (h : Handle) (name : String) : StoreAccess HostValue := do
  let field ← c.field name
  let cell ← h.cell
  match cell.fields.find? name with
  | some value => (field.type.toHost value).toStoreAccess
  | none => throw (c.unknown name)

/-- Write an attribute of an object. Nothing is written unless the whole value converts. -/
def set (c : BoundClass) (h : Handle) (name : String) (value : HostValue) : StoreAccess Unit := do
  let field ← c.field name
  if field.isReadOnly then throw (.conversion (.readOnly name))
  let native ← (field.type.toNative c.registry.isSubclass value).toStoreAccess
  let cell ← h.reach
  modify fun s => s.writeField cell name native

end BoundClass
end Bindery
