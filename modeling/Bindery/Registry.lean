import Bindery.Export.Model
import Bindery.Native.Type
import Bindery.OrderedMap

/-!
# Registered classes

The classes that can cross the boundary, by their native spelling. A registry tells which
types have a meaning there, and which classes derive from which. Lists of bases may be
cyclic or name classes that are not registered.

## Main definitions

* `Registry`: classes by native spelling.
* `Registry.isSubclass`: whether a class is or derives from another.
* `Registry.valueType`, `Registry.resultType`: the meaning of a type.
-/
namespace Bindery

/-- What is known of a class. -/
structure ClassInfo where
  exportName : String
  bases : List String
deriving DecidableEq, Inhabited

/-- Classes by their native spelling. -/
abbrev Registry := OrderedMap String ClassInfo

/-- Why a type cannot cross the boundary. -/
inductive MarshalFault where
  | unsupported (type : String)
deriving DecidableEq, Inhabited

/-- The words for a fault. -/
def MarshalFault.message : MarshalFault → String
  | unsupported type => "unsupported type `" ++ type ++ "`: no marshaling rule is registered"

namespace Registry

/-- The bases of a class, none when it is not registered. -/
def basesOf (r : Registry) (className : String) : List String :=
  ((r.find? className).map (·.bases)).getD []

/-- Some class that is still to be visited is or derives from `base`. Each class is expanded
once. -/
def reaches (r : Registry) (base : String) : Nat → List String → List String → Bool
  | 0, _, _ => false
  | _ + 1, [], _ => false
  | fuel + 1, c :: pending, seen =>
    if c = base then true
    else if seen.contains c then reaches r base fuel pending seen
    else reaches r base fuel (r.basesOf c ++ pending) (c :: seen)

/-- The number of bases in all lists together. -/
def baseCount (r : Registry) : Nat :=
  r.entries.foldr (fun (_, info) n => info.bases.length + n) 0

/-- The class is or derives from `base`. Every visit takes up one name, and each base list is
taken up at most once, which bounds the visits. -/
def isSubclass (r : Registry) (derived base : String) : Bool :=
  r.reaches base (r.baseCount + 2) [derived] []

/-- The name that a class has on the host side. -/
def exportName? (r : Registry) (native : String) : Option String :=
  (r.find? native).map (·.exportName)

/-- The registry of a model. -/
def ofModel (m : ExportModel) : Registry :=
  .ofList (m.allClasses.map fun c => (c.native, ⟨c.exportName, c.bases⟩))

/-- The meaning of a result type. -/
def resultType (r : Registry) (t : TypeExpr) : Except MarshalFault NativeType :=
  match NativeType.classify? r.contains t with
  | some native => .ok native
  | none => .error (.unsupported t.text)

/-- The meaning of the type of a parameter or field, which cannot be `void`. -/
def valueType (r : Registry) (t : TypeExpr) : Except MarshalFault NativeType :=
  match r.resultType t with
  | .ok .void => .error (.unsupported t.text)
  | other => other

end Registry
end Bindery
