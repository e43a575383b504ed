import Bindery.Registry
import Bindery.Value.Host
import Bindery.Value.Store

/-!
# Conversion between host and native values

Integers are converted exactly or not at all, an integer becomes a floating-point number only
where nothing is lost, and a floating-point number never becomes an integer. Arrays are
rebuilt element by element in the native order. A conversion that fails leaves the store as
it was.

## Main definitions

* `ConversionFault`: why a value cannot cross.
* `NativeType.accepts`: a host value is of the right kind, range and shape aside.
* `NativeType.toNative`, `NativeType.toHost`: the two directions.
-/
namespace Bindery

/-- Why a value cannot cross the boundary. -/
inductive ConversionFault where
  | shapeMismatch (expected actual : String)
  | range (value target : String)
  | typeMismatch (expected actual : String)
  | readOnly (name : String)
deriving DecidableEq, Inhabited

/-- The words for a fault. -/
def ConversionFault.message : ConversionFault → String
  | shapeMismatch expected actual =>
    "shape mismatch: expected " ++ expected ++ ", got " ++ actual
  | range value target => "value " ++ value ++ " is out of range for `" ++ target ++ "`"
  | typeMismatch expected actual => "type mismatch: expected " ++ expected ++ ", got " ++ actual
  | readOnly name => "attribute `" ++ name ++ "` is read-only"

/-! ## Scalars -/

namespace ScalarKind

/-- A host value is of the right kind. -/
def accepts (k : ScalarKind) : HostValue → Bool
  | .bool _ => k = .bool
  | .str s => k = .char && s.length = 1
  | .int _ => k.isInteger || k.isFloat
  | .float _ => k.isFloat
  | _ => false

/-- An integer of a kind. -/
def ofInteger (k : ScalarKind) (n : Int) : Except ConversionFault NativeScalar :=
  match k.integerRange? with
  | none => .error (.typeMismatch k.spelling "int")
  | some (low, high) =>
    if n < low || high < n then .error (.range (toString n) k.spelling)
    else if k.isSigned then .ok (.signed k (Int64.ofInt n))
    else .ok (.unsigned k (UInt64.ofNat n.toNat))

/-- The greatest number of single precision. -/
def maxSingle : Float := 3.4028234663852886e38

/-- A floating-point number of a kind. -/
def ofFloat (k : ScalarKind) (x : Float) : Except ConversionFault NativeScalar :=
  if k = .f32 then
    if x.isFinite && maxSingle < x.abs then
      .error (.range (NumberStyle.plain.render x) k.spelling)
    else .ok (.float k x.toFloat32.toFloat)
  else .ok (.float k x)

/-- An integer as a floating-point number of a kind. -/
def ofExactInteger (k : ScalarKind) (i : Int64) : Except ConversionFault NativeScalar :=
  if k.holdsExactly i.toInt then k.ofFloat i.toFloat
  else .error (.range (toString i.toInt) k.spelling)

/-- A host value as a scalar of a kind. -/
def ofHost (k : ScalarKind) (v : HostValue) : Except ConversionFault NativeScalar :=
  let mismatch : Except ConversionFault NativeScalar :=
    .error (.typeMismatch k.spelling v.typeName)
  match v with
  | .bool b => if k = .bool then .ok (.bool b) else mismatch
  | .str s =>
    if k = .char then
      match s.toList with
      | [c] => if c.toNat < 128 then .ok (.char c) else .error (.range (Text.quoted s) "char")
      | _ => .error (.range (Text.quoted s) "char")
    else mismatch
  | .int i =>
    if k.isInteger then k.ofInteger i.toInt
    else if k.isFloat then k.ofExactInteger i
    else mismatch
  | .float x => if k.isFloat then k.ofFloat x else mismatch
  | _ => mismatch

end ScalarKind

namespace NativeScalar

/-- An unsigned number as an integer of the host. -/
def hostInt (v : UInt64) : Except ConversionFault Int64 :=
  if (v.toNat : Int) ≤ Numeral.maxInt64 then .ok (Int64.ofNat v.toNat)
  else .error (.range (toString v.toNat) "int")

/-- A scalar as a host value. -/
def toHost : NativeScalar → Except ConversionFault HostValue
  | bool b => .ok (.bool b)
  | char c => .ok (.str (String.singleton c))
  | signed _ v => .ok (.int v)
  | unsigned _ v => (hostInt v).map .int
  | float _ v => .ok (.float v)

/-- A scalar as an integer of a host array. -/
def toHostInt : NativeScalar → Except ConversionFault Int64
  | signed _ v => .ok v
  | unsigned _ v => hostInt v
  | other => .error (.typeMismatch "int" other.inspect)

end NativeScalar

/-! ## Arrays -/

namespace ArrayType

/-- The elements of a host buffer as scalars. -/
def elements (a : ArrayType) (buffer : HostBuffer) :
    Except ConversionFault (List NativeScalar) :=
  let mismatch : Except ConversionFault (List NativeScalar) :=
    .error (.typeMismatch ("array<" ++ a.element.spelling ++ ">")
      ("array<" ++ buffer.element.text ++ ">"))
  match buffer with
  | .bools items => if a.element = .bool then .ok (items.map .bool) else mismatch
  | .ints items =>
    if a.element.isInteger then items.mapM fun i => a.element.ofInteger i.toInt
    else if a.element.isFloat then items.mapM a.element.ofExactInteger
    else mismatch
  | .floats items => if a.element.isFloat then items.mapM a.element.ofFloat else mismatch

/-- A host array in native order. -/
def ofHost (a : ArrayType) (h : HostArray) : Except ConversionFault NativeArray := do
  if a.acceptsShape h.shape then
    let data ← a.elements h.buffer
    let layout := if a.dims.isNone then .rowMajor else a.layout
    return ⟨a.element, h.shape, layout, Layout.rowMajor.move layout h.shape data⟩
  else throw (.shapeMismatch a.shapeText (Bindery.shapeText h.shape))

end ArrayType

/-- A native array as an array of the host. -/
def NativeArray.toHost (a : NativeArray) : Except ConversionFault HostArray := do
  let rows := a.layout.move .rowMajor a.shape a.data
  let buffer ←
    if a.element = .bool then
      pure (.bools (rows.map fun
        | .bool b => b
        | _ => false))
    else if a.element.isFloat then pure (.floats (rows.map NativeScalar.toFloat))
    else HostBuffer.ints <$> rows.mapM NativeScalar.toHostInt
  return ⟨a.shape, buffer⟩

/-! ## Values -/

/-- A conversion, which may add wrappers to the store. -/
abbrev Conversion := StateT Store (Except ConversionFault)

namespace NativeType

/-- A host value is of the right kind, range and shape aside. -/
def accepts (isSubclass : String → String → Bool) (t : NativeType) (v : HostValue) : Bool :=
  match t, v with
  | hostObject, _ => true
  | scalar kind, v => kind.accepts v
  | text _, .str _ => true
  | array a, .array h => a.element.acceptsElement h.element
  | object _ ownership, .nothing => ownership = .borrowed
  | object className _, .object h => h.className = className || isSubclass h.className className
  | _, _ => false

/-- The native side of a handle: a reference, one more holder, or the same wrapper. -/
def handleToNative (className : String) (ownership : Ownership) (h : Handle) :
    Conversion NativeValue := do
  match ownership with
  | .borrowed =>
    let (b, s) := (← get).borrow h
    set s
    return .object b
  | .shared =>
    match (← get).share h with
    | .ok (shared, s) =>
      set s
      return .object shared
    | .error _ =>
      throw (.typeMismatch ("std::shared_ptr<" ++ className ++ ">") h.className)
  | .ownedByWrapper => return .object h

/-- A host value for a parameter or field of a type. -/
def toNative (isSubclass : String → String → Bool) (t : NativeType) (v : HostValue) :
    Conversion NativeValue :=
  let mismatch (expected : String) : Conversion NativeValue :=
    throw (.typeMismatch expected v.typeName)
  match t with
  | void => mismatch "void"
  | scalar kind => do return .scalar (← kind.ofHost v)
  | text _ =>
    match v with
    | .str s => return .str s
    | _ => mismatch "str"
  | array a =>
    match v with
    | .array h => do return .array (← a.ofHost h)
    | _ => mismatch a.text
  | object className ownership =>
    match v with
    | .object h =>
      if t.accepts isSubclass v then handleToNative className ownership h
      else mismatch className
    | .nothing => if ownership = .borrowed then return .null else mismatch className
    | _ => mismatch className
  | hostObject =>
    throw (.typeMismatch "a native value" (v.typeName ++ " passed through as object"))

/-- A result or field value of a type as a host value. A borrowed object gets a wrapper of
its own. -/
def toHost (t : NativeType) (v : NativeValue) : Conversion HostValue := do
  match t, v with
  | void, .void => return .nothing
  | scalar _, .scalar s => s.toHost
  | text _, .str s => return .str s
  | array _, .array a => return .array (← a.toHost)
  | object _ ownership, .object h =>
    if ownership = .borrowed then
      let (b, s) := (← get).borrow h
      set s
      return .object b
    else return .object h
  | object .., .null => return .nothing
  | t, v => throw (.typeMismatch t.description (v.inspect (← get).isAlive))

end NativeType
end Bindery
