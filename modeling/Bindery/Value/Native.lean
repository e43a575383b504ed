import Bindery.Decimal.Style
import Bindery.Text.Quoted
import Bindery.Value.Handle

/-!
# Native values

Values on the native side of the boundary: scalars of a fixed kind, texts, arrays in their
declared order, and objects behind handles.

## Main definitions

* `NativeValue`, `NativeScalar`, `NativeArray`.
* `NativeValue.initial`: the value of a member that was not initialised.
* `NativeValue.inspect`: a value in full, for messages.
-/
namespace Bindery

/-- A scalar of a kind. -/
inductive NativeScalar where
  | bool (b : Bool)
  | char (c : Char)
  | signed (kind : ScalarKind) (value : Int64)
  | unsigned (kind : ScalarKind) (value : UInt64)
  | float (kind : ScalarKind) (value : Float)
deriving Inhabited

namespace NativeScalar

/-- The kind of a scalar. -/
def kind : NativeScalar → ScalarKind
  | bool _ => .bool
  | char _ => .char
  | signed k _ | unsigned k _ | float k _ => k

/-- The zero of a kind. -/
def zero (k : ScalarKind) : NativeScalar :=
  match k with
  | .bool => bool false
  | .char => char (Char.ofNat 0)
  | .f32 | .f64 => float k 0.0
  | .i8 | .i16 | .i32 | .i64 => signed k 0
  | .u8 | .u16 | .u32 | .u64 => unsigned k 0

/-- The scalar as a floating-point number. -/
def toFloat : NativeScalar → Float
  | bool b => if b then 1.0 else 0.0
  | char c => c.val.toFloat
  | signed _ v => v.toFloat
  | unsigned _ v => v.toFloat
  | float _ v => v

/-- A scalar in full. -/
def inspect : NativeScalar → String
  | bool b => "Bool(" ++ (if b then "true" else "false") ++ ")"
  | char c => "Char(" ++ Text.quotedChar c ++ ")"
  | signed k v => "Signed(" ++ k.title ++ ", " ++ toString v.toInt ++ ")"
  | unsigned k v => "Unsigned(" ++ k.title ++ ", " ++ toString v.toNat ++ ")"
  | float k v => "Float(" ++ k.title ++ ", " ++ NumberStyle.explicit.render v ++ ")"

end NativeScalar

/-- A dense array in its declared order. -/
structure NativeArray where
  element : ScalarKind
  shape : List Nat
  layout : Layout
  /-- The elements as they are stored. -/
  data : List NativeScalar
deriving Inhabited

namespace NativeArray

/-- An array of zeros; dimensions of any length are empty. -/
def zeros (a : ArrayType) : NativeArray :=
  let shape := (a.dims.getD []).map Dim.initialLength
  ⟨a.element, shape, a.layout, List.replicate (volume shape) (.zero a.element)⟩

/-- The element at a multi-index, whatever the order. -/
def get? (a : NativeArray) (index : List Nat) : Option NativeScalar :=
  if inShape a.shape index then a.data[a.layout.offset a.shape index]? else none

/-- An array in full. -/
def inspect (a : NativeArray) : String :=
  "NativeArray \x7b element: " ++ a.element.title ++ ", shape: " ++ shapeText a.shape ++
    ", layout: " ++ a.layout.title ++ ", data: [" ++
    ", ".intercalate (a.data.map NativeScalar.inspect) ++ "] \x7d"

end NativeArray

/-- A handle in full. -/
def Handle.inspect (isAlive : Bool) (h : Handle) : String :=
  "ObjectHandle \x7b class: " ++ Text.quoted h.className ++ ", ownership: " ++
    h.ownership.title ++ ", alive: " ++ (if isAlive then "true" else "false") ++ " \x7d"

/-- A value on the native side. -/
inductive NativeValue where
  | void
  | scalar (s : NativeScalar)
  | str (s : String)
  | array (a : NativeArray)
  | object (h : Handle)
  /-- No object. -/
  | null
deriving Inhabited

namespace NativeValue

/-- The value of a member that was not initialised. -/
def initial : NativeType → NativeValue
  | .void => void
  | .scalar kind => scalar (.zero kind)
  | .text _ => str ""
  | .array a => array (.zeros a)
  | .object .. | .hostObject => null

/-- The handle of a value. -/
def handle? : NativeValue → Option Handle
  | object h => some h
  | _ => none

/-- A value in full, given which handles reach a living object. -/
def inspect (isAlive : Handle → Bool) : NativeValue → String
  | void => "Void"
  | scalar s => "Scalar(" ++ s.inspect ++ ")"
  | str s => "Str(" ++ Text.quoted s ++ ")"
  | array a => "Array(" ++ a.inspect ++ ")"
  | object h => "Object(" ++ h.inspect (isAlive h) ++ ")"
  | null => "Null"

end NativeValue
end Bindery
