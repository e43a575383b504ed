import Bindery.Value.Handle

/-!
# Host values

The dynamically typed values of the host: nothing, truth values, 64-bit integers,
floating-point numbers, texts, dense arrays, and handles of native objects. Arrays of the
host are stored in row-major order.

## Main definitions

* `HostValue`: a value of the host.
* `HostArray`, `HostBuffer`: arrays.
* `HostArray.isClose`: equality of arrays up to a tolerance.
-/
namespace Bindery

/-- The element types of host arrays. -/
inductive HostElement where
  | bool
  | int
  | float
deriving DecidableEq, Inhabited

/-- The word for an element type. -/
def HostElement.text : HostElement → String
  | bool => "bool"
  | int => "int"
  | float => "float"

/-- Elements of a host array can become scalars of the kind. -/
def ScalarKind.acceptsElement (k : ScalarKind) : HostElement → Bool
  | .bool => k = .bool
  | .int => k.isInteger || k.isFloat
  | .float => k.isFloat

/-- A flat buffer. -/
inductive HostBuffer where
  | bools (items : List Bool)
  | ints (items : List Int64)
  | floats (items : List Float)
deriving Inhabited

namespace HostBuffer

/-- The element type of a buffer. -/
def element : HostBuffer → HostElement
  | bools _ => .bool
  | ints _ => .int
  | floats _ => .float

/-- The number of elements. -/
def size : HostBuffer → Nat
  | bools items => items.length
  | ints items => items.length
  | floats items => items.length

/-- The elements as floating-point numbers. -/
def toFloats : HostBuffer → List Float
  | bools items => items.map fun b => if b then 1.0 else 0.0
  | ints items => items.map Int64.toFloat
  | floats items => items

/-- Equal buffers of the same element type. A number that is no number differs from
itself. -/
def equal : HostBuffer → HostBuffer → Bool
  | bools a, bools b => a = b
  | ints a, ints b => a = b
  | floats a, floats b => a == b
  | _, _ => false

end HostBuffer

/-- An array of the host. -/
structure HostArray where
  shape : List Nat
  buffer : HostBuffer
deriving Inhabited

namespace HostArray

/-- An array, if the buffer has as many elements as the shape asks for. -/
def make? (shape : List Nat) (buffer : HostBuffer) : Option HostArray :=
  if volume shape = buffer.size then some ⟨shape, buffer⟩ else none

/-- The element type of an array. -/
def element (a : HostArray) : HostElement := a.buffer.element

/-- Two numbers differ by no more than the tolerance allows for their size. -/
def near (tolerance a b : Float) : Bool :=
  (a - b).abs ≤ tolerance * (max (max a.abs b.abs) 1.0)

/-- Arrays of the same shape with elements that are near each other. -/
def isClose (tolerance : Float) (a b : HostArray) : Bool :=
  a.shape = b.shape &&
    (a.buffer.toFloats.zip b.buffer.toFloats).all fun (x, y) => near tolerance x y

end HostArray

/-- A value of the host. -/
inductive HostValue where
  | nothing
  | bool (b : Bool)
  | int (i : Int64)
  | float (x : Float)
  | str (s : String)
  | array (a : HostArray)
  | object (h : Handle)
deriving Inhabited

namespace HostValue

/-- The name of the type of a value. -/
def typeName : HostValue → String
  | nothing => "None"
  | bool _ => "bool"
  | int _ => "int"
  | float _ => "float"
  | str _ => "str"
  | array a => "array<" ++ a.element.text ++ ">" ++ shapeText a.shape
  | object h => h.className

/-- The integer of a value. -/
def int? : HostValue → Option Int64
  | int i => some i
  | _ => none

/-- The number of a value. -/
def float? : HostValue → Option Float
  | float x => some x
  | int i => some i.toFloat
  | _ => none

/-- The text of a value. -/
def str? : HostValue → Option String
  | str s => some s
  | _ => none

/-- The array of a value. -/
def array? : HostValue → Option HostArray
  | array a => some a
  | _ => none

/-- The handle of a value. -/
def object? : HostValue → Option Handle
  | object h => some h
  | _ => none

/-- Equal values, given when two handles are equal. -/
def equal (sameHandle : Handle → Handle → Bool) : HostValue → HostValue → Bool
  | nothing, nothing => true
  | bool a, bool b => a = b
  | int a, int b => a = b
  | float a, float b => a == b
  | str a, str b => a = b
  | array a, array b => a.shape = b.shape && a.buffer.equal b.buffer
  | object a, object b => sameHandle a b
  | _, _ => false

end HostValue
end Bindery
