import Bindery.Native.Scalar
import Bindery.Native.Shape
import Bindery.TypeExpr.Unification

/-!
# Native types

What a type of the header means at the boundary to the host: a scalar, a text, a dense array
of a known family, an object of an exported class, or a host value that passes through. Most
types mean nothing there, and a declaration that uses one cannot be exported.

## Main definitions

* `ArrayType`: element, dimensions and order of an array.
* `NativeType`: the sorts of types.
* `NativeType.classify?`: the meaning of a type, given which classes are exported.
-/
namespace Bindery

/-- A dimension of an array type. -/
inductive Dim where
  | fixed (n : Nat)
  | dynamic
deriving DecidableEq, Inhabited

namespace Dim

/-- A dimension of the given length fits. -/
def accepts : Dim → Nat → Bool
  | fixed n, len => n = len
  | dynamic, _ => true

/-- A dimension as text. -/
def text : Dim → String
  | fixed n => toString n
  | dynamic => "*"

/-- The length of the dimension in an array that was not filled yet. -/
def initialLength : Dim → Nat
  | fixed n => n
  | dynamic => 0

end Dim

/-- The containers that an array type can come from. -/
inductive ArrayFamily where
  | stdArray
  | stdVector
  | eigenMatrix
  | eigenTensor
  /-- An array of the host, of any rank. -/
  | hostArray
deriving DecidableEq, Inhabited

/-- The word for a family. -/
def ArrayFamily.text : ArrayFamily → String
  | stdArray => "std_array"
  | stdVector => "std_vector"
  | eigenMatrix => "eigen_matrix"
  | eigenTensor => "eigen_tensor"
  | hostArray => "host_array"

/-- A dense array type. -/
structure ArrayType where
  family : ArrayFamily
  element : ScalarKind
  /-- The dimensions; none when every rank fits. -/
  dims : Option (List Dim)
  layout : Layout
deriving DecidableEq, Inhabited

/-- The lengths fit the dimensions. -/
def Dim.acceptAll (dims : List Dim) (shape : List Nat) : Bool :=
  dims.length = shape.length && (dims.zip shape).all fun (d, n) => d.accepts n

namespace ArrayType

/-- An array of the shape fits. -/
def acceptsShape (a : ArrayType) (shape : List Nat) : Bool :=
  match a.dims with
  | none => true
  | some dims => Dim.acceptAll dims shape

/-- The dimensions on one line. -/
def shapeText (a : ArrayType) : String :=
  match a.dims with
  | none => "[..]"
  | some dims => "[" ++ ", ".intercalate (dims.map Dim.text) ++ "]"

/-- An array type as text. -/
def text (a : ArrayType) : String := "array<" ++ a.element.spelling ++ ">" ++ a.shapeText

end ArrayType

/-- Who destroys the object behind a handle. -/
inductive Ownership where
  /-- The wrapper, once. -/
  | ownedByWrapper
  /-- Someone else. -/
  | borrowed
  /-- The last of several holders. -/
  | shared
deriving DecidableEq, Inhabited

namespace Ownership

/-- The word for an ownership. -/
def text : Ownership → String
  | ownedByWrapper => "owned_by_wrapper"
  | borrowed => "borrowed"
  | shared => "shared"

/-- The word for an ownership with capital letters. -/
def title : Ownership → String
  | ownedByWrapper => "OwnedByWrapper"
  | borrowed => "Borrowed"
  | shared => "Shared"

end Ownership

/-- What a type means at the boundary. -/
inductive NativeType where
  | void
  | scalar (kind : ScalarKind)
  /-- A text, perhaps as a pointer to characters. -/
  | text (isPointer : Bool)
  | array (type : ArrayType)
  /-- An exported class by its spelling. -/
  | object (className : String) (ownership : Ownership)
  /-- Any host value, passed through. -/
  | hostObject
deriving DecidableEq, Inhabited

/-! ## Arrays -/

namespace ArrayType

/-- The element that a template argument denotes. A character is no element. -/
def elementOf? (arg : TemplateArg) : Option ScalarKind := do
  let t ← arg.type?
  let kind ← match t.declarators, t.base with
    | [], .fundamental name => ScalarKind.ofSpelling? name
    | [], .named _ segments =>
      if (TypeExpr.lastArgs segments).isEmpty then
        ScalarKind.ofSpelling? (NameSegment.path segments)
      else none
    | _ :: _, _ => none
  if kind = .char then none else some kind

/-- The dimension that a template argument denotes; minus one stands for any length. -/
def dimOf? (arg : TemplateArg) : Option Dim :=
  match arg.integer? with
  | some (.ofNat n) => some (.fixed n)
  | some n => if n = -1 then some .dynamic else none
  | none => if arg.lastWord? = some "Dynamic" then some .dynamic else none

/-- The natural number that a template argument denotes. -/
def countOf? (arg : TemplateArg) : Option Nat :=
  match arg.integer? with
  | some (.ofNat n) => some n
  | _ => none

/-- Some text stands inside another. -/
def occursIn (part : List Char) : List Char → Bool
  | [] => part.isEmpty
  | c :: cs => part.isPrefixOf (c :: cs) || occursIn part cs

/-- The order that a template argument asks for; columns go first without one. -/
def layoutOf (arg : Option TemplateArg) : Layout :=
  if arg.any fun a => occursIn "RowMajor".toList a.text.toList then .rowMajor else .colMajor

/-- Element and dimensions of a standard container, which may be nested in itself to a
bounded depth. -/
def nestedDims? (family : String) (outer : List TemplateArg → Option Dim) :
    Nat → List TemplateArg → Option (ScalarKind × List Dim)
  | 0, _ => none
  | depth + 1, args => do
    let first ← args.head?
    let (element, inner) ← match elementOf? first with
      | some element => some (element, [])
      | none => do
        let t ← first.type?
        let segments ← t.segments?
        if t.declarators = [] && NameSegment.path segments = family then
          nestedDims? family outer depth (TypeExpr.lastArgs segments)
        else none
    return (element, (← outer args) :: inner)

/-- The dimensions of a matrix. One with a single row or column is a vector. -/
def matrixDims (rows cols : Dim) : List Dim :=
  if cols = .fixed 1 && rows ≠ .fixed 1 then [rows]
  else if rows = .fixed 1 && cols ≠ .fixed 1 then [cols]
  else [rows, cols]

/-- A matrix or vector type. -/
def matrix (element : ScalarKind) (rows cols : Dim) (layout : Layout) : ArrayType :=
  ⟨.eigenMatrix, element, some (matrixDims rows cols), layout⟩

/-- The forms that have short names for common sizes and elements. -/
inductive ShortForm where
  | rowVector
  | vector
  | square

/-- The words for the short forms; the first that fits is taken. -/
def shortForms : List (String × ShortForm) :=
  [("RowVector", .rowVector), ("Vector", .vector), ("Matrix", .square), ("Array", .square)]

/-- The size that a short name gives. -/
def shortSize? (c : Char) : Option Dim :=
  if c = 'X' then some .dynamic
  else if '2' ≤ c && c ≤ '4' then some (.fixed (c.toNat - '0'.toNat))
  else none

/-- The element that a short name gives. -/
def shortElement? : List Char → Option ScalarKind
  | ['i'] => some .i32
  | ['f'] => some .f32
  | ['d'] => some .f64
  | _ => none

/-- The array type that a short name such as `Eigen::Vector3f` denotes. -/
def ofShortName? (path : String) : Option ArrayType := do
  let name ← ScalarKind.dropLead? "Eigen::" path
  let (form, rest) ← shortForms.findSome? fun (word, form) =>
    (ScalarKind.dropLead? word name).map fun rest => (form, rest)
  match rest.toList with
  | [] => none
  | c :: cs =>
    let size ← shortSize? c
    let element ← shortElement? cs
    return match form with
      | .vector => matrix element size (.fixed 1) .colMajor
      | .rowVector => matrix element (.fixed 1) size .rowMajor
      | .square => matrix element size size .colMajor

/-- The array type that a path with template arguments denotes. -/
def ofPath? (depth : Nat) (path : String) (args : List TemplateArg) : Option ArrayType :=
  if path = "std::array" then do
    let outer (as : List TemplateArg) : Option Dim := (as[1]?.bind countOf?).map .fixed
    let (element, dims) ← nestedDims? path outer depth args
    return ⟨.stdArray, element, some dims, .rowMajor⟩
  else if path = "std::vector" then do
    let (element, dims) ← nestedDims? path (fun _ => some .dynamic) depth args
    return ⟨.stdVector, element, some dims, .rowMajor⟩
  else if path = "Eigen::Matrix" || path = "Eigen::Array" then do
    let element ← args.head?.bind elementOf?
    let rows ← args[1]?.bind dimOf?
    let cols ← args[2]?.bind dimOf?
    return matrix element rows cols (layoutOf args[3]?)
  else if path = "Eigen::Tensor" then do
    let element ← args.head?.bind elementOf?
    let rank ← args[1]?.bind countOf?
    return ⟨.eigenTensor, element, some (List.replicate rank .dynamic), layoutOf args[2]?⟩
  else if path = "py::array_t" || path = "pybind11::array_t" then do
    let element ← args.head?.bind elementOf?
    return ⟨.hostArray, element, none, .rowMajor⟩
  else ofShortName? path

end ArrayType

/-! ## Classification -/

/-- The spelling of a class type without qualifiers. -/
def TypeExpr.classText? (t : TypeExpr) : Option String :=
  match t.base, t.declarators with
  | .named _ segments, [] => some (NameSegment.textAll segments)
  | _, _ => none

namespace NativeType

/-- An object of an exported class. -/
def objectOf? (isClass : String → Bool) (ownership : Ownership) (t : TypeExpr) :
    Option NativeType := do
  let spelling ← t.classText?
  if isClass spelling then return object spelling ownership else none

/-- The meaning of a type without qualifiers, references and pointers. -/
def ofBare? (isClass : String → Bool) (t : TypeExpr) : Option NativeType :=
  match t.declarators, t.base with
  | _ :: _, _ => none
  | [], .fundamental name => (ScalarKind.ofSpelling? name).map scalar
  | [], .named _ segments =>
    let path := NameSegment.path segments
    let args := TypeExpr.lastArgs segments
    if path = "std::string" then some (text false)
    else if path = "std::shared_ptr" || path = "std::unique_ptr" then do
      let pointee ← args.head?.bind TemplateArg.type?
      objectOf? isClass (if path = "std::shared_ptr" then .shared else .ownedByWrapper)
        pointee.denoted
    else if path = "py::object" || path = "pybind11::object" then some hostObject
    else match if args.isEmpty then ScalarKind.ofSpelling? path else none with
      | some kind => some (scalar kind)
      | none =>
        match ArrayType.ofPath? t.paths.length path args with
        | some a => some (array a)
        | none => objectOf? isClass .ownedByWrapper t

/-- A reference to an object borrows it; of everything else it takes the value. -/
def borrowObject : NativeType → NativeType
  | object className _ => object className .borrowed
  | t => t

/-- The meaning of a type, given which spellings name exported classes. -/
def classify? (isClass : String → Bool) (t : TypeExpr) : Option NativeType :=
  let bare := t.denoted
  if bare.isVoid then some void
  else if t.isReference && !bare.isPointer then (ofBare? isClass bare).map borrowObject
  else match bare.pointee? with
    | none => ofBare? isClass bare
    | some pointee =>
      if pointee.isPointer then none
      else if pointee.asFundamental? = some "char" && pointee.isConst then some (text true)
      else objectOf? isClass .borrowed pointee

/-- A type as text. -/
def description : NativeType → String
  | void => "void"
  | scalar kind => kind.spelling
  | text _ => "str"
  | array a => a.text
  | object className _ => className
  | hostObject => "object"

/-- The type is an array of the family. -/
def isOfFamily (family : ArrayFamily) : NativeType → Bool
  | array a => a.family = family
  | _ => false

/-- The ownership of the objects of a type. -/
def ownership : NativeType → Ownership
  | object _ ownership => ownership
  | _ => .ownedByWrapper

end NativeType
end Bindery
