/-!
# Shapes and storage orders

A dense array is stored flat. In row-major order the last index runs fastest, in
column-major order the first. A buffer is moved from one order to the other in one walk over its
elements. A multi-index that counts like an odometer, the fastest axis first, says at every element
where the element goes.

## Main definitions

* `Layout`: the two orders.
* `Layout.offset`: the place of a multi-index in the buffer.
* `Layout.tick`, `Layout.next`: the next multi-index of an odometer.
* `Layout.move`: a buffer in another order.
-/
namespace Bindery
universe u

/-- The order in which a buffer is stored. -/
inductive Layout where
  | rowMajor
  | colMajor
deriving DecidableEq, Inhabited

/-- The number of elements of an array. -/
def volume (shape : List Nat) : Nat := shape.foldr (· * ·) 1

namespace Layout

/-- The word for an order. -/
def text : Layout → String
  | rowMajor => "row_major"
  | colMajor => "col_major"

/-- The word for an order with capital letters. -/
def title : Layout → String
  | rowMajor => "RowMajor"
  | colMajor => "ColMajor"

/-- Axes from the fastest to the slowest. -/
def fastestFirst {α : Type u} (layout : Layout) (axes : List α) : List α :=
  match layout with
  | rowMajor => axes.reverse
  | colMajor => axes

/-- The place of an index given axis by axis, the fastest axis first. -/
def strided : List (Nat × Nat) → Nat
  | [] => 0
  | (i, n) :: rest => i + n * strided rest

/-- The place of a multi-index in a buffer. Nothing is checked. -/
def offset (layout : Layout) (shape index : List Nat) : Nat :=
  strided (layout.fastestFirst (index.zip shape))

/-- The next reading of an odometer, the fastest wheel first. A wheel at its end starts over and
moves the next wheel. -/
def tick : List Nat → List Nat → List Nat
  | n :: ns, i :: is => if i + 1 < n then (i + 1) :: is else 0 :: tick ns is
  | _, is => is

/-- The multi-index behind another one in an order. -/
def next (layout : Layout) (shape index : List Nat) : List Nat :=
  layout.fastestFirst (tick (layout.fastestFirst shape) (layout.fastestFirst index))

/-- Put elements where the odometer says, one after the other, into a buffer of another order. The
walk ends without a buffer when it leaves the one that it has. -/
def scatter? {α : Type u} (source target : Layout) (shape : List Nat) :
    List α → List Nat → Array α → Option (Array α)
  | [], _, out => some out
  | a :: items, index, out =>
    let place := target.offset shape index
    if h : place < out.size then
      scatter? source target shape items (source.next shape index) (out.set place a)
    else none

/-- A buffer in another order, unless it is too short for its shape and the walk leaves it. What
stands behind the last element of the shape stays where it is. -/
def move? {α : Type u} (source target : Layout) (shape : List Nat) (data : List α) :
    Option (List α) :=
  if source = target || shape.length < 2 then some data
  else (scatter? source target shape (data.take (volume shape))
    (List.replicate shape.length 0) data.toArray).map Array.toList

/-- A buffer in another order. One that is too short to be moved stays as it is. -/
def move {α : Type u} (source target : Layout) (shape : List Nat) (data : List α) : List α :=
  (source.move? target shape data).getD data

end Layout

/-- The multi-index lies inside the shape. -/
def inShape (shape index : List Nat) : Bool :=
  index.length = shape.length && (index.zip shape).all fun (i, n) => i < n

/-- A shape on one line. -/
def shapeText (shape : List Nat) : String := "[" ++ ", ".intercalate (shape.map toString) ++ "]"

end Bindery
