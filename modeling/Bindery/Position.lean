/-!
# Positions in a text

Offsets count bytes of the UTF-8 form. Lines and columns count from zero and are printed
from one.

## Main definitions

* `Position`: a line and a column.
* `LineIndex`: where the lines of one text start.
* `LineIndex.search`: where an offset stands among the starts of lines.
* `LineIndex.countUpTo`: how many starts an ascending list has up to an offset.
* `LineIndex.position`: the line and column of an offset.
-/
namespace Bindery

/-- A line and a column, both counted from zero. -/
structure Position where
  line : Nat
  col : Nat
deriving DecidableEq, Inhabited

/-- A position as compilers report it, counted from one. -/
def Position.text (p : Position) : String := s!"{p.line + 1}:{p.col + 1}"

/-- The bytes of a list of characters in UTF-8. -/
def byteLength (cs : List Char) : Nat := cs.foldr (fun c n => c.utf8Size + n) 0

@[simp] theorem byteLength_nil : byteLength [] = 0 := rfl

@[simp] theorem byteLength_cons (c : Char) (cs : List Char) :
    byteLength (c :: cs) = c.utf8Size + byteLength cs := rfl

@[simp] theorem byteLength_append (xs ys : List Char) :
    byteLength (xs ++ ys) = byteLength xs + byteLength ys := by
  induction xs with
  | nil => simp
  | cons c xs ih => simp [ih, Nat.add_assoc]

/-- The bytes of a text. Those of a literal are at hand, while its characters have to be decoded,
which is too slow for long texts. -/
def utf8Bytes (text : String) : List UInt8 := text.toByteArray.data.toList

/-- What a search in an ascending list gives: the place of the value, or the place at which it
would have to be put in. -/
inductive Sought where
  | found (place : Nat)
  | missing (place : Nat)
deriving DecidableEq

/-- The offsets at which the lines of one text start, and the size of the text. -/
structure LineIndex where
  starts : List Nat
  size : Nat
deriving DecidableEq, Inhabited

namespace LineIndex

/-- The offsets just behind each newline, for a text that starts at `offset`. -/
def startsAfter (offset : Nat) : List Char → List Nat
  | [] => []
  | c :: cs =>
    let next := offset + c.utf8Size
    if c = '\n' then next :: startsAfter next cs else startsAfter next cs

/-- The index of a text. -/
def ofText (text : String) : LineIndex :=
  ⟨0 :: startsAfter 0 text.toList, byteLength text.toList⟩

/-- The number of lines, the last of which may be empty. -/
def lineCount (index : LineIndex) : Nat := index.starts.length

/-- The one place that is left of `size` places from `base` on, when the half that cannot hold the
last start up to the offset is given up again and again. -/
def halve (starts : List Nat) (offset base size : Nat) : Nat :=
  if size ≤ 1 then base
  else
    let middle := base + size / 2
    halve starts offset (if offset < starts.getD middle 0 then base else middle) (size - size / 2)
termination_by size
decreasing_by omega

/-- How many starts an ascending list has up to an offset, found by halving. -/
def countUpTo (starts : List Nat) (offset : Nat) : Nat :=
  let place := halve starts offset 0 starts.length
  match starts[place]? with
  | none => place
  | some start => if start ≤ offset then place + 1 else place

/-- Where an offset stands among the starts of lines. -/
def search (index : LineIndex) (offset : Nat) : Sought :=
  let place := halve index.starts offset 0 index.starts.length
  match index.starts[place]? with
  | none => .missing place
  | some start =>
    if start = offset then .found place
    else .missing (if start < offset then place + 1 else place)

/-- The line that an offset is in. An offset at which no line starts is in the line in front of
the place where its start would be put in. -/
def lineOf (index : LineIndex) (offset : Nat) : Nat :=
  match index.search offset with
  | .found line => line
  | .missing next => next - 1

/-- The position of an offset; an offset past the end is taken as the end. -/
def position (index : LineIndex) (offset : Nat) : Position :=
  let offset := min offset index.size
  let line := index.lineOf offset
  ⟨line, offset - index.starts.getD line 0⟩

@[simp] theorem starts_ofText (text : String) :
    (ofText text).starts = 0 :: startsAfter 0 text.toList := rfl

end LineIndex
end Bindery
