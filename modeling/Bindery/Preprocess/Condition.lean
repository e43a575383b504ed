import Bindery.Numeral
import Bindery.Preprocess.MacroTable

/-!
# Conditional expressions

The condition of an `#if` is an expression over integers, `defined` tests and names. It is
evaluated while it is read, in signed 64-bit arithmetic that wraps around. A macro whose
replacement is a single integer stands for that integer; every other name stands for zero,
and so does a name followed by a parenthesised group.

Operators are read by precedence, each level as a chain of operands of the next tighter
level. Parentheses start over at the loosest level, so the reader of a whole expression is a
parameter of the reader of operands.

## Main definitions

* `Condition.chain`: a left-associative chain of operands and operators.
* `Condition.expression`: an expression at the loosest level.
* `Condition.evaluate?`: the truth of a condition, none when it is malformed.
-/
namespace Bindery.Condition

/-- A step that reads a value from the front of the pieces, none when it cannot. -/
abbrev Reader := List Piece → Option (Int64 × List Piece)

/-- A binary operator in front of the pieces: what it computes, and the pieces behind it. -/
abbrev Operator := List Piece → Option ((Int64 → Int64 → Int64) × List Piece)

/-- The number for a truth value. -/
def ofBool (b : Bool) : Int64 := if b then 1 else 0

/-- The value of an integer literal. -/
def literal? (text : String) : Option Int64 :=
  let isSuffix (c : Char) : Bool := c = 'u' || c = 'U' || c = 'l' || c = 'L'
  (Numeral.magnitude? (Numeral.dropSuffix isSuffix text.toList)).map Int64.ofInt

/-- Operands joined by operators of one level, taken from the left. -/
def chain (operand : Reader) (operator : Operator) (value : Int64) (rest : List Piece) :
    Option (Int64 × List Piece) :=
  match operator rest with
  | none => some (value, rest)
  | some (f, behind) =>
    match operand behind with
    | none => none
    | some (rhs, rest') =>
      if rest'.length < rest.length then chain operand operator (f value rhs) rest' else none
termination_by rest.length

/-- A first operand, then a chain. -/
def level (operator : Operator) (operand : Reader) : Reader := fun ps =>
  match operand ps with
  | none => none
  | some (value, rest) => chain operand operator value rest

/-- Addition and subtraction. -/
def additive : Operator
  | ⟨.plus, _⟩ :: rest => some ((· + ·), rest)
  | ⟨.minus, _⟩ :: rest => some ((· - ·), rest)
  | _ => none

/-- Order comparisons. -/
def relational : Operator
  | ⟨.lAngle, _⟩ :: ⟨.eq, _⟩ :: rest => some (fun a b => ofBool (a ≤ b), rest)
  | ⟨.lAngle, _⟩ :: rest => some (fun a b => ofBool (a < b), rest)
  | ⟨.rAngle, _⟩ :: ⟨.eq, _⟩ :: rest => some (fun a b => ofBool (b ≤ a), rest)
  | ⟨.rAngle, _⟩ :: rest => some (fun a b => ofBool (b < a), rest)
  | _ => none

/-- Equality and inequality. -/
def equality : Operator
  | ⟨.eq, _⟩ :: ⟨.eq, _⟩ :: rest => some (fun a b => ofBool (a = b), rest)
  | ⟨.bang, _⟩ :: ⟨.eq, _⟩ :: rest => some (fun a b => ofBool (a ≠ b), rest)
  | _ => none

/-- Conjunction. Both sides are read. -/
def conjunction : Operator
  | ⟨.ampAmp, _⟩ :: rest => some (fun a b => ofBool (a ≠ 0 && b ≠ 0), rest)
  | _ => none

/-- Disjunction. Both sides are read. -/
def disjunction : Operator
  | ⟨.pipe, _⟩ :: ⟨.pipe, _⟩ :: rest => some (fun a b => ofBool (a ≠ 0 || b ≠ 0), rest)
  | _ => none

/-- The pieces behind a group whose opener comes first; an unclosed group takes all. -/
def skipGroup (depth : Nat) : List Piece → List Piece
  | [] => []
  | p :: rest =>
    match p.kind with
    | .lParen => skipGroup (depth + 1) rest
    | .rParen => if depth ≤ 1 then rest else skipGroup (depth - 1) rest
    | _ => skipGroup depth rest

/-- A `defined` test, whose keyword has been read. -/
def definedTest (table : MacroTable) : Reader
  | ⟨.lParen, _⟩ :: name :: ⟨.rParen, _⟩ :: rest => some (ofBool (table.contains name.text), rest)
  | ⟨.lParen, _⟩ :: _ => none
  | name :: rest => some (ofBool (table.contains name.text), rest)
  | [] => none

/-- What a name stands for. -/
def nameValue (table : MacroTable) (name : String) : Int64 :=
  if name = "true" then 1
  else if name = "false" then 0
  else match table.find? name with
    | some [⟨.intNumber, digits⟩] => (literal? digits).getD 0
    | _ => 0

/-- An operand without a sign. Parenthesised expressions are read by `inner`. -/
def primary (table : MacroTable) (inner : Reader) : Reader
  | [] => none
  | p :: rest =>
    match p.kind with
    | .intNumber => (literal? p.text).map fun value => (value, rest)
    | .lParen =>
      match inner rest with
      | some (value, ⟨.rParen, _⟩ :: rest) => some (value, rest)
      | _ => none
    | _ =>
      if p.text = "defined" then definedTest table rest
      else if p.kind.isWord then
        match rest with
        | ⟨.lParen, _⟩ :: _ => some (0, skipGroup 0 rest)
        | _ => some (nameValue table p.text, rest)
      else none

/-- An operand with any number of signs and negations in front. -/
def unary (table : MacroTable) (inner : Reader) : Reader
  | ⟨.bang, _⟩ :: rest =>
    (unary table inner rest).map fun (value, rest) => (ofBool (value = 0), rest)
  | ⟨.minus, _⟩ :: rest => (unary table inner rest).map fun (value, rest) => (-value, rest)
  | ps => primary table inner ps

/-- An expression in which parentheses are nested at most `depth` deep. -/
def expression (table : MacroTable) : Nat → Reader
  | 0 => fun _ => none
  | depth + 1 =>
    level disjunction (level conjunction (level equality (level relational (level additive
      (unary table (expression table depth))))))

/-- The truth of a condition, none when the pieces are not exactly one expression. -/
def evaluate? (table : MacroTable) (pieces : List Piece) : Option Bool :=
  match expression table (pieces.length + 1) pieces with
  | some (value, []) => some (value ≠ 0)
  | _ => none

end Bindery.Condition
