import Bindery.Token.Scan

/-!
# Conditional groups

Between an `#if` and its `#endif` at most one branch is read. The open groups form a stack;
each remembers whether the text around it is read, whether its current branch is, and
whether any branch of it has been.

## Main definitions

* `Origin`: the file and offset that a token was read from.
* `Conditional`: an open group.
* `Conditional.isActive`: whether the text inside the innermost group is read.
* `Conditional.push`, `elseIf`, `otherwise`: opening a group and moving to its next branch.
-/
namespace Bindery

/-- Where a token was read: the number of the file and the offset in it. -/
structure Origin where
  file : Nat
  offset : Nat
deriving DecidableEq, Inhabited

/-- An open conditional group. -/
structure Conditional where
  parentActive : Bool
  active : Bool
  taken : Bool
  origin : Origin
deriving DecidableEq, Inhabited

namespace Conditional

/-- The text inside the innermost open group is read. -/
def isActive : List Conditional → Bool
  | [] => true
  | c :: _ => c.active

/-- Open a group whose first branch is read when `value` holds and the text around it is. -/
def push (value : Bool) (origin : Origin) (stack : List Conditional) : List Conditional :=
  let around := isActive stack
  ⟨around, around && value, around && value, origin⟩ :: stack

/-- A further condition is looked at only when no branch has been taken. -/
def wantsCondition (c : Conditional) : Bool := c.parentActive && !c.taken

/-- Move to a branch whose condition is `value`. -/
def elseIf (c : Conditional) (value : Bool) : Conditional :=
  { c with active := value, taken := c.taken || value }

/-- Move to the branch without a condition. -/
def otherwise (c : Conditional) : Conditional :=
  { c with active := c.parentActive && !c.taken, taken := true }

@[simp] theorem isActive_nil : isActive [] = true := rfl

@[simp] theorem isActive_cons (c : Conditional) (cs : List Conditional) :
    isActive (c :: cs) = c.active := rfl

end Conditional
end Bindery
