import Bindery.Native.Type

/-!
# Handles

What the host holds of a native object. A handle names a wrapper; copies of a handle name
the same wrapper. Class and ownership of a wrapper never change, so a handle carries them
along. Whether the object still lives is a matter of the store that keeps the wrappers.

## Main definitions

* `Handle`: a reference of the host to a wrapper.
-/
namespace Bindery

/-- A reference of the host to a wrapper. -/
structure Handle where
  /-- The number of the wrapper. -/
  wrapper : Nat
  className : String
  ownership : Ownership
deriving DecidableEq, Inhabited

end Bindery
