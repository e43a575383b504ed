/-!
# JSON values

Dumps are written as JSON and settings are read from it. The members of an object keep the
order in which they are written, and a name may occur more than once: what that means is
for the reader of the object to say. A number is kept as the literal that denotes it.

## Main definitions

* `Json`: a value.
* `Json.ofNat`, `Json.ofOption`, `Json.strings`: common forms.
* `Json.asBool?`, `Json.asText?`, `Json.asTexts?`: what a value holds.
-/
namespace Bindery

/-- A JSON value. -/
inductive Json where
  | null
  | bool (b : Bool)
  | number (literal : String)
  | string (s : String)
  | array (items : List Json)
  | object (members : List (String × Json))
deriving Inhabited

namespace Json

/-- A natural number. -/
def ofNat (n : Nat) : Json := number (toString n)

/-- A value that may be missing. -/
def ofOption {α : Type} (f : α → Json) : Option α → Json
  | some a => f a
  | none => null

/-- A text that may be missing. -/
def text? : Option String → Json := ofOption string

/-- A list of texts. -/
def strings (xs : List String) : Json := array (xs.map string)

/-- A list of values. -/
def list {α : Type} (f : α → Json) (xs : List α) : Json := array (xs.map f)

/-- The value with a member in front, if it is an object. -/
def tagged (name tag : String) : Json → Json
  | object members => object ((name, string tag) :: members)
  | j => j

/-- The value as a truth value. -/
def asBool? : Json → Option Bool
  | bool b => some b
  | _ => none

/-- The value as a text. -/
def asText? : Json → Option String
  | string s => some s
  | _ => none

/-- The value as a list of texts. -/
def asTexts? : Json → Option (List String)
  | array items => items.mapM asText?
  | _ => none

/-- The value as a text that may be missing. -/
def asOptionalText? : Json → Option (Option String)
  | null => some none
  | string s => some (some s)
  | _ => none

end Json
end Bindery
