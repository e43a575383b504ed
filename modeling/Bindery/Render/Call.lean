import Bindery.Dispatch.Catalogue

/-!
# Calls in generated source

The spelling of the pieces that registrations are made of: parameters of a trampoline and
the arguments it passes on, its result, and the patterns that a dispatch catalogue matches
calls against.

## Main definitions

* `ParamCode`: a parameter of a trampoline.
* `ResultCode`: how a trampoline hands its result back.
* `ArgPattern.code`, `SignaturePattern.code`: patterns.
-/
namespace Bindery

/-- A text between braces, set off by blanks. -/
def inBraces (text : String) : String := "\x7b " ++ text ++ " \x7d"

/-- A text between double quotes. -/
def inQuotes (text : String) : String := "\"" ++ text ++ "\""

/-! ## Parameters -/

/-- A parameter of a trampoline: how it is declared, what is passed on, and what the host
may call it. -/
structure ParamCode where
  declared : String
  passed : String
  name : Option String
  default : Option String
deriving DecidableEq, Inhabited

namespace ParamCode

/-- A parameter whose value is checked on the way in. -/
def checked (t : TypeExpr) (var : String) : String × String :=
  ("pxx_runtime::Checked<" ++ t.denoted.text ++ "> " ++ var, var ++ ".value")

/-- Declaration and argument of a variable that takes in a value of a type. -/
def spell (t : TypeExpr) (native : NativeType) (var : String) : String × String :=
  match native with
  | .scalar .bool => ("bool " ++ var, var)
  | .scalar _ => checked t var
  | .array a =>
    if a.family = .hostArray then (t.denoted.text ++ " " ++ var, var) else checked t var
  | .text true => ("const char *" ++ var, var)
  | .text false => ("std::string " ++ var, var)
  | .object _ .ownedByWrapper => ("const " ++ t.denoted.text ++ " &" ++ var, var)
  | .object .. => (t.text ++ " " ++ var, var)
  | .void | .hostObject => (t.denoted.text ++ " " ++ var, var)

/-- The parameter at a place of a signature, whose type has a meaning. -/
def ofNative (place : Nat) (p : Param) (native : NativeType) : ParamCode :=
  let (declared, passed) := spell p.type native ("a" ++ toString place)
  ⟨declared, passed, p.name, p.default⟩

/-- The declarations of parameters. -/
def declarations (ps : List ParamCode) : String := ", ".intercalate (ps.map declared)

/-- The declarations of a receiver and parameters. -/
def declarationsAfter (receiver : String) (ps : List ParamCode) : String :=
  ", ".intercalate (receiver :: ps.map declared)

/-- The arguments that are passed on. -/
def arguments (ps : List ParamCode) : String := ", ".intercalate (ps.map passed)

/-- What the host is told about one parameter. -/
def annotation (place : Nat) (p : ParamCode) : String :=
  ", py::arg(" ++ inQuotes (p.name.getD ("arg" ++ toString place)) ++ ")" ++
    match p.default with
    | some value => " = " ++ value
    | none => ""

/-- What the host is told about parameters: nothing, unless one has a name or a default. -/
def annotations (ps : List ParamCode) : String :=
  if ps.all fun p => p.name.isNone && p.default.isNone then ""
  else String.join (ps.zipIdx.map fun (p, i) => annotation i p)

end ParamCode

/-! ## Results -/

/-- How a trampoline hands its result back. -/
structure ResultCode where
  /-- The result type behind its arrow, nothing for `void`. -/
  arrow : String
  isVoid : Bool
  isBorrowed : Bool
deriving DecidableEq, Inhabited

namespace ResultCode

/-- The result of a type that has a meaning. -/
def ofNative (t : TypeExpr) : NativeType → ResultCode
  | .void => ⟨"", true, false⟩
  | .object _ .borrowed => ⟨" -> " ++ t.text, false, true⟩
  | _ => ⟨" -> " ++ t.denoted.text, false, false⟩

/-- The statement that makes a call and hands its result back. -/
def statement (r : ResultCode) (call : String) : String :=
  (if r.isVoid then "" else "return ") ++ call ++ ";"

/-- A policy for borrowed results. -/
def policy (r : ResultCode) (name : String) : String :=
  if r.isBorrowed then ", py::return_value_policy::" ++ name else ""

end ResultCode

/-! ## Patterns -/

/-- The spelling of a specificity. -/
def Specificity.code : Specificity → String
  | full => "pxx_runtime::Specificity::Full"
  | partialMatch => "pxx_runtime::Specificity::Partial"
  | primary => "pxx_runtime::Specificity::Primary"

/-- The spelling of the sort of a scalar. -/
def ScalarKind.code (k : ScalarKind) : String :=
  match k with
  | .bool => "pxx_runtime::Kind::Bool"
  | .char => "pxx_runtime::Kind::Char"
  | _ => if k.isFloat then "pxx_runtime::Kind::Float" else "pxx_runtime::Kind::Integer"

/-- The spelling of a dimension. -/
def Dim.code : Dim → String
  | fixed n => toString n
  | dynamic => "-1"

/-- The spelling of a pattern. -/
def ArgPattern.code : ArgPattern → String
  | scalar kind => "pxx_runtime::Pattern::scalar(" ++ kind.code ++ ")"
  | str => "pxx_runtime::Pattern::string()"
  | object className isNullable =>
    "pxx_runtime::Pattern::object<" ++ className ++ ">(" ++
      (if isNullable then "true" else "false") ++ ")"
  | array element (some dims) =>
    "pxx_runtime::Pattern::array(" ++ element.code ++ ", \x7b" ++
      ", ".intercalate (dims.map Dim.code) ++ "\x7d)"
  | array element none => "pxx_runtime::Pattern::array_any(" ++ element.code ++ ")"
  | any => "pxx_runtime::Pattern::any()"

/-- The spelling of a signature in a catalogue. -/
def SignaturePattern.code (s : SignaturePattern) : String :=
  "pxx_runtime::Signature\x7b\x7b" ++ ", ".intercalate (s.params.map ArgPattern.code) ++ "\x7d, " ++
    toString s.required ++ "\x7d,"

end Bindery
