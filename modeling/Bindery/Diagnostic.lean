import Bindery.Path
import Bindery.Position

/-!
# Findings and where they were made

Reading a header collects findings that do not stop the work, such as a directive that was
ignored or a declaration that cannot be bound. Faults stop the work; they carry the place of
the offending text when it is known.

## Main definitions

* `Location`: a file and a position in it.
* `Diagnostic`: a finding with its severity, code and location.
* `Located`: a fault with an optional location.
-/
namespace Bindery

/-- A position in a file. -/
structure Location where
  file : String
  position : Position
deriving DecidableEq, Inhabited

/-- A location as compilers report it. -/
def Location.text (l : Location) : String := l.file ++ ":" ++ l.position.text

/-- What a report puts in front of its message. -/
def Location.lead : Option Location → String
  | some l => l.text ++ ": "
  | none => ""

/-- How grave a finding is. -/
inductive Severity where
  | error
  | warning
  | info
deriving DecidableEq, Inhabited

/-- The word for a severity. -/
def Severity.text : Severity → String
  | error => "error"
  | warning => "warning"
  | info => "info"

/-- The finding stops the work. -/
def Severity.isError (s : Severity) : Bool := s = .error

/-- The kinds of findings that have a number of their own. -/
inductive DiagnosticCode where
  | ignoredDirective
  | functionMacro
  | unsupportedDeclaration
  | memberTemplate
  | operatorOverload
  | unknownTemplate
  | templateAlias
  | malformedDirective
  | instanceArity
deriving DecidableEq

/-- The number of a finding. -/
def DiagnosticCode.text : DiagnosticCode → String
  | ignoredDirective => "W0101"
  | functionMacro => "W0102"
  | unsupportedDeclaration => "W0201"
  | memberTemplate => "W0202"
  | operatorOverload => "W0203"
  | unknownTemplate => "W0204"
  | templateAlias => "W0205"
  | malformedDirective => "W0301"
  | instanceArity => "W0302"

/-- A finding. -/
structure Diagnostic where
  severity : Severity
  code : Option String
  message : String
  location : Option Location
deriving DecidableEq, Inhabited

namespace Diagnostic

/-- A warning with a number. -/
def warning (code : DiagnosticCode) (message : String) (location : Option Location) : Diagnostic :=
  ⟨.warning, some code.text, message, location⟩

/-- The report of a finding. -/
def text (d : Diagnostic) : String :=
  Location.lead d.location ++ d.severity.text ++
    (match d.code with
      | some code => "[" ++ code ++ "]"
      | none => "") ++ ": " ++ d.message

end Diagnostic

/-- A fault and the place of the offending text. -/
structure Located (α : Type) where
  fault : α
  location : Option Location
deriving DecidableEq

/-- The report of a fault, given the words for it. -/
def Located.report {α : Type} (describe : α → String) (l : Located α) : String :=
  Location.lead l.location ++ describe l.fault

end Bindery
