import Bindery.Entity.Basic

/-!
# Export models

The part of a unit that is offered to the host: classes with the members they show, free
functions by name, and templates with the instantiations that are offered. Overloads of one
name are grouped.

## Main definitions

* `ExportPolicy`: which entities are offered.
* `ExportedClass`, `ExportedFunction`, `ExportedTemplate`: what is offered.
* `ExportModel`: all of it.
-/
namespace Bindery

/-- Which entities of a unit are offered. -/
inductive ExportPolicy where
  /-- The classes with these names, and every free function and template. -/
  | explicit (classes : List String)
  /-- Every class that shows something, and every function and template. -/
  | defaultPublic
  /-- What is marked for export. -/
  | annotated
deriving DecidableEq, Inhabited

namespace ExportPolicy

/-- The policy for a list of classes and the wish to export all; the list goes first. -/
def ofOptions (classes : List String) (exportAll : Bool) : ExportPolicy :=
  if !classes.isEmpty then explicit classes
  else if exportAll then defaultPublic
  else annotated

/-- A function, template or instantiation with the mark is offered. -/
def admits : ExportPolicy → ExportMark → Bool
  | annotated, mark => mark = .exported
  | _, mark => mark ≠ .hidden

end ExportPolicy

/-- All overloads of a method. -/
structure MethodGroup where
  name : String
  overloads : List Method
deriving DecidableEq, Inhabited

/-- A class as the host sees it. -/
structure ExportedClass where
  name : QualifiedName
  exportName : String
  /-- The class as the header's own language spells it. -/
  native : String
  kind : ClassKind
  /-- The bases that are offered themselves. -/
  bases : List String
  constructors : List Constructor
  /-- The class declares no constructor and can be made without arguments. -/
  defaultConstructor : Bool
  methods : List MethodGroup
  fields : List Field
  isAbstract : Bool
  location : Option Location
deriving DecidableEq, Inhabited

namespace ExportedClass

/-- The overloads of a method. -/
def method? (c : ExportedClass) (name : String) : Option MethodGroup :=
  c.methods.find? (·.name = name)

/-- The field with a name. -/
def field? (c : ExportedClass) (name : String) : Option Field := c.fields.find? (·.name = name)

/-- The names of methods, then of fields. -/
def memberNames (c : ExportedClass) : List String :=
  c.methods.map (·.name) ++ c.fields.map (·.name)

end ExportedClass

/-- All overloads of a free function. -/
structure ExportedFunction where
  exportName : String
  overloads : List FunctionEntity
deriving DecidableEq, Inhabited

/-- What an instantiation offers. -/
inductive ExportedItem where
  | ofClass (c : ExportedClass)
  | ofFunction (f : FunctionEntity)
deriving DecidableEq, Inhabited

/-- The item as a class. -/
def ExportedItem.class? : ExportedItem → Option ExportedClass
  | ofClass c => some c
  | ofFunction _ => none

/-- An instantiation as the host sees it. -/
structure ExportedInstantiation where
  exportName : String
  native : String
  args : List TemplateArg
  specificity : Specificity
  item : ExportedItem
deriving DecidableEq, Inhabited

/-- A template as the host sees it. -/
structure ExportedTemplate where
  name : QualifiedName
  isClass : Bool
  /-- The instantiations that are offered, the most specific first. -/
  instantiations : List ExportedInstantiation
deriving DecidableEq, Inhabited

/-- The instantiations by the name they are called by. -/
def ExportedTemplate.entryPoints (t : ExportedTemplate) :
    OrderedMap String (List ExportedInstantiation) :=
  .groupBy (·.exportName) t.instantiations

/-- Everything that is offered to the host. -/
structure ExportModel where
  policy : ExportPolicy
  files : List Path
  classes : List ExportedClass
  functions : List ExportedFunction
  templates : List ExportedTemplate
  diagnostics : List Diagnostic
deriving Inhabited

namespace ExportModel

/-- Nothing is offered. -/
def isEmpty (m : ExportModel) : Bool :=
  m.classes.isEmpty && m.functions.isEmpty && m.templates.isEmpty

/-- The class with an export name. -/
def class? (m : ExportModel) (exportName : String) : Option ExportedClass :=
  m.classes.find? (·.exportName = exportName)

/-- The function with an export name. -/
def function? (m : ExportModel) (exportName : String) : Option ExportedFunction :=
  m.functions.find? (·.exportName = exportName)

/-- The first template that goes by a simple or partly qualified name. -/
def template? (m : ExportModel) (query : String) : Option ExportedTemplate :=
  m.templates.find? (·.name.isNamedBy query)

/-- Every class, those of instantiations last. -/
def allClasses (m : ExportModel) : List ExportedClass :=
  m.classes ++ m.templates.flatMap fun t => t.instantiations.filterMap (·.item.class?)

end ExportModel
end Bindery
