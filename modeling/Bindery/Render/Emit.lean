import Bindery.Render.Call
import Bindery.Render.Line

/-!
# Emitting the body of a module

The body of a generated module is emitted entity by entity. An entity with a type that cannot cross
the boundary is left out and reported, and in a strict run stops the emission. The array families
that types belong to are collected on the way, those of an entity up to the type it is left out for.

## Main definitions

* `Omission`: an entity that is left out.
* `Emitted`: what has been emitted.
* `Emitter`: a step of emission, which a strict run may stop.
* `Emitter.ofModel`: the body of the module of a model.
-/
namespace Bindery

/-- An entity that is left out, and the type that cannot cross the boundary. -/
structure Omission where
  entity : String
  type : String
deriving DecidableEq, Inhabited

/-- The words for an omission that is not allowed. -/
def Omission.message (o : Omission) : String :=
  "cannot render `" ++ o.entity ++ "`: no marshaling rule for type `" ++ o.type ++ "`"

/-! ## Spelling -/

/-- The array family of a type. -/
def NativeType.arrayFamily? : NativeType → Option ArrayFamily
  | .array a => some a.family
  | _ => none

namespace ExportedClass

/-- The definition of a class under a host name. -/
def headCode (c : ExportedClass) (shared : List String) (host : String) : String :=
  let holder :=
    if shared.contains c.native then ["std::shared_ptr<" ++ c.native ++ ">"] else []
  "py::class_<" ++ ", ".intercalate (c.native :: c.bases ++ holder) ++ "> cls(m, " ++
    inQuotes host ++ ");"

/-- The code of a constructor. -/
def constructorCode (owner : String) (ps : List ParamCode) : String :=
  "cls.def(py::init([](" ++ ParamCode.declarations ps ++ ") " ++
    inBraces ("return new " ++ owner ++ "(" ++ ParamCode.arguments ps ++ ");") ++ ")" ++
    ParamCode.annotations ps ++ ");"

/-- The code of the constructor that is there without being declared. -/
def defaultConstructorCode : String := "cls.def(py::init<>());"

/-- The code of a method. -/
def methodCode (owner : String) (m : Method) (ps : List ParamCode) (result : ResultCode) :
    String :=
  let extra := ParamCode.annotations ps ++ result.policy "reference_internal"
  let body (before : String) :=
    inBraces (result.statement (before ++ m.name ++ "(" ++ ParamCode.arguments ps ++ ")"))
  if m.isStatic then
    "cls.def_static(" ++ inQuotes m.name ++ ", [](" ++ ParamCode.declarations ps ++ ")" ++
      result.arrow ++ " " ++ body (owner ++ "::") ++ extra ++ ");"
  else
    let receiver := (if m.isConst then "const " else "") ++ owner ++ " &self"
    "cls.def(" ++ inQuotes m.name ++ ", [](" ++ ParamCode.declarationsAfter receiver ps ++ ")" ++
      result.arrow ++ " " ++ body "self." ++ extra ++ ");"

/-- The type that the getter of a field returns, and the policy for it. -/
def getterType (t : TypeExpr) : NativeType → String × String
  | .object _ .ownedByWrapper =>
    ("const " ++ t.denoted.text ++ " &", ", py::return_value_policy::reference_internal")
  | .object _ .borrowed => (t.text, ", py::return_value_policy::reference")
  | _ => (t.denoted.text, "")

/-- The code of a field. -/
def fieldCode (owner : String) (f : Field) (type : NativeType) : String :=
  let (result, policy) := getterType f.type type
  let (declared, passed) := ParamCode.spell f.type type "value"
  let (suffix, place, reader, writer) :=
    if f.isStatic then
      ("_static", owner ++ "::" ++ f.name, "py::object", "py::object")
    else ("", "self." ++ f.name, "const " ++ owner ++ " &self", owner ++ " &self")
  let getter := "[](" ++ reader ++ ") -> " ++ result ++ " " ++
    inBraces ("return " ++ place ++ ";")
  let setter := "[](" ++ writer ++ ", " ++ declared ++ ") " ++
    inBraces (place ++ " = " ++ passed ++ ";")
  if f.isConst then
    "cls.def_property_readonly" ++ suffix ++ "(" ++ inQuotes f.name ++ ", " ++ getter ++ policy ++
      ");"
  else
    "cls.def_property" ++ suffix ++ "(" ++ inQuotes f.name ++ ", " ++ getter ++ ", " ++ setter ++
      policy ++ ");"

end ExportedClass

/-- The code of a function under a host name; `callee` is what it calls. -/
def FunctionEntity.code (host callee : String) (ps : List ParamCode) (result : ResultCode) :
    String :=
  "m.def(" ++ inQuotes host ++ ", [](" ++ ParamCode.declarations ps ++ ")" ++
    result.arrow ++ " " ++
    inBraces (result.statement (callee ++ "(" ++ ParamCode.arguments ps ++ ")")) ++
    ParamCode.annotations ps ++ result.policy "reference" ++ ");"

/-- What opens the entry of an instantiation in a catalogue. -/
def CatalogueEntry.headCode (group : List ExportedInstantiation) (e : CatalogueEntry) : String :=
  let binding := ((group.find? (·.native = e.native)).map (·.hostName true)).getD e.native
  "\x7b" ++ inQuotes e.native ++ ", " ++ inQuotes binding ++ ", " ++ e.specificity.code ++ ","

namespace Catalogue

/-- The variable that holds a catalogue. -/
def variableCode (c : Catalogue) : String := "catalogue_" ++ Text.mangle c.name

/-- What opens the definition of the variable. -/
def headCode (c : Catalogue) : String :=
  "static const pxx_runtime::Catalogue " ++ c.variableCode ++ "\x7b" ++ inQuotes c.name ++ ","

/-- The code of the entry point that uses a catalogue. -/
def entryPointCode (c : Catalogue) : String :=
  "m.def(" ++ inQuotes c.name ++
    ", [m](const py::args &args, const py::kwargs &kwargs) mutable " ++
    inBraces ("return " ++ c.variableCode ++ ".call(m, args, kwargs);") ++ ");"

end Catalogue

/-! ## Emitting -/

/-- What an emission goes by. -/
structure EmitContext where
  /-- Nothing may be left out. -/
  strict : Bool
  registry : Registry
  /-- The classes that are held through counted pointers. -/
  shared : List String

/-- What has been emitted. -/
structure Emitted where
  /-- The depth of nesting of the next line. -/
  depth : Nat := 0
  lines : Array SourceLine := #[]
  families : List ArrayFamily := []
  skipped : List Omission := []

/-- A step of emission. A strict run stops at the first entity that would be left out. -/
abbrev Emitter := StateT Emitted (Except Omission)

namespace Emitter

/-- Write a line. -/
def line (text : String) : Emitter Unit :=
  modify fun e => { e with lines := e.lines.push ⟨e.depth, text⟩ }

/-- Write an empty line. -/
def blank : Emitter Unit := line ""

/-- Write an empty line, unless the condition holds. -/
def blankUnless (condition : Bool) : Emitter Unit := if condition then pure () else blank

/-- Open a block. -/
def opening (header : String) : Emitter Unit := do
  line (SourceLine.opening header).text
  modify fun e => { e with depth := e.depth + 1 }

/-- Close a block, with what follows on its last line. -/
def closing (rest : String) : Emitter Unit := do
  modify fun e => { e with depth := e.depth - 1 }
  line (SourceLine.closing rest).text

/-- Emit inside a block. -/
def block (header : String) (body : Emitter Unit) (rest : String) : Emitter Unit := do
  opening header
  body
  closing rest

/-- Collect the array family of a type. -/
def note (t : NativeType) : Emitter Unit :=
  modify fun e => { e with families := e.families ++ t.arrayFamily?.toList }

variable (c : EmitContext)

/-- Leave an entity out for the spelling of a type. -/
def leaveOut (entity type : String) : Emitter Unit :=
  if c.strict then throw ⟨entity, type⟩
  else modify fun e => { e with skipped := e.skipped ++ [⟨entity, type⟩] }

/-- Go on with the meaning of a type, or leave the entity out that needs it. -/
def meaning (entity : String) (t : TypeExpr) (native : Except MarshalFault NativeType) :
    OptionT Emitter NativeType := do
  match native with
  | .ok native =>
    note native
    return native
  | .error _ =>
    leaveOut c entity t.text
    failure

/-- Parameters in order, up to the first that the entity is left out for. -/
def params (entity : String) (ps : List Param) : OptionT Emitter (List ParamCode) :=
  ps.zipIdx.mapM fun (p, place) => do
    return .ofNative place p (← meaning c entity p.type (c.registry.valueType p.type))

/-- A result, unless the entity is left out for it. -/
def result (entity : String) (t : TypeExpr) : OptionT Emitter ResultCode := do
  return .ofNative t (← meaning c entity t (c.registry.resultType t))

/-- Write the line of an entity, unless the entity has been left out. -/
def entity (code : OptionT Emitter String) : Emitter Unit := do
  if let some text ← code.run then line text

/-! ### Classes -/

/-- Emit a constructor. -/
def constructor (cls : ExportedClass) (k : Constructor) : Emitter Unit := entity do
  return ExportedClass.constructorCode cls.native
    (← params c (cls.native ++ "::" ++ cls.name.name) k.params)

/-- Emit a method. -/
def method (cls : ExportedClass) (m : Method) : Emitter Unit := entity do
  let ps ← params c (cls.native ++ "::" ++ m.name) m.signature.params
  let result ← result c (cls.native ++ "::" ++ m.name) m.signature.result
  return ExportedClass.methodCode cls.native m ps result

/-- Emit a field. -/
def field (cls : ExportedClass) (f : Field) : Emitter Unit := entity do
  return ExportedClass.fieldCode cls.native f
    (← meaning c (cls.native ++ "::" ++ f.name) f.type (c.registry.valueType f.type))

/-- Emit the constructors of a class; an abstract class has none. -/
def constructors (cls : ExportedClass) : Emitter Unit :=
  if cls.isAbstract then pure () else do
    cls.constructors.forM (constructor c cls)
    if cls.defaultConstructor then line ExportedClass.defaultConstructorCode

/-- Emit a class under a host name. -/
def ofClass (host : String) (cls : ExportedClass) : Emitter Unit :=
  block "" (do
    line (cls.headCode c.shared host)
    constructors c cls
    cls.methods.forM fun g => g.overloads.forM (method c cls)
    cls.fields.forM (field c cls)) ""

/-! ### Functions and templates -/

/-- Emit a function under a host name; `callee` is what it calls. -/
def function (host callee : String) (f : FunctionEntity) : Emitter Unit := entity do
  let ps ← params c f.name.text f.signature.params
  let result ← result c f.name.text f.signature.result
  return FunctionEntity.code host callee ps result

/-- Emit a catalogue and the entry point that uses it. -/
def dispatch (group : List ExportedInstantiation) (catalogue : Catalogue) : Emitter Unit := do
  blank
  block "" (do
    block catalogue.headCode (catalogue.entries.forM fun e =>
      block (e.headCode group) (e.signatures.forM fun s => line s.code) "\x7d,") "\x7d;"
    line catalogue.entryPointCode) ""

/-- Emit an instantiation. -/
def instantiation (isShared : Bool) (i : ExportedInstantiation) : Emitter Unit := do
  let host := i.hostName isShared
  match i.item with
  | .ofClass cls =>
    blank
    ofClass c host cls
  | .ofFunction f =>
    blankUnless isShared
    function c host i.native f

/-- Emit the entry point that several instantiations share. -/
def entryPoint (t : ExportedTemplate) (exportName : String)
    (group : List ExportedInstantiation) : Emitter Unit :=
  match t.catalogue c.registry exportName with
  | .ok catalogue => dispatch group catalogue
  | .error (.unsupported type) => leaveOut c exportName type

/-- Emit the instantiations of a template, entry point by entry point. -/
def template (t : ExportedTemplate) : Emitter Unit :=
  t.entryPoints.entries.forM fun (name, group) => do
    let isShared := 1 < group.length
    group.forM (instantiation c isShared)
    if isShared then entryPoint c t name group

/-! ### Models -/

/-- Emit the body of a module. -/
def ofModel (name : String) (m : ExportModel) : Emitter Unit :=
  block ("PYBIND11_MODULE(" ++ name ++ ", m)") (do
    line "pxx_runtime::register_errors(m);"
    m.classes.forM fun cls => do
      blank
      ofClass c cls.exportName cls
    blankUnless m.functions.isEmpty
    m.functions.forM fun f => f.overloads.forM fun o =>
      function c f.exportName o.name.text o
    m.templates.forM (template c)) ""

end Emitter

/-! ## Classes behind counted pointers -/

namespace ExportModel

/-- Every type in the declarations that are offered. -/
def types (m : ExportModel) : List TypeExpr :=
  let ofSignature (s : Signature) := s.params.map (·.type) ++ [s.result]
  (m.allClasses.flatMap fun c =>
    c.fields.map (·.type) ++ c.constructors.flatMap (fun k => k.params.map (·.type)) ++
      c.methods.flatMap fun g => g.overloads.flatMap fun o => ofSignature o.signature) ++
  (m.functions.flatMap fun f => f.overloads.flatMap fun o => ofSignature o.signature) ++
  m.templates.flatMap fun t => t.instantiations.flatMap fun i =>
    match i.item with
    | .ofFunction f => ofSignature f.signature
    | .ofClass _ => []

/-- The classes that are held through counted pointers somewhere. -/
def countedClasses (r : Registry) (m : ExportModel) : List String :=
  m.types.filterMap fun t =>
    match NativeType.classify? r.contains t with
    | some (.object className .shared) => some className
    | _ => none

end ExportModel
end Bindery
