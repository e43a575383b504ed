import Bindery.Render.Emit

/-!
# Parts of a generated module

The body of a generated module as a list of parts. A part is scaffolding, or it is about one
subject of the model, which is registered or left out because one of its types cannot cross
the boundary. What a module needs of array families is known part by part; types that were
looked at before a subject was left out count too. Parts know nothing of strictness, nor of what
is emitted in front of them.

## Main definitions

* `Subject`: what a part is about.
* `Part`: scaffolding, or a subject that is registered or left out.
* `ExportedClass.parts`, `ExportedTemplate.parts`, `ExportModel.parts`: the parts of a model.
-/
namespace Bindery

/-- What a part of a module is about. -/
inductive Subject where
  | constructor (native : String)
  | method (native name : String)
  | field (native name : String)
  | function (host : String)
  | entryPoint (name : String)
deriving DecidableEq, Inhabited

/-- A part of the body of a module. -/
inductive Part where
  | scaffold (lines : List SourceLine)
  | entry (subject : Subject) (families : List ArrayFamily)
      (result : Except Omission (List SourceLine))
deriving Inhabited

namespace Part

/-- The part one level deeper. -/
def indent : Part → Part
  | scaffold lines => scaffold (lines.map SourceLine.indent)
  | entry subject families result =>
    entry subject families (result.map fun lines => lines.map SourceLine.indent)

/-- A line of scaffolding. -/
def line (text : String) : Part := scaffold [.flat text]

/-- An empty line. -/
def blank : Part := scaffold [.blank]

/-- Parts inside a block. -/
def block (header : String) (body : List Part) : List Part :=
  scaffold [.opening header] :: body.map indent ++ [scaffold [.closing ""]]

/-- The lines that a part adds. -/
def lines : Part → List SourceLine
  | scaffold ls => ls
  | entry _ _ (.ok ls) => ls
  | entry _ _ (.error _) => []

/-- The array families that a part has seen. -/
def families : Part → List ArrayFamily
  | scaffold _ => []
  | entry _ fs _ => fs

/-- What a part leaves out. -/
def omission? : Part → Option Omission
  | entry _ _ (.error o) => some o
  | _ => none

theorem lines_indent (p : Part) : p.indent.lines = p.lines.map SourceLine.indent := by
  rcases p with lines | ⟨subject, families, omission | lines⟩ <;> rfl

theorem families_indent (p : Part) : p.indent.families = p.families := by
  rcases p with lines | ⟨subject, families, result⟩ <;> rfl

theorem omission?_indent (p : Part) : p.indent.omission? = p.omission? := by
  rcases p with lines | ⟨subject, families, omission | lines⟩ <;> rfl

theorem lines_block (header : String) (body : List Part) :
    (block header body).flatMap lines = SourceLine.block header (body.flatMap lines) "" := by
  simp only [block, SourceLine.block, List.flatMap_append, List.flatMap_cons, List.flatMap_map,
    List.map_flatMap, lines_indent]
  simp [lines]

theorem families_block (header : String) (body : List Part) :
    (block header body).flatMap families = body.flatMap families := by
  simp only [block, List.flatMap_append, List.flatMap_cons, List.flatMap_map, families_indent]
  exact List.append_nil _

theorem omissions_block (header : String) (body : List Part) :
    (block header body).filterMap omission? = body.filterMap omission? := by
  simp only [block, List.filterMap_append, List.filterMap_cons, List.filterMap_map,
    Function.comp_def, omission?_indent]
  exact List.append_nil _

/-- The array families of types up to the first that cannot cross. -/
def seenFamilies : List (Except MarshalFault NativeType) → List ArrayFamily
  | .ok t :: rest => t.arrayFamily?.toList ++ seenFamilies rest
  | _ => []

/-- The part of a subject whose types are looked at in order. -/
def ofCode (subject : Subject) (entity : String) (types : List (Except MarshalFault NativeType))
    (code : Except MarshalFault (List SourceLine)) : Part :=
  entry subject (seenFamilies types) (code.mapError fun
    | .unsupported type => ⟨entity, type⟩)

/-- The part of a subject that is registered by a line. -/
def ofText (subject : Subject) (entity : String) (types : List (Except MarshalFault NativeType))
    (text : Except MarshalFault String) : Part :=
  ofCode subject entity types (text.map fun text => [.flat text])

/-- The meanings of the types of parameters. -/
def paramTypes (r : Registry) (params : List Param) : List (Except MarshalFault NativeType) :=
  params.map fun p => r.valueType p.type

/-- The meanings of the types of a signature. -/
def signatureTypes (r : Registry) (s : Signature) : List (Except MarshalFault NativeType) :=
  paramTypes r s.params ++ [r.resultType s.result]

end Part

/-! ## Signatures -/

namespace ParamCode

/-- The parameter at a place of a signature. -/
def ofParam (r : Registry) (place : Nat) (p : Param) : Except MarshalFault ParamCode := do
  return ofNative place p (← r.valueType p.type)

/-- The parameters of a signature. -/
def ofParams (r : Registry) (params : List Param) : Except MarshalFault (List ParamCode) :=
  params.zipIdx.mapM fun (p, place) => ofParam r place p

end ParamCode

/-- The result of a type. -/
def ResultCode.ofType (r : Registry) (t : TypeExpr) : Except MarshalFault ResultCode := do
  return ofNative t (← r.resultType t)

/-! ## Classes -/

namespace ExportedClass

/-- The part of a constructor. -/
def constructorPart (r : Registry) (c : ExportedClass) (k : Constructor) : Part :=
  .ofText (.constructor c.native) (c.native ++ "::" ++ c.name.name) (Part.paramTypes r k.params) do
    return constructorCode c.native (← ParamCode.ofParams r k.params)

/-- The part of the constructor that is there without being declared. -/
def defaultConstructorPart (c : ExportedClass) : Part :=
  .entry (.constructor c.native) [] (.ok [.flat defaultConstructorCode])

/-- The part of a method. -/
def methodPart (r : Registry) (c : ExportedClass) (m : Method) : Part :=
  .ofText (.method c.native m.name) (c.native ++ "::" ++ m.name)
      (Part.signatureTypes r m.signature) do
    let ps ← ParamCode.ofParams r m.signature.params
    let result ← ResultCode.ofType r m.signature.result
    return methodCode c.native m ps result

/-- The part of a field. -/
def fieldPart (r : Registry) (c : ExportedClass) (f : Field) : Part :=
  .ofText (.field c.native f.name) (c.native ++ "::" ++ f.name) [r.valueType f.type] do
    return fieldCode c.native f (← r.valueType f.type)

/-- The parts of constructors; an abstract class has none. -/
def constructorParts (r : Registry) (c : ExportedClass) : List Part :=
  if c.isAbstract then []
  else c.constructors.map (c.constructorPart r) ++
    if c.defaultConstructor then [c.defaultConstructorPart] else []

/-- The parts of a class under a host name. `shared` are the classes that are held through
counted pointers. -/
def parts (r : Registry) (shared : List String) (host : String) (c : ExportedClass) :
    List Part :=
  Part.block "" (.line (c.headCode shared host) :: c.constructorParts r ++
    (c.methods.flatMap fun g => g.overloads.map (c.methodPart r)) ++
    c.fields.map (c.fieldPart r))

end ExportedClass

/-! ## Functions and templates -/

/-- The part of a function under a host name; `callee` is what it calls. -/
def FunctionEntity.part (r : Registry) (host callee : String) (f : FunctionEntity) : Part :=
  .ofText (.function host) f.name.text (Part.signatureTypes r f.signature) do
    let ps ← ParamCode.ofParams r f.signature.params
    let result ← ResultCode.ofType r f.signature.result
    return FunctionEntity.code host callee ps result

/-- The lines of an entry of a catalogue. -/
def CatalogueEntry.lines (group : List ExportedInstantiation) (e : CatalogueEntry) :
    List SourceLine :=
  SourceLine.block (e.headCode group) (e.signatures.map fun s => .flat s.code) "\x7d,"

/-- The lines of a catalogue and of the entry point that uses it. -/
def Catalogue.lines (group : List ExportedInstantiation) (c : Catalogue) : List SourceLine :=
  .blank :: SourceLine.block ""
    (SourceLine.block c.headCode (c.entries.flatMap (·.lines group)) "\x7d;" ++
      [.flat c.entryPointCode]) ""

namespace ExportedTemplate

/-- The parts of an instantiation. -/
def instantiationParts (r : Registry) (shared : List String) (isShared : Bool)
    (i : ExportedInstantiation) : List Part :=
  let host := i.hostName isShared
  match i.item with
  | .ofClass c => .blank :: c.parts r shared host
  | .ofFunction f => (if isShared then [] else [.blank]) ++ [f.part r host i.native]

/-- The part of an entry point that several instantiations share. -/
def entryPointPart (r : Registry) (t : ExportedTemplate) (exportName : String)
    (group : List ExportedInstantiation) : Part :=
  .ofCode (.entryPoint exportName) exportName [] do
    return (← t.catalogue r exportName).lines group

/-- The parts of a template. -/
def parts (r : Registry) (shared : List String) (t : ExportedTemplate) : List Part :=
  t.entryPoints.entries.flatMap fun (name, group) =>
    let isShared := 1 < group.length
    group.flatMap (instantiationParts r shared isShared) ++
      if isShared then [t.entryPointPart r name group] else []

end ExportedTemplate

/-! ## Models -/

/-- The parts of a module under a name. -/
def ExportModel.parts (name : String) (m : ExportModel) : List Part :=
  let r := Registry.ofModel m
  let shared := m.countedClasses r
  Part.block ("PYBIND11_MODULE(" ++ name ++ ", m)")
    (.line "pxx_runtime::register_errors(m);" ::
      (m.classes.flatMap fun c => .blank :: c.parts r shared c.exportName) ++
      (if m.functions.isEmpty then [] else [.blank]) ++
      (m.functions.flatMap fun f => f.overloads.map fun o =>
        o.part r f.exportName o.name.text) ++
      m.templates.flatMap (·.parts r shared))

end Bindery
