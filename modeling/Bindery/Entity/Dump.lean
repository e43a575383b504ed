import Bindery.Entity.Basic
import Bindery.Json.Printer

/-!
# Units as JSON

The form in which entities are dumped. Names and types are written as text, missing parts as
`null`, and the sort of an entity or member stands in front of its fields.

## Main definitions

* `Entity.toJson`, `HeaderUnit.toJson`: the dumped forms.
-/
namespace Bindery

/-- A place in a file. -/
def Location.toJson (l : Location) : Json :=
  .object [("file", .string l.file),
    ("position", .object [("line", .ofNat l.position.line), ("col", .ofNat l.position.col)])]

/-- A finding. -/
def Diagnostic.toJson (d : Diagnostic) : Json :=
  .object [("severity", .string d.severity.text), ("code", .text? d.code),
    ("message", .string d.message), ("location", .ofOption Location.toJson d.location)]

/-- A parameter. -/
def Param.toJson (p : Param) : Json :=
  .object [("name", .text? p.name), ("ty", .string p.type.text), ("default", .text? p.default)]

/-- A signature. -/
def Signature.toJson (s : Signature) : Json :=
  .object [("params", .list Param.toJson s.params), ("ret", .string s.result.text)]

/-- A base class. -/
def BaseRef.toJson (b : BaseRef) : Json :=
  .object [("name", .string b.name.text), ("ty", .string b.type.text),
    ("visibility", .string b.access.text), ("is_virtual", .bool b.isVirtual)]

/-- A constructor. -/
def Constructor.toJson (c : Constructor) : Json :=
  .object [("visibility", .string c.access.text), ("params", .list Param.toJson c.params),
    ("mark", .string c.mark.text), ("location", .ofOption Location.toJson c.location)]

/-- A method. -/
def Method.toJson (m : Method) : Json :=
  .object [("name", .string m.name), ("visibility", .string m.access.text),
    ("signature", m.signature.toJson), ("is_const", .bool m.isConst),
    ("is_static", .bool m.isStatic), ("is_virtual", .bool m.isVirtual),
    ("is_pure", .bool m.isPure), ("mark", .string m.mark.text),
    ("location", .ofOption Location.toJson m.location)]

/-- A field. -/
def Field.toJson (f : Field) : Json :=
  .object [("name", .string f.name), ("visibility", .string f.access.text),
    ("ty", .string f.type.text), ("is_const", .bool f.isConst), ("is_static", .bool f.isStatic),
    ("default", .text? f.default), ("mark", .string f.mark.text),
    ("location", .ofOption Location.toJson f.location)]

/-- A member of a class. -/
def Member.toJson : Member → Json
  | constructor c => c.toJson.tagged "member" "constructor"
  | method m => m.toJson.tagged "member" "method"
  | field f => f.toJson.tagged "member" "field"

/-- A class. -/
def ClassEntity.toJson (c : ClassEntity) : Json :=
  .object [("qname", .string c.name.text), ("kind", .string c.kind.text),
    ("bases", .list BaseRef.toJson c.bases), ("members", .list Member.toJson c.members),
    ("mark", .string c.mark.text), ("location", .ofOption Location.toJson c.location)]

/-- A function. -/
def FunctionEntity.toJson (f : FunctionEntity) : Json :=
  .object [("qname", .string f.name.text), ("signature", f.signature.toJson),
    ("template", .ofOption (fun t => .string t.text) f.template), ("mark", .string f.mark.text),
    ("location", .ofOption Location.toJson f.location)]

/-- What a template parameter stands for. -/
def TemplateParamKind.toJson : TemplateParamKind → Json
  | type => .object [("kind", .string "type")]
  | value t => .object [("kind", .string "value"), ("type", .string t.text)]
  | template => .object [("kind", .string "template")]

/-- A template parameter. Packs are never taken up. -/
def TemplateParam.toJson (p : TemplateParam) : Json :=
  .object [("name", .string p.name), ("kind", p.kind.toJson),
    ("default", .ofOption (fun a => .string a.text) p.default), ("is_pack", .bool false)]

/-- The declaration behind a template. A class has a kind of its own behind the tag. -/
def Concrete.toJson : Concrete → Json
  | ofClass c => c.toJson.tagged "kind" "class"
  | ofFunction f => f.toJson.tagged "kind" "function"

/-- An instantiation. -/
def Instantiation.toJson (i : Instantiation) : Json :=
  .object [("export_name", .string i.exportName),
    ("args", .list (fun a => .string a.text) i.args),
    ("bindings", .object (i.bindings.entries.map fun (k, a) => (k, .string a.text))),
    ("specificity", .string i.specificity.text), ("evidence", .string i.provenance.text),
    ("mark", .string i.mark.text), ("native", .string i.native), ("entity", i.entity.toJson)]

/-- A template. -/
def TemplateEntity.toJson (t : TemplateEntity) : Json :=
  .object [("qname", .string t.name.text), ("params", .list TemplateParam.toJson t.params),
    ("pattern", t.pattern.toJson),
    ("instantiations", .list Instantiation.toJson t.instantiations),
    ("mark", .string t.mark.text), ("location", .ofOption Location.toJson t.location)]

/-- An entity. -/
def Entity.toJson : Entity → Json
  | ofClass c => c.toJson.tagged "entity" "class"
  | ofFunction f => f.toJson.tagged "entity" "function"
  | ofTemplate t => t.toJson.tagged "entity" "template"

/-- A unit. -/
def HeaderUnit.toJson (u : HeaderUnit) : Json :=
  .object [("files", .list (fun p => .string p.text) u.files),
    ("system_includes", .strings u.systemIncludes), ("entities", .list Entity.toJson u.entities),
    ("diagnostics", .list Diagnostic.toJson u.diagnostics)]

end Bindery
