import Bindery.Entity.Dump
import Bindery.Export.Surface

/-!
# Export models as JSON

The form in which units and export models are dumped for inspection. Only JSON is
available.

## Main definitions

* `ExportModel.toJson`: the dumped form of a model.
* `DumpFormat`, `dump`: the text of a dump.
-/
namespace Bindery

/-- A policy. -/
def ExportPolicy.toJson : ExportPolicy → Json
  | explicit classes => .object [("policy", .string "explicit"), ("classes", .strings classes)]
  | defaultPublic => .object [("policy", .string "default_public")]
  | annotated => .object [("policy", .string "annotated")]

/-- The overloads of a method. -/
def MethodGroup.toJson (g : MethodGroup) : Json :=
  .object [("name", .string g.name), ("overloads", .list Method.toJson g.overloads)]

/-- A class. -/
def ExportedClass.toJson (c : ExportedClass) : Json :=
  .object [("qname", .string c.name.text), ("export_name", .string c.exportName),
    ("native", .string c.native), ("kind", .string c.kind.text), ("bases", .strings c.bases),
    ("constructors", .list Constructor.toJson c.constructors),
    ("default_constructor", .bool c.defaultConstructor),
    ("methods", .list MethodGroup.toJson c.methods), ("fields", .list Field.toJson c.fields),
    ("is_abstract", .bool c.isAbstract), ("location", .ofOption Location.toJson c.location)]

/-- The overloads of a function. -/
def ExportedFunction.toJson (f : ExportedFunction) : Json :=
  .object [("export_name", .string f.exportName),
    ("overloads", .list FunctionEntity.toJson f.overloads)]

/-- What an instantiation offers. A class has a kind of its own behind the tag. -/
def ExportedItem.toJson : ExportedItem → Json
  | ofClass c => c.toJson.tagged "kind" "class"
  | ofFunction f => f.toJson.tagged "kind" "function"

/-- An instantiation. -/
def ExportedInstantiation.toJson (i : ExportedInstantiation) : Json :=
  .object [("export_name", .string i.exportName), ("native", .string i.native),
    ("args", .list (fun a => .string a.text) i.args),
    ("specificity", .string i.specificity.text), ("item", i.item.toJson)]

/-- A template. -/
def ExportedTemplate.toJson (t : ExportedTemplate) : Json :=
  .object [("qname", .string t.name.text), ("is_class", .bool t.isClass),
    ("instantiations", .list ExportedInstantiation.toJson t.instantiations)]

/-- A model. -/
def ExportModel.toJson (m : ExportModel) : Json :=
  .object [("policy", m.policy.toJson), ("files", .list (fun p => .string p.text) m.files),
    ("classes", .list ExportedClass.toJson m.classes),
    ("functions", .list ExportedFunction.toJson m.functions),
    ("templates", .list ExportedTemplate.toJson m.templates)]

/-- The formats that a dump can be asked for. -/
inductive DumpFormat where
  | json
  | yaml
deriving DecidableEq, Inhabited

/-- The word for a format. -/
def DumpFormat.text : DumpFormat → String
  | json => "json"
  | yaml => "yaml"

/-- Why there is no dump. -/
inductive DumpFault where
  | yamlUnavailable
deriving DecidableEq, Inhabited

/-- The words for a fault. -/
def DumpFault.message : DumpFault → String
  | yamlUnavailable =>
    "cannot serialize the export model: YAML output requires the 'yaml' feature"

/-- The text of a dump. -/
def dump (j : Json) : DumpFormat → Except DumpFault String
  | .json => .ok j.pretty
  | .yaml => .error .yamlUnavailable

end Bindery
