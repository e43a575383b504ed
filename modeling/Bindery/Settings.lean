import Bindery.Export.Dump
import Bindery.Json.Reader

/-!
# Settings

What a run can be told besides the files it works on. Settings are written as a JSON object
in which every field may be missing, or as an array of the fields in order. Anything that is
not understood makes them invalid as a whole.

## Main definitions

* `Settings`: the fields.
* `Settings.policy`: the export policy that the fields ask for.
* `Settings.parse`: settings from a text.
-/
namespace Bindery

/-- What a run can be told. -/
structure Settings where
  /-- The classes to export, if not by other rules. -/
  classes : List String := []
  /-- The module name, if it is not that of a file. -/
  moduleName : Option String := none
  /-- Export everything that is public. -/
  exportAll : Bool := false
  /-- Write the export model and not the module. -/
  dump : Bool := false
  dumpFormat : DumpFormat := .json
  /-- Nothing may be left out. -/
  strict : Bool := false
  /-- Flags for reading headers. -/
  flags : List String := []
  /-- A banner in place of the usual one. -/
  header : Option String := none
  /-- Further headers to include. -/
  includes : List String := []
deriving DecidableEq, Inhabited

/-- The format with a name, given as a text or as an object with that one name. -/
def DumpFormat.ofJson? : Json → Option DumpFormat
  | .string "json" | .object [("json", .null)] => some .json
  | .string "yaml" | .object [("yaml", .null)] => some .yaml
  | _ => none

namespace Settings

/-- The export policy that the fields ask for. -/
def policy (s : Settings) : ExportPolicy := .ofOptions s.classes s.exportAll

/-- The fields in order, and how each is set. -/
def setters : List (String × (Json → Settings → Option Settings)) :=
  [("classes", fun j s => j.asTexts?.map fun v => { s with classes := v }),
   ("module_name", fun j s => j.asOptionalText?.map fun v => { s with moduleName := v }),
   ("export_all", fun j s => j.asBool?.map fun v => { s with exportAll := v }),
   ("dump", fun j s => j.asBool?.map fun v => { s with dump := v }),
   ("dump_format", fun j s => (DumpFormat.ofJson? j).map fun v => { s with dumpFormat := v }),
   ("strict", fun j s => j.asBool?.map fun v => { s with strict := v }),
   ("flags", fun j s => j.asTexts?.map fun v => { s with flags := v }),
   ("header", fun j s => j.asOptionalText?.map fun v => { s with header := v }),
   ("includes", fun j s => j.asTexts?.map fun v => { s with includes := v })]

/-- Set fields by name. A name that is not known, or that comes twice, is an error. -/
def ofMembers? (seen : List String) (s : Settings) : List (String × Json) → Option Settings
  | [] => some s
  | (name, value) :: rest =>
    if seen.contains name then none
    else do
      let (_, set) ← setters.find? (·.1 = name)
      ofMembers? (name :: seen) (← set value s) rest

/-- Set fields in order; those behind the last value keep their defaults. -/
def ofItems? : List (Json → Settings → Option Settings) → Settings → List Json → Option Settings
  | _, s, [] => some s
  | [], _, _ :: _ => none
  | set :: sets, s, value :: values => do ofItems? sets (← set value s) values

/-- The settings that a value holds. -/
def ofJson? : Json → Option Settings
  | .object members => ofMembers? [] {} members
  | .array items => ofItems? (setters.map (·.2)) {} items
  | _ => none

/-- The settings that a text holds, if it is valid. -/
def parse (text : String) : Option Settings := (Json.parse text).bind ofJson?

/-- Settings as a value. -/
def toJson (s : Settings) : Json :=
  .object [("classes", .strings s.classes), ("module_name", .text? s.moduleName),
    ("export_all", .bool s.exportAll), ("dump", .bool s.dump),
    ("dump_format", .string s.dumpFormat.text), ("strict", .bool s.strict),
    ("flags", .strings s.flags), ("header", .text? s.header), ("includes", .strings s.includes)]

end Settings
end Bindery
