import Bindery.Render.Emit
import Bindery.Render.Prelude

/-!
# Generated modules

A generated module is one source file: a banner, the headers it needs, support code, a note
for each entity that is left out, and a block with one registration per symbol. A strict
module leaves nothing out; it fails at the first entity that cannot be registered.

## Main definitions

* `ModuleSpec`: the settings of a module.
* `ModuleSource`: the text of a module and what is left out of it.
* `ModuleSpec.render`: the module of a model.
-/
namespace Bindery

/-- The settings of a generated module. -/
structure ModuleSpec where
  name : String
  /-- The headers under their own names, which are included first. -/
  sources : List String := []
  /-- A banner in place of the usual one. -/
  header : Option String := none
  /-- Further headers, bare or with their brackets or quotes. -/
  includes : List String := []
  /-- Nothing may be left out. -/
  strict : Bool := false
deriving DecidableEq, Inhabited

/-- The text of a module, and what is left out of it. -/
structure ModuleSource where
  text : String
  skipped : List Omission
deriving DecidableEq, Inhabited

/-- Nothing is left out. -/
def ModuleSource.isComplete (m : ModuleSource) : Bool := m.skipped.isEmpty

namespace ModuleSpec

/-- The usual banner. -/
def banner : List String :=
  ["////////////////////////////////////////////",
   "// Python bindings auto-generated by pxx. //",
   "////////////////////////////////////////////"]

/-- The standard headers that support code needs. -/
def standardHeaders : List String :=
  ["<array>", "<cmath>", "<functional>", "<limits>", "<stdexcept>", "<string>", "<vector>"]

/-- The headers of the binding library for array families. -/
def bindingHeaders (families : List ArrayFamily) : List String :=
  ["<pybind11/pybind11.h>", "<pybind11/numpy.h>"] ++
    (if families.contains .stdArray || families.contains .stdVector then
      ["<pybind11/stl.h>"] else []) ++
    (if families.contains .eigenMatrix then ["<pybind11/eigen.h>"] else []) ++
    (if families.contains .eigenTensor then ["<pybind11/eigen/tensor.h>"] else [])

/-- An include target with its brackets or quotes. -/
def includeTarget (header : String) : String :=
  match header.toList with
  | '<' :: _ | '"' :: _ => header
  | _ => inQuotes header

/-- The line that includes a header. -/
def includeLine (target : String) : String := "#include " ++ target

/-- The name of a file without its directory. -/
def fileLabel (p : Path) : String := (Path.fileName? p.text).getD p.text

/-- The lines of the banner. -/
def bannerLines (spec : ModuleSpec) : List String := (spec.header.map textLines).getD banner

/-- The lines in front of the support code, behind the banner. -/
def headLines (spec : ModuleSpec) (m : ExportModel) (families : List ArrayFamily) :
    List String :=
  let own := spec.sources.map inQuotes ++ spec.includes.map includeTarget
  (if m.files.isEmpty then []
    else ["// Generated from: " ++ ", ".intercalate (m.files.map fileLabel)]) ++
  [""] ++ standardHeaders.map includeLine ++
  [""] ++ (bindingHeaders families).map includeLine ++
  [""] ++ own.map includeLine ++ (if own.isEmpty then [] else [""]) ++
  ["namespace py = pybind11;", ""]

/-- The support code for array families. -/
def supportLines (families : List ArrayFamily) : List String :=
  Prelude.core ++ [""] ++
    (if families.contains .eigenMatrix then Prelude.matrices ++ [""] else []) ++
    (if families.contains .eigenTensor then Prelude.tensors ++ [""] else [])

/-- The note on an entity that is left out. -/
def skipLine (o : Omission) : String :=
  "// pxx: skipped `" ++ o.entity ++ "`: no marshaling rule for type `" ++ o.type ++ "`"

/-- The notes on what is left out. -/
def skipLines (skipped : List Omission) : List String :=
  skipped.map skipLine ++ if skipped.isEmpty then [] else [""]

/-- The module with a body that has been emitted for a model. -/
def assemble (spec : ModuleSpec) (m : ExportModel) (body : Emitted) : ModuleSource :=
  let front := spec.bannerLines ++ spec.headLines m body.families ++
    supportLines body.families ++ skipLines body.skipped
  ⟨SourceLine.source (front.map SourceLine.flat ++ body.lines.toList), body.skipped⟩

/-- The module of a model. -/
def render (spec : ModuleSpec) (m : ExportModel) : Except Omission ModuleSource := do
  let registry := Registry.ofModel m
  let context : EmitContext := ⟨spec.strict, registry, m.countedClasses registry⟩
  let (_, body) ← (Emitter.ofModel context spec.name m).run {}
  return spec.assemble m body

end ModuleSpec
end Bindery
