import Bindery.Export.Surface
import Bindery.Render.Module
import Bindery.Settings
import Bindery.Survey.Walk
import Bindery.WorkingTree

/-!
# Invocations

One run from a header to the text of a module or to a dump of its export model. What is
wrong with the invocation itself is found first: a missing input, a missing directory for
the output, or a module name that is no identifier. The output is written last.

## Main definitions

* `Invocation`: input, output and settings.
* `Environment`: the files of a run.
* `Invocation.validate`: the module name, if nothing is wrong with the invocation.
* `Invocation.run`: what a run produces.
-/
namespace Bindery

/-- What a run is asked to do. -/
structure Invocation where
  input : String
  /-- The file to write; without one the text is only returned. -/
  output : Option String := none
  settings : Settings := {}
deriving DecidableEq, Inhabited

/-- The files of a run. Headers come from the working directory, unless they are held apart
from it. -/
structure Environment where
  tree : WorkingTree
  memory : Option Sources := none

namespace Environment

/-- The headers that can be read. -/
def sources (e : Environment) : Sources := e.memory.getD e.tree.sources

/-- The input is there. -/
def hasInput (e : Environment) (written : String) : Bool :=
  match e.memory with
  | some sources => sources.contains (Path.normalize written)
  | none => e.tree.isFile written

end Environment

/-- What is wrong with an invocation. -/
inductive InvocationFault where
  | missingInput (path : String)
  | missingOutputDirectory (path : String)
  | invalidModuleName (name : String)
  | unwritable (path : String) (reason : PathFault)
deriving DecidableEq, Inhabited

/-- The words for a fault. -/
def InvocationFault.message : InvocationFault → String
  | missingInput path => "input file `" ++ path ++ "` does not exist"
  | missingOutputDirectory path => "output directory `" ++ path ++ "` does not exist"
  | invalidModuleName name => "`" ++ name ++ "` is not a valid module name"
  | unwritable path reason => "cannot write `" ++ path ++ "`: " ++ reason.message

/-- Why a run produces nothing. -/
inductive RunFault where
  | invocation (fault : InvocationFault)
  | unreadable (fault : Located ReadFault)
  | unknownTarget (fault : ExportFault)
  | undumpable (fault : DumpFault)
  | unrenderable (omission : Omission)

/-- The words for a fault. -/
def RunFault.message : RunFault → String
  | invocation fault => fault.message
  | unreadable fault => fault.report ReadFault.message
  | unknownTarget fault => fault.message
  | undumpable fault => fault.message
  | unrenderable omission => omission.message

/-- What a run produces. -/
structure Generated where
  moduleName : String
  /-- The module, or the dump of its export model. -/
  text : String
  skipped : List Omission
  diagnostics : List Diagnostic
  /-- Where the text was written, if anywhere. -/
  written : Option String
deriving Inhabited

namespace Invocation

/-- The module name: the one in the settings, else that of the output file, else that of the
input file. -/
def moduleName (inv : Invocation) : String :=
  match inv.settings.moduleName with
  | some name => name
  | none => (Path.fileStem? (inv.output.getD inv.input)).getD ""

/-- The directory that the output needs, if it does not go to the working directory itself. -/
def outputDirectory? (inv : Invocation) : Option String := do
  let output ← inv.output
  let directory ← Path.parentText? output
  if directory = "" then none else some directory

/-- The module name, if nothing is wrong with the invocation. -/
def validate (e : Environment) (inv : Invocation) : Except InvocationFault String := do
  unless e.hasInput inv.input do throw (.missingInput inv.input)
  if let some directory := inv.outputDirectory? then
    unless e.tree.isDirectory directory do throw (.missingOutputDirectory directory)
  unless Text.isIdentifier inv.moduleName do throw (.invalidModuleName inv.moduleName)
  return inv.moduleName

/-- The settings of the module that a run generates. -/
def moduleSpec (inv : Invocation) (name : String) : ModuleSpec :=
  { name, sources := (Path.fileName? inv.input).toList, header := inv.settings.header
    includes := inv.settings.includes, strict := inv.settings.strict }

/-- The text for a model and what is left out of it. A dump leaves nothing out. -/
def produce (inv : Invocation) (name : String) (m : ExportModel) :
    Except RunFault ModuleSource :=
  if inv.settings.dump then
    ((dump m.toJson inv.settings.dumpFormat).mapError .undumpable).map fun text => ⟨text, []⟩
  else ((inv.moduleSpec name).render m).mapError .unrenderable

/-- The working directory once the text is written to the output. -/
def deliver (e : Environment) (inv : Invocation) (text : String) :
    Except RunFault WorkingTree :=
  match inv.output with
  | none => .ok e.tree
  | some path =>
    (e.tree.write path text).mapError fun reason => .invocation (.unwritable path reason)

/-- What a run produces, and the working directory after it. -/
def run (e : Environment) (inv : Invocation) : Except RunFault (Generated × WorkingTree) := do
  let name ← (inv.validate e).mapError .invocation
  let unit ← (HeaderUnit.load e.sources inv.settings.flags inv.input).mapError .unreadable
  let model ← (unit.exportModel inv.settings.policy).mapError .unknownTarget
  let produced ← inv.produce name model
  let tree ← inv.deliver e produced.text
  return (⟨name, produced.text, produced.skipped, unit.diagnostics, inv.output⟩, tree)

end Invocation
end Bindery
