import Bindery.Bound.Class

/-!
# Bound modules

Everything that a model offers to the host, under host names: classes, overload sets of
functions, and entry points that several instantiations share. Each instantiation is also
registered under a name of its own. A later registration of a name takes the place of an
earlier one.

## Main definitions

* `Dispatcher`: an entry point that picks the instantiation a call reaches.
* `Registration`: one step of setting up a module.
* `BoundModule`: all registrations of a model, and the views on them.
* `BoundModule.checkedBind`: the bound module, unless reading a literal overflows.
-/
namespace Bindery

/-- An entry point, and the host names of its instantiations. -/
structure Dispatcher where
  catalogue : Catalogue
  /-- Host names by native spelling. -/
  bindings : OrderedMap String String
deriving Inhabited

/-- What a call through an entry point reaches. -/
structure Resolved where
  native : String
  /-- The host name of the instantiation. -/
  binding : String
  /-- The place of the constructor or signature that matches. -/
  signature : Nat
deriving DecidableEq, Inhabited

/-- The instantiation that a call reaches. -/
def Dispatcher.resolve (d : Dispatcher) (args : List HostValue) :
    Except DispatchFault Resolved := do
  let (entry, selection) ← d.catalogue.choose (args.map ArgTag.ofValue)
  return ⟨entry.native, (d.bindings.find? entry.native).getD entry.native, selection.signature⟩

/-- One step of setting up a module. -/
inductive Registration where
  | ofClass (host : String) (c : BoundClass)
  | ofFunction (host : String) (overloads : List SignaturePattern)
  | ofEntryPoint (name : String) (d : Dispatcher)
  /-- Left out, because a type cannot cross the boundary. -/
  | skipped (name : String)
deriving Inhabited

namespace Registration

/-- The class that is registered. -/
def class? : Registration → Option (String × BoundClass)
  | ofClass host c => some (host, c)
  | _ => none

/-- The function that is registered. -/
def function? : Registration → Option (String × List SignaturePattern)
  | ofFunction host overloads => some (host, overloads)
  | _ => none

/-- The entry point that is registered. -/
def entryPoint? : Registration → Option (String × Dispatcher)
  | ofEntryPoint name d => some (name, d)
  | _ => none

/-- What is left out. -/
def omissions : Registration → List String
  | ofClass _ c => c.skipped
  | skipped name => [name]
  | _ => []

/-- The registration of a free function, which needs all overloads. -/
def ofOverloads (r : Registry) (f : ExportedFunction) : Registration :=
  match f.overloads.mapM fun o => SignaturePattern.ofSignature r o.signature with
  | .ok overloads => ofFunction f.exportName overloads
  | .error _ => skipped f.exportName

/-- The registration of an instantiation under its own host name. -/
def ofInstantiation (r : Registry) (isShared : Bool) (i : ExportedInstantiation) :
    Registration :=
  let host := i.hostName isShared
  match i.item with
  | .ofClass c => ofClass host (.bind r host c)
  | .ofFunction f =>
    match SignaturePattern.ofSignature r f.signature with
    | .ok s => ofFunction host [s]
    | .error _ => skipped host

/-- The registrations of an entry point: those of its instantiations, and a dispatcher if
there are several. -/
def ofGroup (r : Registry) (t : ExportedTemplate) (exportName : String)
    (group : List ExportedInstantiation) : List Registration :=
  let isShared := 1 < group.length
  let single := group.map (ofInstantiation r isShared)
  if isShared then
    match t.catalogue r exportName with
    | .ok catalogue =>
      let bindings := .ofList (group.map fun i => (i.native, i.hostName isShared))
      single ++ [ofEntryPoint exportName ⟨catalogue, bindings⟩]
    | .error _ => single ++ [skipped exportName]
  else single

/-- The registrations of a model in order. -/
def ofModel (r : Registry) (m : ExportModel) : List Registration :=
  m.classes.map (fun c => ofClass c.exportName (.bind r c.exportName c)) ++
  m.functions.map (ofOverloads r) ++
  m.templates.flatMap fun t => t.entryPoints.entries.flatMap fun (name, group) =>
    ofGroup r t name group

end Registration

/-- Everything that a model offers, under host names. -/
structure BoundModule where
  name : String
  registry : Registry
  registrations : List Registration
deriving Inhabited

namespace BoundModule

/-- A model under a module name. -/
def bind (name : String) (m : ExportModel) : BoundModule :=
  let r := Registry.ofModel m
  ⟨name, r, Registration.ofModel r m⟩

/-- A model under a module name, unless reading the initialiser of a member overflows. -/
def checkedBind (name : String) (m : ExportModel) : Except Numeral.Overflow BoundModule :=
  if m.allClasses.any fun c => c.fields.any (BoundField.overflows (.ofModel m)) then
    .error .negation
  else .ok (bind name m)

/-- The classes by host name. -/
def classes (m : BoundModule) : OrderedMap String BoundClass :=
  .ofList (m.registrations.filterMap Registration.class?)

/-- The functions by host name. -/
def functions (m : BoundModule) : OrderedMap String (List SignaturePattern) :=
  .ofList (m.registrations.filterMap Registration.function?)

/-- The shared entry points by name. -/
def dispatchers (m : BoundModule) : OrderedMap String Dispatcher :=
  .ofList (m.registrations.filterMap Registration.entryPoint?)

/-- What is left out: class members behind the name of the class, functions and entry points
by host name. -/
def skipped (m : BoundModule) : List String := m.registrations.flatMap Registration.omissions

/-- The host names: of classes, then functions, then shared entry points. -/
def symbols (m : BoundModule) : List String :=
  m.classes.keys ++ m.functions.keys ++ m.dispatchers.keys

/-- There is no such symbol. -/
def unknown (m : BoundModule) (name : String) : AccessFault := .unknownAttribute m.name name

/-- The overload of a function that a call reaches. -/
def functionOverload (m : BoundModule) (name : String) (args : List HostValue) :
    Except AccessFault Nat :=
  match m.functions.find? name with
  | some overloads => SignaturePattern.pick m.registry m.name name overloads args
  | none => .error (m.unknown name)

/-- The host name of the class that a call constructs. -/
def constructed (m : BoundModule) (name : String) (args : List HostValue) :
    Except AccessFault String :=
  match m.dispatchers.find? name with
  | some d => ((d.resolve args).mapError .dispatch).map (·.binding)
  | none => .ok name

/-- A new object of a class, picked by the arguments where several share the name. -/
def construct (m : BoundModule) (name : String) (args : List HostValue) :
    StoreAccess (BoundClass × Handle) := do
  let host ← m.constructed name args
  match m.classes.find? host with
  | some c => return (c, ← c.construct args)
  | none => throw (m.unknown name)

end BoundModule
end Bindery
