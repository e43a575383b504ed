import Bindery.Instance.Evidence

/-!
# Arguments of instantiations

Template arguments that were left out are filled in from the defaults of the parameters,
which may mention the parameters in front of them. The arguments of a function template can
also be deduced from a signature.

## Main definitions

* `InstanceFault`: why a wanted instantiation cannot be had.
* `TemplateParam.complete`: fill in defaults and check the number of arguments.
* `TemplateEntity.deduce?`: arguments under which a function template has a signature.
-/
namespace Bindery

/-- Why a wanted instantiation cannot be had. -/
inductive InstanceFault where
  | badArgument (text : String) (fault : TypeFault)
  | arity (given expected : Nat)
  | templateArity (name : String) (given expected : Nat)
deriving DecidableEq, Inhabited

/-- The words for a fault. -/
def InstanceFault.message : InstanceFault → String
  | badArgument text fault => "invalid template argument `" ++ text ++ "`: " ++ fault.message
  | arity given expected =>
    "instance has " ++ toString given ++ " template arguments, expected " ++ toString expected
  | templateArity name given expected =>
    "instance of `" ++ name ++ "` has " ++ toString given ++ " template arguments, expected " ++
      toString expected

/-- The arguments of a directive. -/
def InstanceRequest.readArgs (r : InstanceRequest) : Except InstanceFault (List TemplateArg) :=
  r.args.mapM fun text => (TemplateArg.parse text).mapError (.badArgument text)

namespace TemplateParam

/-- Fill in the defaults of the parameters `left` that have no argument yet. -/
def fillDefaults (params : List TemplateParam) :
    List TemplateParam → List TemplateArg → Except InstanceFault (List TemplateArg)
  | [], args => .ok args
  | p :: left, args =>
    match p.default with
    | none => .error (.arity args.length params.length)
    | some default => fillDefaults params left (args ++ [default.substitute (bind params args)])

/-- Fill in defaults and check the number of arguments. -/
def complete (params : List TemplateParam) (args : List TemplateArg) :
    Except InstanceFault (List TemplateArg) :=
  if args.length > params.length then .error (.arity args.length params.length)
  else fillDefaults params (params.drop args.length) args

/-- The arguments of the parameters in front of the first one that is not bound. -/
def boundArgs (b : Bindings) : List TemplateParam → List TemplateArg
  | [] => []
  | p :: ps =>
    match b.find? p.name with
    | some arg => arg :: boundArgs b ps
    | none => []

end TemplateParam

/-- Match the type of a parameter, if need be without references and qualifiers. -/
def TypeExpr.unifyParam (params : List String) (b : Bindings) (pattern concrete : TypeExpr) :
    Option Bindings :=
  (pattern.unify? params concrete b).orElse fun _ =>
    pattern.denoted.unify? params concrete.denoted b

/-- Match the types of parameters in order. -/
def Param.unifyAll (names : List String) : List Param → List Param → Bindings → Option Bindings
  | [], [], b => some b
  | p :: ps, c :: cs, b => (p.type.unifyParam names b c.type).bind (unifyAll names ps cs)
  | _, _, _ => none

/-- Arguments under which a function template has a signature, given the first ones. -/
def TemplateEntity.deduce? (t : TemplateEntity) (given : Option (List TemplateArg))
    (signature : Signature) : Option (List TemplateArg) :=
  match t.pattern with
  | .ofClass _ => none
  | .ofFunction pattern =>
    let first := given.getD []
    if first.length > t.params.length then none
    else do
      let names := t.paramNames
      let b ← Param.unifyAll names pattern.signature.params signature.params
        (TemplateParam.bind t.params first)
      let b ← pattern.signature.result.unify? names signature.result b
      (TemplateParam.complete t.params (TemplateParam.boundArgs b t.params)).toOption

end Bindery
