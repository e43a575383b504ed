import Bindery.Dispatch.Pattern
import Bindery.Text.Identifier

/-!
# Dispatch catalogues

An entry point that several instantiations share picks one of them for each call: of the
entries that match best, the most specific one. Two equally specific ones make the call
ambiguous.

## Main definitions

* `CatalogueEntry`, `Catalogue`: the instantiations behind an entry point.
* `Catalogue.choose`, `Catalogue.select`: the entry that a call reaches.
* `ExportedInstantiation.hostName`: the name that an instantiation is registered under.
-/
namespace Bindery

/-- An instantiation that an entry point can reach. -/
structure CatalogueEntry where
  native : String
  specificity : Specificity
  /-- The constructors of a class, or the signature of a function. -/
  signatures : List SignaturePattern
deriving DecidableEq, Inhabited

/-- The instantiations behind an entry point, the most specific first. -/
structure Catalogue where
  name : String
  entries : List CatalogueEntry
  registry : Registry
deriving Inhabited

/-- An entry that a call matches, the best of its signatures, and how well that matches. -/
structure Selection where
  entry : Nat
  signature : Nat
  tier : MatchTier
deriving DecidableEq, Inhabited

/-- Why a call reaches nothing. -/
inductive DispatchFault where
  | ambiguous (name : String) (candidates : List String)
  | noMatch (name descriptor : String)
deriving DecidableEq, Inhabited

/-- The words for a fault. -/
def DispatchFault.message : DispatchFault → String
  | ambiguous name candidates =>
    "ambiguous call to `" ++ name ++ "`: instantiations " ++ ", ".intercalate candidates ++
      " match equally well"
  | noMatch name descriptor =>
    "no instantiation of `" ++ name ++ "` matches arguments (" ++ descriptor ++ ")"

/-- The first of the best matches in a list. -/
def bestMatch? {α : Type} (tier : α → MatchTier) : List α → Option α
  | [] => none
  | a :: as =>
    match bestMatch? tier as with
    | none => some a
    | some b => if (tier b).rank < (tier a).rank then some b else some a

/-- The places of the signatures that a call matches, and how well each of them does. -/
def CatalogueEntry.matching (isSubclass : String → String → Bool) (e : CatalogueEntry)
    (call : List ArgTag) : List (Nat × MatchTier) :=
  e.signatures.zipIdx.filterMap fun (s, i) =>
    (s.tier? isSubclass call).map fun tier => (i, tier)

/-- The best signature of an entry for a call. -/
def CatalogueEntry.best? (isSubclass : String → String → Bool) (e : CatalogueEntry)
    (call : List ArgTag) : Option (Nat × MatchTier) :=
  bestMatch? Prod.snd (e.matching isSubclass call)

namespace Catalogue

/-- A catalogue of entries in any order. -/
def make (name : String) (entries : List CatalogueEntry) (registry : Registry) : Catalogue :=
  ⟨name, entries.mergeSort fun a b => a.specificity.rank ≤ b.specificity.rank, registry⟩

/-- The entries that a call matches. -/
def matching (c : Catalogue) (call : List ArgTag) : List (CatalogueEntry × Selection) :=
  c.entries.zipIdx.filterMap fun (e, i) =>
    (e.best? c.registry.isSubclass call).map fun (signature, tier) => (e, ⟨i, signature, tier⟩)

/-- The entry that a call reaches, and how. -/
def choose (c : Catalogue) (call : List ArgTag) :
    Except DispatchFault (CatalogueEntry × Selection) :=
  let found := c.matching call
  match bestMatch? (·.2.tier) found with
  | none => .error (.noMatch c.name (ArgTag.callText call))
  | some (first, selection) =>
    let rivals := found.filter fun (e, s) =>
      s.tier = selection.tier && e.specificity = first.specificity
    if rivals.length > 1 then .error (.ambiguous c.name (rivals.map (·.1.native)))
    else .ok (first, selection)

/-- How a call reaches its entry. -/
def select (c : Catalogue) (call : List ArgTag) : Except DispatchFault Selection :=
  (c.choose call).map (·.2)

end Catalogue

/-! ## Entry points of templates -/

namespace ExportedInstantiation

/-- The name that an instantiation is registered under: that of the entry point if it has it
for itself, else one with the arguments added. -/
def hostName (isShared : Bool) (i : ExportedInstantiation) : String :=
  if isShared then
    i.exportName ++ "_" ++ Text.mangle ("_".intercalate (i.args.map TemplateArg.text))
  else i.exportName

/-- The signatures of a class, with that of the implicit constructor last. -/
def classSignatures (r : Registry) (c : ExportedClass) :
    Except MarshalFault (List SignaturePattern) := do
  let declared ← c.constructors.mapM fun k => SignaturePattern.ofParams r k.params
  return declared ++ if c.defaultConstructor then [.empty] else []

/-- The entry of an instantiation, if all of it can cross the boundary. -/
def toEntry (r : Registry) (i : ExportedInstantiation) : Except MarshalFault CatalogueEntry := do
  let signatures ← match i.item with
    | .ofFunction f => (fun s => [s]) <$> SignaturePattern.ofSignature r f.signature
    | .ofClass c => classSignatures r c
  return ⟨i.native, i.specificity, signatures⟩

end ExportedInstantiation

/-- The catalogue of an entry point. -/
def ExportedTemplate.catalogue (t : ExportedTemplate) (r : Registry) (exportName : String) :
    Except MarshalFault Catalogue := do
  let entries ← (t.instantiations.filter (·.exportName = exportName)).mapM (·.toEntry r)
  return .make exportName entries r

end Bindery
