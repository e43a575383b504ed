import Bindery.Proofs.Bound.Members
import Bindery.Proofs.Render.Part

/-!
# The items of a model

A model asks a module for items: constructors, overloads of methods, fields, functions and entry
points, in the order in which the module goes through them. Every item has one part in the module,
and the rest of the module is scaffolding, which begins no statement and no note. So whatever is
read off the lines of parts, wherever they stand, is read off the items in order.

## Main definitions

* `Item`, `ExportModel.items`: what a model asks for.
* `Part.Reading`: what does not depend on nesting and on scaffolding.

## Main statements

* `ExportModel.flatMap_parts`: what is read off a module is read off the items.
* `ExportedTemplate.perm_instantiations`: each instantiation is met once.
-/
namespace Bindery

/-! ## Items -/

/-- What a model asks a module to register. -/
inductive Item where
  | constructor (c : ExportedClass) (k : Constructor)
  /-- The constructor that is there without being declared. -/
  | implicitConstructor (c : ExportedClass)
  | method (c : ExportedClass) (m : Method)
  | field (c : ExportedClass) (f : Field)
  /-- An overload of a free function, or an instantiation of a template. -/
  | function (host callee : String) (f : FunctionEntity)
  /-- An entry point that several instantiations share. -/
  | entryPoint (t : ExportedTemplate) (name : String) (group : List ExportedInstantiation)

namespace Item

/-- The part of an item. -/
def part (r : Registry) : Item → Part
  | constructor c k => c.constructorPart r k
  | implicitConstructor c => c.defaultConstructorPart
  | method c m => c.methodPart r m
  | field c f => c.fieldPart r f
  | function host callee f => f.part r host callee
  | entryPoint t name group => t.entryPointPart r name group

/-- The name that an item is reported under. -/
def entity : Item → String
  | constructor c _ | implicitConstructor c => c.native ++ "::" ++ c.name.name
  | method c m => c.native ++ "::" ++ m.name
  | field c f => c.native ++ "::" ++ f.name
  | function _ _ f => f.name.text
  | entryPoint _ name _ => name

end Item

/-- The items of a class. -/
def ExportedClass.items (c : ExportedClass) : List Item :=
  c.constructors.map (.constructor c) ++
    (if c.defaultConstructor then [.implicitConstructor c] else []) ++
    (c.methods.flatMap fun g => g.overloads.map (.method c)) ++ c.fields.map (.field c)

/-- The items of an instantiation. -/
def ExportedInstantiation.items (isShared : Bool) (i : ExportedInstantiation) : List Item :=
  match i.item with
  | .ofClass c => c.items
  | .ofFunction f => [.function (i.hostName isShared) i.native f]

/-- The items of a template: those of its instantiations, by entry point. -/
def ExportedTemplate.items (t : ExportedTemplate) : List Item :=
  t.entryPoints.entries.flatMap fun (name, group) =>
    group.flatMap (·.items (1 < group.length)) ++
      if 1 < group.length then [.entryPoint t name group] else []

/-- The items of a model. -/
def ExportModel.items (m : ExportModel) : List Item :=
  m.classes.flatMap ExportedClass.items ++
  (m.functions.flatMap fun f => f.overloads.map fun o =>
    .function f.exportName o.name.text o) ++
  m.templates.flatMap ExportedTemplate.items

/-- Going through a template by entry points, each instantiation is met once. -/
theorem ExportedTemplate.perm_instantiations (t : ExportedTemplate) :
    (t.entryPoints.entries.flatMap Prod.snd).Perm t.instantiations :=
  OrderedMap.perm_flatMap_groupBy _ _

/-! ## Reading a module -/

/-- The text is not indented and begins no statement and no note. -/
def isPlainText (text : String) : Bool :=
  text.toList.head?.all fun c => c ≠ 'c' && c ≠ 'm' && c ≠ '/' && c ≠ ' '

theorem isPlainText_append (front : String) (h : front.toList ≠ []) (rest : String) :
    isPlainText (front ++ rest) = isPlainText front := by
  rw [isPlainText, String.toList_append, List.head?_append_of_ne_nil _ h, isPlainText]

theorem isPlainText_opening {header : String} (h : isPlainText header = true) :
    isPlainText (SourceLine.opening header).text = true := by
  rw [SourceLine.opening]
  split
  · decide
  · next hne => exact (isPlainText_append _ (String.toList_eq_nil_iff.not.2 hne) _).trans h

/-- What is read off a part depends neither on how deep it is nested nor on scaffolding. -/
structure Part.Reading {β : Type} (g : Part → List β) : Prop where
  indent : ∀ p, g p.indent = g p
  plain : ∀ lines : List SourceLine, (∀ l ∈ lines, isPlainText l.text = true) →
    g (.scaffold lines) = []

variable {β : Type} {g : Part → List β} {r : Registry} {shared : List String}

namespace Part.Reading

variable (hg : Part.Reading g)

include hg

theorem line (text : String) (h : isPlainText text = true) : g (.line text) = [] :=
  hg.plain _ (by simpa [SourceLine.flat] using h)

theorem blank : g .blank = [] := hg.line "" (by decide)

theorem flatMap_block {header : String} (h : isPlainText header = true) (body : List Part) :
    (Part.block header body).flatMap g = body.flatMap g := by
  have hclosing : isPlainText (SourceLine.closing "").text = true := by decide
  have hindent : (fun p => g p.indent) = g := funext hg.indent
  rw [Part.block, List.flatMap_append, List.flatMap_cons, List.flatMap_map, List.flatMap_singleton,
    hg.plain _ (by simpa using isPlainText_opening h), hg.plain _ (by simpa using hclosing),
    List.nil_append, List.append_nil]
  simp only [hindent]

end Part.Reading

theorem ExportedClass.Regular.flatMap_constructorParts {c : ExportedClass} (hc : c.Regular)
    (g : Part → List β) : (c.constructorParts r).flatMap g =
      (c.constructors.map (Item.constructor c) ++
        if c.defaultConstructor then [Item.implicitConstructor c] else []).flatMap
          fun i => g (i.part r) := by
  unfold constructorParts
  split
  · next habstract => simp [hc.abstract habstract]
  · rw [List.flatMap_append, List.flatMap_append, List.flatMap_map, List.flatMap_map]
    split <;> rfl

theorem ExportedClass.Regular.flatMap_parts {c : ExportedClass} (hc : c.Regular)
    (hg : Part.Reading g) (host : String) :
    (c.parts r shared host).flatMap g = c.items.flatMap fun i => g (i.part r) := by
  have hhead : isPlainText (c.headCode shared host) = true := by
    unfold headCode
    simp only [String.append_assoc]
    rw [isPlainText_append "py::class_<" (by decide)]
    decide
  rw [parts, hg.flatMap_block (by decide)]
  simp only [List.cons_append, List.flatMap_cons, List.flatMap_append, hg.line _ hhead,
    hc.flatMap_constructorParts, items, List.flatMap_assoc, List.flatMap_map, List.nil_append,
    List.append_assoc]
  rfl

theorem ExportedInstantiation.flatMap_parts (hg : Part.Reading g) (isShared : Bool)
    (i : ExportedInstantiation) (hi : ∀ c, i.item = .ofClass c → c.Regular) :
    (ExportedTemplate.instantiationParts r shared isShared i).flatMap g =
      (i.items isShared).flatMap fun i => g (i.part r) := by
  cases hitem : i.item with
  | ofClass c =>
    simp only [ExportedTemplate.instantiationParts, items, hitem, List.flatMap_cons, hg.blank,
      List.nil_append]
    exact (hi c hitem).flatMap_parts hg _
  | ofFunction f =>
    simp only [ExportedTemplate.instantiationParts, items, hitem, List.flatMap_append]
    cases isShared <;> simp [hg.blank, Item.part]

theorem ExportedTemplate.flatMap_parts (hg : Part.Reading g) (t : ExportedTemplate)
    (ht : ∀ i ∈ t.instantiations, ∀ c, i.item = .ofClass c → c.Regular) :
    (t.parts r shared).flatMap g = t.items.flatMap fun i => g (i.part r) := by
  rw [parts, items, List.flatMap_assoc, List.flatMap_assoc]
  refine List.flatMap_congr fun (name, group) hgroup => ?_
  have hgroup : group = t.instantiations.filter (·.exportName = name) :=
    (OrderedMap.mem_entries_groupBy.1 hgroup).1
  simp only [List.flatMap_append, List.flatMap_assoc]
  congr 1
  · refine List.flatMap_congr fun i hi => i.flatMap_parts hg _ (ht i ?_)
    exact (List.mem_filter.1 (hgroup ▸ hi)).1
  · split <;> rfl

/-- **What is read off a module is read off the items of the model**, in their order. -/
theorem ExportModel.flatMap_parts (hg : Part.Reading g) (m : ExportModel)
    (hm : ∀ c ∈ m.allClasses, c.Regular) (name : String) :
    (m.parts name).flatMap g =
      m.items.flatMap fun i => g (i.part (Registry.ofModel m)) := by
  have hheader : isPlainText ("PYBIND11_MODULE(" ++ name ++ ", m)") = true := by
    rw [String.append_assoc, isPlainText_append "PYBIND11_MODULE(" (by decide)]
    decide
  have hregister : isPlainText "pxx_runtime::register_errors(m);" = true := by decide
  have htemplate (t : ExportedTemplate) (ht : t ∈ m.templates) (i : ExportedInstantiation)
      (hi : i ∈ t.instantiations) (c : ExportedClass) (hc : i.item = .ofClass c) : c.Regular := by
    refine hm c (List.mem_append_right _ (List.mem_flatMap.2 ⟨t, ht, List.mem_filterMap.2
      ⟨i, hi, ?_⟩⟩))
    rw [hc]
    rfl
  have hseparator : (if m.functions.isEmpty then [] else [Part.blank]).flatMap g = [] := by
    split <;> simp [hg.blank]
  rw [parts, hg.flatMap_block hheader, items]
  simp only [List.cons_append, List.flatMap_cons, List.flatMap_append, hg.line _ hregister,
    hg.blank, hseparator, List.flatMap_assoc, List.flatMap_map, List.nil_append, List.append_nil]
  congr 1
  · congr 1
    exact List.flatMap_congr fun c hc => (hm c (List.mem_append_left _ hc)).flatMap_parts hg _
  · exact List.flatMap_congr fun t ht => ExportedTemplate.flatMap_parts hg t (htemplate t ht)

end Bindery
