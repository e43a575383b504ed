import Bindery.Proofs.Bound.Members
import Bindery.Proofs.Export.Inheritance
import Bindery.Proofs.Instance.Declarations
import Bindery.Proofs.Render.Account
import Bindery.Proofs.TypeExpr.Constness

/-!
# Fields that are only read

A field is marked as constant when it is declared with a constant type. The mark is what protects
it: a bound class refuses to write the field, and no setter is generated for it. Instantiating a
template changes the types of fields and leaves the marks alone. So a field has a constant type
without the mark when it is declared with a parameter as its type and the argument is constant, and
only then.

## Main definitions

* `Field.MarksConst`: a field of constant type has the mark.
* `Field.TakesConst`: a field has its constant type from a template argument.
* `ExportedClass.Protects`: a class offers nothing that writes a field.
* `HeaderUnit.MarksConst`: which fields of a unit have the mark.

## Main statements

* `HeaderUnit.marksConst_ofHeader`: fields of constant type are protected, those aside that have
  this type from a template argument.
* `HeaderUnit.constant_argument_writable`: one of these can be written.
-/
namespace Bindery

/-- A field whose type is constant has the mark of a field that is only read. -/
def Field.MarksConst (f : Field) : Prop := f.type.denotesConst = true → f.isConst = true

/-- The same of a member, if it is a field. -/
def Member.MarksConst : Member → Prop
  | field f => f.MarksConst
  | constructor _ | method _ => True

/-- A field without the mark was declared with a parameter as its type, and has a constant type
because the parameter stands for one. -/
structure Field.TakesConst (pattern : ClassEntity) (b : Bindings) (f : Field) : Prop where
  declared : ∃ g, .field g ∈ pattern.members ∧ g.type.TakesConst b ∧
    f = { g with type := g.type.substitute b }
  unmarked : f.isConst = false

theorem Field.MarksConst.denotesConst_eq_false {f : Field} (h : f.MarksConst)
    (hmark : f.isConst = false) : f.type.denotesConst = false := by
  by_contra hconst
  rw [h (by simpa using hconst)] at hmark
  cases hmark

/-- Replacing parameters loses the mark of those fields that take a constant type from an
argument. -/
theorem Field.not_marksConst_iff {pattern : ClassEntity} {b : Bindings} {f : Field}
    (hpattern : pattern.AllMembers Member.MarksConst)
    (hf : .field f ∈ (pattern.substitute b).members) :
    ¬ f.MarksConst ↔ f.TakesConst pattern b := by
  constructor
  · intro hnot
    by_cases hmark : f.isConst = true
    · exact absurd (fun _ => hmark) hnot
    · have hconst : f.type.denotesConst = true := by
        by_contra hconst
        exact hnot fun h => absurd h hconst
      rw [Bool.not_eq_true] at hmark
      obtain ⟨m, hm, hfm⟩ := List.mem_map.1 hf
      cases m with
      | constructor _ | method _ => cases hfm
      | field g =>
        cases hfm
        have hwritten := Field.MarksConst.denotesConst_eq_false (hpattern _ hm) hmark
        exact ⟨⟨g, hm, (TypeExpr.denotesConst_substitute_iff hwritten).1 hconst, rfl⟩, hmark⟩
  · rintro ⟨⟨g, hg, htakes, rfl⟩, hmark⟩ hmarks
    have hwritten := Field.MarksConst.denotesConst_eq_false (hpattern _ hg) hmark
    have hconst := (TypeExpr.denotesConst_substitute_iff hwritten).2 htakes
    rw [hmarks.denotesConst_eq_false hmark] at hconst
    cases hconst

/-! ## The walk -/

namespace Walk

variable {files : Array SourceFile}

theorem quietTry_marksConst_memberFunction (c : ClassContext) (access : Access) (mark : ExportMark)
    (info : DeclInfo) (f : FunctionDecl) :
    QuietTry files Member.MarksConst (memberFunction c access mark info f) := by
  unfold memberFunction
  refine (quiet_place info).lift.bind fun location _ => ?_
  refine .ite quietTry_failure (.ite (.ite (quietTry_refuse _ _ _) quietTry_failure) (.ite ?_ ?_))
  · unfold constructorMember
    refine .ite (quietTry_refuse _ _ _) ?_
    exact (quietTry_params _ _ _ _).bind fun _ _ => quietTry_pure trivial
  · split
    · exact quietTry_failure
    · refine .ite quietTry_failure ?_
      exact (quietTry_signature _ _ _ _).bind fun _ _ => quietTry_pure trivial

/-- A field gets the mark from the type that it is declared with. -/
theorem quietTry_marksConst_memberField (scope : Scope) (access : Access) (mark : ExportMark)
    (location : Option Location) (f : FieldDecl) (type name : String) (d : DeclaratorDecl) :
    QuietTry files Member.MarksConst (memberField scope access mark location f type name d) := by
  unfold memberField
  refine .ite (quietTry_refuse _ _ _) ?_
  refine quiet_get.lift.bind fun survey _ => ?_
  split
  · exact quietTry_refuse _ _ _
  · next resolved _ =>
    refine quietTry_pure fun hconst => ?_
    have hresolved : resolved.denotesConst = true := hconst
    simp [hresolved]

theorem ensures_marksConst : Ensures Member.MarksConst := by
  constructor
  · intro files c access mark info f
    exact quietTry_marksConst_memberFunction c access mark info f
  · intro files scope access mark info f
    unfold memberFields
    refine (quiet_place info).bind fun location _ => ?_
    split
    · exact quiet_pure (by simp)
    · split
      · exact (quiet_warn _ _ _).bind fun _ _ => quiet_pure (by simp)
      · apply quiet_collectMembers
        intro a ha
        obtain ⟨⟨name, d⟩, -, rfl⟩ := List.mem_map.1 ha
        exact quietTry_marksConst_memberField _ _ _ _ _ _ _ _

end Walk

/-! ## Units -/

theorem Concrete.class?_eq_some {e : Concrete} {c : ClassEntity} :
    e.class? = some c ↔ e = .ofClass c := by
  cases e <;> simp [class?]

namespace HeaderUnit

variable {u : HeaderUnit} {p : ExportPolicy} {c : ClassEntity}

/-- The fields of a unit that have the mark, as far as their type is constant. -/
structure MarksConst (u : HeaderUnit) : Prop where
  classes : ∀ c ∈ u.classes, c.AllMembers Member.MarksConst
  full : ∀ t ∈ u.templates, ∀ x ∈ t.instantiations, ∀ c, x.entity = .ofClass c →
    x.specificity = .full → c.AllMembers Member.MarksConst
  replaced : ∀ t ∈ u.templates, ∀ x ∈ t.instantiations, ∀ c, x.entity = .ofClass c →
    x.specificity ≠ .full → ∃ (pattern : ClassEntity) (b : Bindings),
      c = pattern.substitute b ∧ pattern.AllMembers Member.MarksConst ∧
      (x.specificity = .primary → t.pattern = .ofClass pattern ∧ b = x.bindings) ∧
      ∀ f, .field f ∈ c.members → (¬ f.MarksConst ↔ f.TakesConst pattern b)

/-- A field of a class behind an instantiation has its constant type from an argument. -/
def TakesConst (u : HeaderUnit) (f : Field) : Prop :=
  ∃ t ∈ u.templates, ∃ x ∈ t.instantiations, ∃ (pattern : ClassEntity) (b : Bindings),
    x.entity = .ofClass (pattern.substitute b) ∧ .field f ∈ (pattern.substitute b).members ∧
      f.TakesConst pattern b

theorem marksConst (h : Header) : (ofHeader h).MarksConst := by
  refine ⟨fun c hc => allMembers_classes Walk.ensures_marksConst hc, ?_, ?_⟩
  · intro t ht x hx c hc hserved
    rcases allMembers_instantiation Walk.ensures_marksConst ht hx hc with ⟨-, h⟩ | ⟨hnot, -⟩
    · exact h
    · exact absurd hserved hnot
  · intro t ht x hx c hc hserved
    rcases allMembers_instantiation Walk.ensures_marksConst ht hx hc with ⟨hfull, -⟩ | ⟨-, h⟩
    · exact absurd hfull hserved
    · obtain ⟨pattern, b, hpattern, rfl, hprimary⟩ := h
      refine ⟨pattern, b, rfl, hpattern, hprimary, fun f hf => ?_⟩
      exact Field.not_marksConst_iff hpattern hf

/-- A field of a class of the unit, or of a class behind an instantiation. -/
theorem MarksConst.marked_or_takes (hu : u.MarksConst) (hc : c ∈ u.concreteClasses) {f : Field}
    (hf : .field f ∈ c.members) : f.MarksConst ∨ u.TakesConst f := by
  rcases List.mem_append.1 hc with hc | hc
  · exact .inl (hu.classes c hc _ hf)
  · obtain ⟨t, ht, hc⟩ := List.mem_flatMap.1 hc
    obtain ⟨x, hx, hentity⟩ := List.mem_filterMap.1 hc
    rw [Concrete.class?_eq_some] at hentity
    by_cases hserved : x.specificity = .full
    · exact .inl (hu.full t ht x hx c hentity hserved _ hf)
    · obtain ⟨pattern, b, rfl, -, -, hiff⟩ := hu.replaced t ht x hx c hentity hserved
      by_cases hmarks : f.MarksConst
      · exact .inl hmarks
      · exact .inr ⟨t, ht, x, hx, pattern, b, hentity, hf, (hiff f hf).1 hmarks⟩

end HeaderUnit

/-! ## Exported classes -/

theorem Surface.mem_fields_foldl_add {ms : List Member} {s : Surface} {f : Field} :
    f ∈ (ms.foldl add s).fields ↔ f ∈ s.fields ∨ .field f ∈ ms := by
  induction ms generalizing s with
  | nil => simp
  | cons m ms ih =>
    rw [List.foldl_cons, ih]
    cases m with
    | constructor _ | method _ => simp [add]
    | field g => simp [add, or_assoc]

namespace HeaderUnit

variable {u : HeaderUnit} {p : ExportPolicy}

/-- What an exported class shows was declared in that class or in a class of the unit. -/
theorem exists_declared_field {owner : ExportMark} {native exportName : String} {c : ClassEntity}
    (hc : c ∈ u.concreteClasses) {f : Field}
    (hf : f ∈ (u.exportClass p owner native exportName c).fields) :
    ∃ d ∈ u.concreteClasses, .field f ∈ d.members := by
  obtain ⟨taken, ⟨-, hfields⟩, htaken⟩ := exists_taken_exportClass u p owner native exportName c
  rw [hfields, Surface.mem_fields_foldl_add] at hf
  rcases List.mem_append.1 (hf.resolve_left List.not_mem_nil) with hf | hf
  · exact ⟨c, hc, (List.mem_filter.1 hf).1⟩
  · obtain ⟨x, hx, hmember⟩ := List.mem_map.1 hf
    obtain ⟨hmem, -, -, b, hb, hreach⟩ := htaken x hx
    refine ⟨x.source, List.mem_append_left _ ?_, hmember ▸ hmem⟩
    rcases hreach.cases_tail with rfl | ⟨a, -, r, -, hsource⟩
    · exact mem_classes_of_mem_foldedBases hb
    · exact mem_classes_of_classNamed? hsource

end HeaderUnit

/-! ## What protects a field -/

theorem BoundClass.set_of_readOnly {c : BoundClass} {name : String}
    (hname : ∀ f, c.fields.find? name = some f → f.isReadOnly = true) (handle : Handle)
    (value : HostValue) (s : Store) : ∃ fault, c.set handle name value s = .error fault := by
  cases hfound : c.fields.find? name with
  | none => exact ⟨c.unknown name, by simp [set, field, hfound, Except.map]⟩
  | some f =>
    have hreadOnly := hname f hfound
    exact ⟨.conversion (.readOnly name), by simp [set, field, hfound, hreadOnly, Except.map]⟩

namespace ExportedClass

variable {e : ExportedClass} {name : String}

/-- A class offers nothing that writes a field: it refuses each attempt when it is bound, and the
code that is generated for it gives the field a getter only. -/
structure Protects (e : ExportedClass) (name : String) : Prop where
  writes : ∀ r host handle value s, ∃ fault,
    (BoundClass.bind r host e).set handle name value s = .error fault
  setters : ∀ r, ∀ f ∈ e.fields, f.name = name → ∀ line ∈ (e.fieldPart r f).lines,
    beginsWith "cls.def_property_readonly" line.text = true

theorem beginsWith_fieldCode {owner : String} {f : Field} {type : NativeType}
    (h : f.isConst = true) :
    beginsWith "cls.def_property_readonly" (fieldCode owner f type) = true := by
  rw [beginsWith_iff, fieldCode]
  cases f.isStatic <;>
    · simp only [h, if_true, String.append_assoc]
      exact ⟨_, rfl⟩

/-- The field behind a bound field. -/
theorem exists_of_find?_fields {r : Registry} {host : String} {bf : BoundField}
    (h : (BoundClass.bind r host e).fields.find? name = some bf) :
    ∃ f ∈ e.fields, f.name = name ∧ BoundField.bind r f = .ok bf := by
  have hfields : (BoundClass.bind r host e).fields =
      .ofList ((BoundClass.bound (BoundField.bind r) e.fields).map fun q => (q.1.name, q.2)) := rfl
  rw [hfields, OrderedMap.find?_ofList] at h
  obtain ⟨⟨key, value⟩, hfound, rfl⟩ := Option.map_eq_some_iff.1 h
  have hkey : key = name := by simpa using List.find?_some hfound
  obtain ⟨⟨f, b⟩, hbound, heq⟩ := List.mem_map.1
    (List.mem_reverse.1 (List.mem_of_find?_eq_some hfound))
  obtain ⟨hname, rfl⟩ := Prod.mk.injEq _ _ _ _ ▸ heq
  obtain ⟨g, hg, hpair⟩ := List.mem_filterMap.1 hbound
  obtain ⟨b', hbind, heq⟩ := Option.map_eq_some_iff.1 hpair
  obtain ⟨rfl, rfl⟩ := Prod.mk.injEq _ _ _ _ ▸ heq
  exact ⟨g, hg, hname.trans hkey, toOption_eq_some.1 hbind⟩

/-- Fields with the mark are protected. -/
theorem protects_of_isConst (h : ∀ f ∈ e.fields, f.name = name → f.isConst = true) :
    e.Protects name := by
  constructor
  · intro r host handle value s
    apply BoundClass.set_of_readOnly
    intro bf hbf
    obtain ⟨f, hf, hname, hbind⟩ := exists_of_find?_fields hbf
    obtain ⟨type, -, hmade⟩ := bind_eq_ok.1 hbind
    cases hmade
    exact h f hf hname
  · intro r f hf hname line hline
    cases htype : r.valueType f.type with
    | error fault =>
      simp [fieldPart, Part.ofText, Part.ofCode, Part.lines, htype, Except.map, Except.mapError]
        at hline
    | ok type =>
      obtain rfl : line = .flat (fieldCode e.native f type) := by
        simpa [fieldPart, Part.ofText, Part.ofCode, Part.lines, htype, Except.map,
          Except.mapError] using hline
      exact beginsWith_fieldCode (h f hf hname)

end ExportedClass

/-! ## The whole way -/

namespace HeaderUnit

/-- **Fields of constant type are only read.** In every unit, a field whose type is constant has the
mark of a field that is only read, but for those fields of instantiations that take a constant type
from an argument. What an exported class shows under one name is protected when it has a constant
type, unless it is such a field. -/
theorem marksConst_ofHeader (h : Header) : (ofHeader h).MarksConst ∧
    ∀ p m, (ofHeader h).exportModel p = .ok m → ∀ e ∈ m.allClasses, ∀ name,
      (∀ f ∈ e.fields, f.name = name → f.type.denotesConst = true) →
      e.Protects name ∨ ∃ f ∈ e.fields, f.name = name ∧ (ofHeader h).TakesConst f := by
  have hmarks := marksConst h
  refine ⟨hmarks, ?_⟩
  intro p m hm e he name hconst
  by_cases htakes : ∃ f ∈ e.fields, f.name = name ∧ (ofHeader h).TakesConst f
  · exact .inr htakes
  · refine .inl (ExportedClass.protects_of_isConst fun f hf hname => ?_)
    obtain ⟨c, hc, owner, native, exportName, rfl⟩ := mem_allClasses_exportModel hm he
    obtain ⟨d, hd, hmember⟩ := exists_declared_field hc hf
    rcases hmarks.marked_or_takes hd hmember with hmarked | htaken
    · exact hmarked (hconst f hf hname)
    · exact absurd ⟨f, hf, hname, htaken⟩ htakes

namespace ConstantArgument

/-- A template whose field has a parameter as its type, and a constant argument for it. -/
def text : String := "// pxx :: instance([\"const int\"])\n" ++
  "template <typename T> struct Box \x7b\n  T value = 1;\n\x7d;\n"

/-- What an attempt to change the field of a new object leaves in it. -/
def changed (c : BoundClass) : Except AccessFault (HostValue × Store) :=
  StateT.run (do
    let box ← c.construct []
    c.set box "value" (.int 2)
    c.get box "value") {}

end ConstantArgument

open ConstantArgument in
/-- A field that is declared with a parameter as its type has a constant type for a constant
argument. It has no mark, and a host changes it. -/
theorem constant_argument_writable : ∃ h m e f t,
    (Header.load (.ofFiles [("main.h", text)]) [] "main.h").toOption = some h ∧
    (ofHeader h).exportModel .defaultPublic = .ok m ∧ e ∈ m.allClasses ∧ f ∈ e.fields ∧
    f.name = "value" ∧ f.type.denotesConst = true ∧ f.isConst = false ∧
    changed (.bind (.ofModel m) "Box" e) = .ok (.int 2, t) := by
  let found := (Header.load (.ofFiles [("main.h", text)]) [] "main.h").toOption
  have hfound : found.any (fun h => ((ofHeader h).exportModel .defaultPublic).toOption.any
      fun m => m.allClasses.any fun e => e.fields.any fun f =>
        f.name = "value" && f.type.denotesConst && f.isConst = false &&
          (changed (.bind (.ofModel m) "Box" e)).toOption.bind (·.1.int?) = some 2) = true := by
    decide +kernel
  simp only [Option.any_eq_true, List.any_eq_true, Bool.and_eq_true, decide_eq_true_eq] at hfound
  obtain ⟨h, hh, m, hm, e, he, f, hf, ⟨⟨hname, hconst⟩, hmark⟩, hchanged⟩ := hfound
  obtain ⟨⟨value, t⟩, hvalue, hint⟩ := Option.bind_eq_some_iff.1 hchanged
  refine ⟨h, m, e, f, t, hh, toOption_eq_some.1 hm, he, hf, hname, hconst, hmark, ?_⟩
  rw [toOption_eq_some.1 hvalue]
  cases value with
  | int i => rw [Option.some_inj.1 hint]
  | _ => cases hint

end HeaderUnit
end Bindery
