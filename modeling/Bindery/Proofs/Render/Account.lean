import Bindery.Proofs.Bound.Mirror
import Bindery.Proofs.Render.Marks

/-!
# What a lenient module owes to its model

A lenient module takes every item of its model exactly one way: a statement registers the item, or
the item is left out and a note says so. The account is over the lines of the text. Lines that are
copied into the module are not accounted for: the lines of a banner that is given, and those that
begin behind a line feed inside a text that is taken over as it is, such as an include.

## Main definitions

* `Item.Takes`: a statement that registers an item, or an omission of it.
* `ModuleSpec.tracedLines`: the lines of a lenient module, with where they come from.
* `ExportModel.Accounts`: lines that account for the items of a model.

## Main statements

* `ModuleSpec.render_accounts`: a lenient module accounts for the items of its model.
-/
namespace Bindery

/-! ## Shares -/

/-- What a part does about its subject: its statements, and what it leaves out. -/
def Part.shares (p : Part) : List (Except Omission String) :=
  (statements p.lines).map .ok ++ p.omission?.toList.map .error

theorem Part.reading_shares : Part.Reading Part.shares := by
  refine ⟨fun p => ?_, fun lines h => ?_⟩
  · rw [shares, lines_indent, omission?_indent, statements, markedTexts_indent]
    rfl
  · rw [shares, statements, show (scaffold lines).lines = lines from rfl,
      markedTexts_plain sparesPlain_isStatement _ h]
    rfl

theorem Part.reading_notes : Part.Reading fun p => notes p.lines := by
  refine ⟨fun p => ?_, fun lines h => markedTexts_plain sparesPlain_isNote _ h⟩
  rw [lines_indent, notes, markedTexts_indent, notes]

namespace Item

/-- How a statement that registers the item begins. -/
def lead : Item → String
  | constructor .. => "cls.def(py::init([]("
  | implicitConstructor _ => "cls.def(py::init<>());"
  | method _ m =>
    (if m.isStatic then "cls.def_static(" else "cls.def(") ++ inQuotes m.name ++ ", []("
  | field _ f =>
    (if f.isConst then "cls.def_property_readonly" else "cls.def_property") ++
      (if f.isStatic then "_static" else "") ++ "(" ++ inQuotes f.name ++ ", "
  | function host _ _ => "m.def(" ++ inQuotes host ++ ", []("
  | entryPoint _ name _ => "m.def(" ++ inQuotes name ++ ", [m]("

/-- What is done about the item: a statement that registers it, of which this is the first line, or
an omission under its name. -/
def Takes (i : Item) : Except Omission String → Prop
  | .ok line => ∃ rest, line = heading (i.lead ++ rest)
  | .error omission => omission.entity = i.entity

theorem isStatement_lead (i : Item) : isStatement i.lead = true := by
  have hclass {text : String} (h : beginsWith "cls.def" text = true) (rest : String) :
      isStatement (text ++ rest) = true := by
    rw [isStatement, beginsWith_append h, Bool.true_or]
  have hmodule {text : String} (h : beginsWith "m.def(" text = true) (rest : String) :
      isStatement (text ++ rest) = true := by
    rw [isStatement, beginsWith_append h, Bool.or_true]
  cases i with
  | constructor c k => exact show isStatement "cls.def(py::init([](" = true by decide
  | implicitConstructor c => exact show isStatement "cls.def(py::init<>());" = true by decide
  | method c m =>
    refine hclass (beginsWith_append ?_ _) _
    split <;> decide
  | field c f =>
    refine hclass (beginsWith_append (beginsWith_append (beginsWith_append ?_ _) _) _) _
    split <;> decide
  | function host callee f => exact hmodule (beginsWith_append (by decide) _) _
  | entryPoint t name group => exact hmodule (beginsWith_append (by decide) _) _

theorem isStatement_of_beginsWith (i : Item) {text : String} (h : beginsWith i.lead text = true) :
    isStatement text = true := by
  obtain ⟨rest, rfl⟩ := beginsWith_iff.1 h
  rcases Bool.or_eq_true_iff.1 i.isStatement_lead with h | h
  · rw [isStatement, beginsWith_append h, Bool.true_or]
  · rw [isStatement, beginsWith_append h, Bool.or_true]

/-- The item has one share in the part: a statement, or an omission. -/
def HasShare (i : Item) (p : Part) : Prop :=
  ∃ share, i.Takes share ∧ p.shares = [share] ∧ notes p.lines = []

/-- Lines with the statement of the item on one of them, and no other marks. -/
theorem hasShare_of_statement (i : Item) {lines : List SourceLine} {text : String}
    (htext : beginsWith i.lead text = true)
    (hlines : ∀ marked, SparesPlain marked →
      markedTexts marked lines = markedTexts marked [.flat text])
    (subject : Subject) (families : List ArrayFamily) :
    i.HasShare (.entry subject families (.ok lines)) := by
  obtain ⟨hstart, hstatement⟩ := start_of_isStatement (i.isStatement_of_beginsWith htext)
  obtain ⟨rest, hrest⟩ := beginsWith_iff.1 htext
  have hone (marked : String → Bool) :
      markedTexts marked [.flat text] = [heading text].filter marked := by
    rw [← hstart]
    rfl
  refine ⟨.ok (heading text), ⟨rest, by rw [hrest]⟩, ?_, ?_⟩
  · have hstatements : statements lines = [heading text] := by
      rw [statements, hlines _ sparesPlain_isStatement, hone]
      exact List.filter_cons_of_pos hstatement
    exact congrArg (fun texts : List String => texts.map Except.ok ++ []) hstatements
  · have hnone : notes lines = [] := by
      rw [notes, hlines _ sparesPlain_isNote, hone]
      exact List.filter_cons_of_neg (by rw [isNote_of_isStatement hstatement]; decide)
    exact hnone

theorem hasShare_ofCode (i : Item) {subject : Subject}
    {types : List (Except MarshalFault NativeType)} {code : Except MarshalFault (List SourceLine)}
    (hcode : ∀ lines, code = .ok lines → ∃ text, beginsWith i.lead text = true ∧
      ∀ marked, SparesPlain marked → markedTexts marked lines = markedTexts marked [.flat text]) :
    i.HasShare (.ofCode subject i.entity types code) := by
  cases code with
  | error fault => exact ⟨.error ⟨i.entity, _⟩, rfl, rfl, rfl⟩
  | ok lines =>
    obtain ⟨text, htext, hlines⟩ := hcode lines rfl
    exact i.hasShare_of_statement htext hlines subject _

theorem hasShare_ofText (i : Item) {subject : Subject}
    {types : List (Except MarshalFault NativeType)} {text : Except MarshalFault String}
    (htext : ∀ code, text = .ok code → ∃ rest, code = i.lead ++ rest) :
    i.HasShare (.ofText subject i.entity types text) := by
  refine i.hasShare_ofCode fun lines hlines => ?_
  cases text with
  | error fault => cases hlines
  | ok code =>
    cases hlines
    exact ⟨code, beginsWith_iff.2 (htext code rfl), fun _ _ => rfl⟩

theorem hasShare_part (i : Item) (r : Registry) : i.HasShare (i.part r) := by
  cases i with
  | constructor c k =>
    refine hasShare_ofText (constructor c k) fun code hcode => ?_
    obtain ⟨ps, -, hmake⟩ := bind_eq_ok.1 hcode
    cases hmake
    unfold ExportedClass.constructorCode
    simp only [lead, String.append_assoc]
    exact ⟨_, rfl⟩
  | implicitConstructor c =>
    exact (implicitConstructor c).hasShare_of_statement (beginsWith_self _) (fun _ _ => rfl) _ _
  | method c m =>
    refine hasShare_ofText (method c m) fun code hcode => ?_
    obtain ⟨ps, -, hcode⟩ := bind_eq_ok.1 hcode
    obtain ⟨result, -, hmake⟩ := bind_eq_ok.1 hcode
    cases hmake
    unfold ExportedClass.methodCode
    simp only [lead, String.append_assoc]
    split <;> exact ⟨_, rfl⟩
  | field c f =>
    refine hasShare_ofText (field c f) fun code hcode => ?_
    obtain ⟨native, -, hmake⟩ := bind_eq_ok.1 hcode
    cases hmake
    unfold ExportedClass.fieldCode
    simp only [lead, String.append_assoc]
    cases f.isStatic <;> cases f.isConst <;> exact ⟨_, rfl⟩
  | function host callee f =>
    refine hasShare_ofText (function host callee f) fun code hcode => ?_
    obtain ⟨ps, -, hcode⟩ := bind_eq_ok.1 hcode
    obtain ⟨result, -, hmake⟩ := bind_eq_ok.1 hcode
    cases hmake
    unfold FunctionEntity.code
    simp only [lead, String.append_assoc]
    exact ⟨_, rfl⟩
  | entryPoint t name group =>
    refine hasShare_ofCode (entryPoint t name group) fun lines hlines => ?_
    obtain ⟨catalogue, hcatalogue, hlines⟩ := bind_eq_ok.1 hlines
    cases hlines
    obtain ⟨entries, -, hmake⟩ := bind_eq_ok.1 hcatalogue
    cases hmake
    refine ⟨_, beginsWith_iff.2 ?_, fun marked hmarked => markedTexts_catalogue hmarked _ group⟩
    have hfront : ", [m](const py::args &args, const py::kwargs &kwargs) mutable " =
      ", [m](" ++ "const py::args &args, const py::kwargs &kwargs) mutable " := by decide
    have hname : (Catalogue.make name entries r).name = name := rfl
    unfold Catalogue.entryPointCode
    rw [hname, hfront]
    simp only [lead, String.append_assoc]
    exact ⟨_, rfl⟩

/-- Items and their shares go side by side. -/
theorem forall₂_takes (r : Registry) (items : List Item) :
    List.Forall₂ Takes items (items.flatMap fun i => (i.part r).shares) := by
  induction items with
  | nil => exact .nil
  | cons i items ih =>
    obtain ⟨share, htakes, hshares, -⟩ := i.hasShare_part r
    rw [List.flatMap_cons, hshares]
    exact .cons htakes ih

end Item

/-- The omission of a share. -/
def leftOut? : Except Omission String → Option Omission
  | .ok _ => none
  | .error omission => some omission

theorem Part.filterMap_shares (parts : List Part) :
    (parts.flatMap shares).filterMap Except.toOption = statements (parts.flatMap lines) ∧
      (parts.flatMap shares).filterMap leftOut? = parts.filterMap omission? := by
  have hstatements (p : Part) : p.shares.filterMap Except.toOption = statements p.lines := by
    rw [shares, List.filterMap_append, List.filterMap_map, List.filterMap_map]
    simp [Function.comp_def, Except.toOption]
  have homissions (p : Part) : p.shares.filterMap leftOut? = p.omission?.toList := by
    rw [shares, List.filterMap_append, List.filterMap_map, List.filterMap_map]
    simp [Function.comp_def, leftOut?]
  rw [List.filterMap_flatMap, List.filterMap_flatMap, statements, markedTexts_flatMap]
  refine ⟨List.flatMap_congr fun p _ => hstatements p, ?_⟩
  rw [List.flatMap_congr fun p _ => homissions p, List.filterMap_eq_flatMap_toList]

/-! ## The account of a module -/

/-- The lines of a lenient module, with where they come from. A banner that is given is copied. -/
def ModuleSpec.tracedLines (spec : ModuleSpec) (m : ExportModel) : List (LineOrigin × String) :=
  let ofBanner : LineOrigin := if spec.header.isSome then .copied else .written
  let front := spec.frontLines m (spec.lenientOmissions m)
  let body := (m.parts spec.name).flatMap Part.lines
  (spec.bannerLines.map SourceLine.flat).flatMap (·.spread ofBanner) ++
    (front.map SourceLine.flat ++ body).flatMap (·.spread .written)

/-- Lines and omissions account for the items of a model. Item by item there is a statement or an
omission, and a note on each omission, among the lines that are written. -/
structure ExportModel.Accounts (m : ExportModel) (lines : List (LineOrigin × String))
    (skipped : List Omission) (shares : List (Except Omission String)) : Prop where
  items : List.Forall₂ Item.Takes m.items shares
  statements : (writtenLines lines).filter isStatement = shares.filterMap Except.toOption
  omissions : skipped = shares.filterMap leftOut?
  notes : (writtenLines lines).filter isNote = skipped.map fun o => heading (ModuleSpec.skipLine o)
  instantiations : ∀ t ∈ m.templates,
    (t.entryPoints.entries.flatMap Prod.snd).Perm t.instantiations

namespace ModuleSpec

variable {u : HeaderUnit} {p : ExportPolicy} {m : ExportModel} {spec : ModuleSpec}

theorem textLines_lenientLines (spec : ModuleSpec) (m : ExportModel) :
    textLines (SourceLine.source (spec.lenientLines m)) = (spec.tracedLines m).map Prod.snd := by
  rw [SourceLine.textLines_source, lenientLines, tracedLines, List.map_append, List.append_assoc]
  simp only [List.map_append, List.flatMap_append, List.map_flatMap, SourceLine.map_snd_spread]

/-- A banner is copied or unmarked. -/
theorem filter_writtenLines (spec : ModuleSpec) (m : ExportModel) {marked : String → Bool}
    (hbanner : (banner.map start).filter marked = []) :
    (writtenLines (spec.tracedLines m)).filter marked =
      ((spec.frontLines m (spec.lenientOmissions m)).map start).filter marked ++
        markedTexts marked ((m.parts spec.name).flatMap Part.lines) := by
  have hown : (writtenLines ((spec.bannerLines.map SourceLine.flat).flatMap
      (·.spread (if spec.header.isSome then .copied else .written)))).filter marked = [] := by
    cases hheader : spec.header with
    | some header =>
      simp only [Option.isSome_some, if_true, writtenLines_flatMap_spread_copied, List.filter_nil]
    | none =>
      rw [bannerLines, hheader]
      simp only [Option.isSome_none, Bool.false_eq_true, if_false, writtenLines_flatMap_spread,
        List.map_map]
      exact hbanner
  rw [tracedLines, writtenLines_append, List.filter_append, hown, List.nil_append,
    writtenLines_flatMap_spread, ← markedTexts, markedTexts_append, markedTexts_flat]

/-- **A lenient module accounts for the items of its model**: each is registered by one statement or
left out once, in the order of the model, and there is one note for each that is left out. -/
theorem render_accounts (hm : u.exportModel p = .ok m) (hlenient : spec.strict = false) :
    ∃ out shares, spec.render m = .ok out ∧
      textLines out.text = (spec.tracedLines m).map Prod.snd ∧
      m.Accounts (spec.tracedLines m) out.skipped shares := by
  have hregular (c : ExportedClass) (hc : c ∈ m.allClasses) : c.Regular := by
    obtain ⟨d, -, owner, native, exportName, rfl⟩ := HeaderUnit.mem_allClasses_exportModel hm hc
    exact u.exportClass_regular p owner native exportName d
  obtain ⟨hstatements, homissions⟩ := Part.filterMap_shares (m.parts spec.name)
  obtain ⟨hfrontStatements, hfrontNotes⟩ := spec.filter_frontLines m (spec.lenientOmissions m)
  have hnotes : notes ((m.parts spec.name).flatMap Part.lines) = [] := by
    rw [notes, markedTexts_flatMap]
    refine (m.flatMap_parts Part.reading_notes hregular spec.name).trans ?_
    refine List.flatMap_eq_nil_iff.2 fun i _ => ?_
    obtain ⟨share, -, -, hnone⟩ := i.hasShare_part (Registry.ofModel m)
    exact hnone
  refine ⟨_, (m.parts spec.name).flatMap Part.shares, render_lenient hlenient m,
    spec.textLines_lenientLines m, ?_, ?_, homissions.symm, ?_, fun t _ => t.perm_instantiations⟩
  · rw [m.flatMap_parts Part.reading_shares hregular]
    exact Item.forall₂_takes _ _
  · rw [spec.filter_writtenLines m unmarked_banner.filter_eq_nil.1, hfrontStatements,
      List.nil_append]
    exact hstatements.symm
  · rw [spec.filter_writtenLines m unmarked_banner.filter_eq_nil.2, hfrontNotes]
    exact (congrArg _ hnotes).trans (List.append_nil _)

/-- A module with a banner that reads like a note. -/
def noted : ModuleSpec := { name := "test", header := some "// pxx: skipped by hand" }

/-- A module with an include that goes on with what reads like a note. -/
def notedInclude : ModuleSpec :=
  { name := "test", includes := ["\"x.h\"\n// pxx: skipped by hand"] }

theorem render_accounts_halfCrossing : ∃ m out shares,
    BoundModule.halfCrossing.exportModel .defaultPublic = .ok m ∧
      notedInclude.render m = .ok out ∧
      textLines out.text = (notedInclude.tracedLines m).map Prod.snd ∧
      m.Accounts (notedInclude.tracedLines m) out.skipped shares :=
  have ⟨out, shares, haccount⟩ :=
    @render_accounts BoundModule.halfCrossing .defaultPublic _ notedInclude rfl rfl
  ⟨_, out, shares, rfl, haccount⟩

/-- What stands in front of the body stands in the text. -/
theorem exists_render_mem (hlenient : spec.strict = false) (m : ExportModel) {text line : String}
    (htext : text ∈ spec.bannerLines ++ spec.frontLines m (spec.lenientOmissions m))
    (hline : line ∈ textLines (SourceLine.flat text).render) :
    ∃ out, spec.render m = .ok out ∧ out.skipped = spec.lenientOmissions m ∧
      line ∈ textLines out.text :=
  ⟨_, render_lenient hlenient m, rfl, SourceLine.mem_textLines_source
    (List.mem_append_left _ (List.mem_map_of_mem htext)) hline⟩

/-- Nothing is left out of an empty module, and yet a line of it reads like a note, if the banner or
an include has that line. -/
theorem note_without_omission : ∃ m out out',
    HeaderUnit.exportModel ⟨[], [], [], {}, []⟩ .defaultPublic = .ok m ∧
      noted.render m = .ok out ∧ out.skipped = [] ∧
      notedInclude.render m = .ok out' ∧ out'.skipped = [] ∧
      "// pxx: skipped by hand" ∈ textLines out.text ∧
      "// pxx: skipped by hand" ∈ textLines out'.text ∧
      isNote "// pxx: skipped by hand" = true := by
  obtain ⟨m, hm⟩ : ∃ m, HeaderUnit.exportModel ⟨[], [], [], {}, []⟩ .defaultPublic = .ok m :=
    ⟨_, rfl⟩
  have hbanner : "// pxx: skipped by hand" ∈ noted.bannerLines := by decide
  have hinclude : includeLine "\"x.h\"\n// pxx: skipped by hand" ∈
      notedInclude.frontLines m (notedInclude.lenientOmissions m) := by
    have htarget : notedInclude.sources.map inQuotes ++ notedInclude.includes.map includeTarget =
      ["\"x.h\"\n// pxx: skipped by hand"] := by decide
    refine List.mem_append_left _ (List.mem_append_left _ ?_)
    rw [headLines, htarget]
    simp
  have hnote : "// pxx: skipped by hand" ∈
      textLines (SourceLine.flat "// pxx: skipped by hand").render := by decide
  have hnote' : "// pxx: skipped by hand" ∈
      textLines (SourceLine.flat (includeLine "\"x.h\"\n// pxx: skipped by hand")).render := by
    decide
  obtain ⟨out, hout, hskipped, hline⟩ :=
    exists_render_mem rfl m (List.mem_append_left _ hbanner) hnote
  obtain ⟨out', hout', hskipped', hline'⟩ :=
    exists_render_mem rfl m (List.mem_append_right _ hinclude) hnote'
  cases hm
  exact ⟨_, out, out', rfl, hout, hskipped, hout', hskipped', hline, hline', by decide⟩

end ModuleSpec
end Bindery
