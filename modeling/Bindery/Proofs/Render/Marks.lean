import Bindery.Proofs.Position
import Bindery.Proofs.Render.Items
import Bindery.Proofs.Render.Lines
import Bindery.Proofs.Render.Strict

/-!
# Statements and notes of generated source

What a module registers and what it notes can be told by how its lines begin. Support code and the
lines that every module has are neither statements nor notes, and neither is the table in front of
the definition of an entry point. Only what is copied into a module can be any text.

## Main definitions

* `isStatement`, `isNote`: lines that register something, and notes on what is left out.
* `statements`, `notes`: those among the first lines of source lines.

## Main statements

* `markedTexts_catalogue`: the lines of an entry point have one statement.
* `ModuleSpec.filter_frontLines`: what stands in front of the body of a module.
-/
namespace Bindery

/-! ## Statements and notes -/

/-- The text begins with a front. -/
def beginsWith (front text : String) : Bool := front.toList.isPrefixOf text.toList

/-- The text registers something. -/
def isStatement (text : String) : Bool := beginsWith "cls.def" text || beginsWith "m.def(" text

/-- The text is a note on something that is left out. -/
def isNote (text : String) : Bool := beginsWith "// pxx: skipped" text

theorem beginsWith_iff {front text : String} :
    beginsWith front text = true ↔ ∃ rest, text = front ++ rest := by
  rw [beginsWith, List.isPrefixOf_iff_prefix]
  constructor
  · rintro ⟨rest, hrest⟩
    exact ⟨String.ofList rest, String.toList_injective (by simp [← hrest])⟩
  · rintro ⟨rest, rfl⟩
    exact ⟨rest.toList, (String.toList_append).symm⟩

theorem beginsWith_self (text : String) : beginsWith text text = true :=
  beginsWith_iff.2 ⟨"", (String.append_empty).symm⟩

theorem beginsWith_append {front text : String} (h : beginsWith front text = true)
    (rest : String) : beginsWith front (text ++ rest) = true := by
  obtain ⟨middle, rfl⟩ := beginsWith_iff.1 h
  exact beginsWith_iff.2 ⟨middle ++ rest, String.append_assoc ..⟩

/-- A text has no front beside another, unless one of the two begins with the other. -/
theorem beginsWith_eq_false {front front' text : String} (h : beginsWith front' text = true)
    (hfronts : (beginsWith front front' || beginsWith front' front) = false) :
    beginsWith front text = false := by
  refine Bool.eq_false_iff.2 fun hbegins => Bool.eq_false_iff.1 hfronts ?_
  rw [beginsWith, List.isPrefixOf_iff_prefix] at h hbegins
  rw [Bool.or_eq_true]
  exact (List.prefix_or_prefix_of_prefix hbegins h).imp List.isPrefixOf_iff_prefix.2
    List.isPrefixOf_iff_prefix.2

theorem head?_of_beginsWith {front text : String} (h : beginsWith front text = true)
    (hne : front.toList ≠ []) : text.toList.head? = front.toList.head? := by
  obtain ⟨rest, rfl⟩ := beginsWith_iff.1 h
  rw [String.toList_append, List.head?_append_of_ne_nil _ hne]

theorem head?_of_isStatement {text : String} (h : isStatement text = true) :
    text.toList.head? = some 'c' ∨ text.toList.head? = some 'm' := by
  rcases Bool.or_eq_true_iff.1 h with h | h
  · exact .inl (head?_of_beginsWith h (by decide))
  · exact .inr (head?_of_beginsWith h (by decide))

theorem head?_of_isNote {text : String} (h : isNote text = true) :
    text.toList.head? = some '/' :=
  head?_of_beginsWith h (by decide)

/-- No text is a statement and a note. -/
theorem isNote_of_isStatement {text : String} (h : isStatement text = true) :
    isNote text = false := by
  rcases Bool.or_eq_true_iff.1 h with h | h
  · exact beginsWith_eq_false h (by decide)
  · exact beginsWith_eq_false h (by decide)

/-! ## Marks of first lines -/

/-- What a text does not begin with behind its indentation, its first line does not. -/
theorem beginsWith_start {front text : String} (h : beginsWith front (unindented text) = false) :
    beginsWith front (start text) = false := by
  refine Bool.eq_false_iff.2 fun hstart => Bool.eq_false_iff.1 h ?_
  rw [beginsWith, List.isPrefixOf_iff_prefix] at hstart ⊢
  exact hstart.trans (start_prefix_unindented text)

/-- The text is on one line, and not behind an indentation. -/
def isFlush (text : String) : Bool :=
  text.toList.all (fun c => c != '\n' && c != '\r') && text.toList.head?.any (· != ' ')

/-- A text that begins flush has its beginning on its first line. -/
theorem start_of_beginsWith {front text : String} (hfront : isFlush front = true)
    (h : beginsWith front text = true) :
    start text = heading text ∧ beginsWith front (heading text) = true := by
  obtain ⟨hline, hhead⟩ := Bool.and_eq_true_iff.1 hfront
  obtain ⟨rest, rfl⟩ := beginsWith_iff.1 h
  have hheading := heading_append (by simpa using hline) rest
  refine ⟨?_, beginsWith_iff.2 ⟨_, hheading⟩⟩
  rw [start, unindented_of_head?, hheading]
  rw [hheading, String.toList_append]
  cases hchars : front.toList with
  | nil => simp [hchars] at hhead
  | cons c cs => simpa [hchars] using hhead

theorem start_of_isStatement {text : String} (h : isStatement text = true) :
    start text = heading text ∧ isStatement (heading text) = true := by
  rcases Bool.or_eq_true_iff.1 h with h | h
  · obtain ⟨hstart, hbegins⟩ := start_of_beginsWith (by decide) h
    exact ⟨hstart, by rw [isStatement, hbegins, Bool.true_or]⟩
  · obtain ⟨hstart, hbegins⟩ := start_of_beginsWith (by decide) h
    exact ⟨hstart, by rw [isStatement, hbegins, Bool.or_true]⟩

theorem isStatement_start {text : String} (h : isStatement (unindented text) = false) :
    isStatement (start text) = false := by
  rw [isStatement, Bool.or_eq_false_iff] at h ⊢
  exact h.imp beginsWith_start beginsWith_start

theorem isNote_start {text : String} (h : isNote (unindented text) = false) :
    isNote (start text) = false :=
  beginsWith_start h

/-! ## Marked lines -/

/-- The first lines that are marked in some way. -/
def markedTexts (marked : String → Bool) (lines : List SourceLine) : List String :=
  (lines.map fun l => start l.text).filter marked

/-- The statements among lines. -/
def statements (lines : List SourceLine) : List String := markedTexts isStatement lines

/-- The notes among lines. -/
def notes (lines : List SourceLine) : List String := markedTexts isNote lines

/-- No plain text is marked. -/
def SparesPlain (marked : String → Bool) : Prop :=
  ∀ text, isPlainText text = true → marked (start text) = false

theorem unindented_of_isPlainText {text : String} (h : isPlainText text = true) :
    unindented text = text := by
  refine unindented_of_head? fun hhead => ?_
  rw [isPlainText, hhead] at h
  cases h

theorem sparesPlain_isStatement : SparesPlain isStatement := by
  intro text h
  refine isStatement_start ?_
  rw [unindented_of_isPlainText h]
  refine Bool.eq_false_iff.2 fun hfound => ?_
  rw [isPlainText] at h
  rcases head?_of_isStatement hfound with hhead | hhead
  · rw [hhead] at h
    cases h
  · rw [hhead] at h
    cases h

theorem sparesPlain_isNote : SparesPlain isNote := by
  intro text h
  refine isNote_start ?_
  rw [unindented_of_isPlainText h]
  refine Bool.eq_false_iff.2 fun hfound => ?_
  rw [isPlainText, head?_of_isNote hfound] at h
  cases h

section Marked

variable {marked : String → Bool}

theorem markedTexts_append (xs ys : List SourceLine) :
    markedTexts marked (xs ++ ys) = markedTexts marked xs ++ markedTexts marked ys := by
  rw [markedTexts, List.map_append, List.filter_append, markedTexts, markedTexts]

theorem markedTexts_indent (lines : List SourceLine) :
    markedTexts marked (lines.map SourceLine.indent) = markedTexts marked lines := by
  rw [markedTexts, List.map_map]
  rfl

theorem markedTexts_flat (texts : List String) :
    markedTexts marked (texts.map SourceLine.flat) = (texts.map start).filter marked := by
  rw [markedTexts, List.map_map]
  rfl

theorem markedTexts_flatMap {α : Type} (f : α → List SourceLine) (xs : List α) :
    markedTexts marked (xs.flatMap f) = xs.flatMap fun x => markedTexts marked (f x) := by
  rw [markedTexts, List.map_flatMap, List.filter_flatMap]
  rfl

variable (hmarked : SparesPlain marked)

include hmarked

theorem markedTexts_plain (lines : List SourceLine)
    (h : ∀ l ∈ lines, isPlainText l.text = true) :
    markedTexts marked lines = [] := by
  refine List.filter_eq_nil_iff.2 fun text htext => ?_
  obtain ⟨l, hl, rfl⟩ := List.mem_map.1 htext
  rw [hmarked l.text (h l hl)]
  exact Bool.false_ne_true

theorem markedTexts_block {header : String} (h : isPlainText header = true)
    (body : List SourceLine) (rest : String) :
    markedTexts marked (SourceLine.block header body rest) = markedTexts marked body := by
  have hopening := isPlainText_opening h
  have hclosing : isPlainText (SourceLine.closing rest).text = true := by
    rw [SourceLine.closing, SourceLine.flat, isPlainText_append "\x7d" (by decide)]
    decide
  rw [SourceLine.block, List.cons_append, ← List.singleton_append, markedTexts_append,
    markedTexts_append, markedTexts_plain hmarked [.opening header] (by simpa using hopening),
    markedTexts_plain hmarked [.closing rest] (by simpa using hclosing), markedTexts_indent,
    List.nil_append, List.append_nil]

/-- Around the definition of an entry point there is nothing but its table. -/
theorem markedTexts_catalogue (c : Catalogue) (group : List ExportedInstantiation) :
    markedTexts marked (c.lines group) = markedTexts marked [.flat c.entryPointCode] := by
  have hsignature (s : SignaturePattern) : isPlainText s.code = true := by
    unfold SignaturePattern.code
    simp only [String.append_assoc]
    rw [isPlainText_append "pxx_runtime::Signature\x7b\x7b" (by decide)]
    decide
  have hentry (e : CatalogueEntry) : markedTexts marked (e.lines group) = [] := by
    rw [CatalogueEntry.lines, markedTexts_block hmarked, markedTexts_plain hmarked]
    · simp [SourceLine.flat, hsignature]
    · unfold CatalogueEntry.headCode
      simp only [String.append_assoc]
      rw [isPlainText_append "\x7b" (by decide)]
      decide
  have htable : isPlainText c.headCode = true := by
    unfold Catalogue.headCode
    simp only [String.append_assoc]
    rw [isPlainText_append "static const pxx_runtime::Catalogue " (by decide)]
    decide
  rw [Catalogue.lines, ← List.singleton_append, markedTexts_append,
    markedTexts_plain hmarked [.blank] (by decide),
    markedTexts_block hmarked (by decide), markedTexts_append, markedTexts_block hmarked htable,
    markedTexts_flatMap, List.nil_append]
  simp only [hentry]
  simp

end Marked

/-! ## In front of the body -/

/-- None of the texts is marked. -/
def Unmarked (texts : List String) : Prop :=
  ∀ t ∈ texts, isStatement (start t) = false ∧ isNote (start t) = false

theorem unmarked_nil : Unmarked [] := fun _ ht => nomatch ht

theorem Unmarked.append {front back : List String} (hfront : Unmarked front)
    (hback : Unmarked back) : Unmarked (front ++ back) := fun t ht =>
  (List.mem_append.1 ht).elim (hfront t) (hback t)

theorem Unmarked.filter_eq_nil {texts : List String} (h : Unmarked texts) :
    (texts.map start).filter isStatement = [] ∧ (texts.map start).filter isNote = [] := by
  constructor
  · exact List.filter_eq_nil_iff.2 (List.forall_mem_map.2 fun t ht => by simp [(h t ht).1])
  · exact List.filter_eq_nil_iff.2 (List.forall_mem_map.2 fun t ht => by simp [(h t ht).2])

theorem unmarked_of_isPlainText {texts : List String} (h : ∀ t ∈ texts, isPlainText t = true) :
    Unmarked texts := fun t ht =>
  ⟨sparesPlain_isStatement t (h t ht), sparesPlain_isNote t (h t ht)⟩

/-- The byte of a blank. -/
def blankByte : UInt8 := 32

theorem encoded_prefix_dropWhile {front : List Char}
    (hblank : (encoded front).head?.any (· ≠ blankByte)) (cs : List Char)
    (h : front <+: cs.dropWhile (· = ' ')) :
    encoded front <+: (encoded cs).dropWhile (· = blankByte) := by
  induction cs with
  | nil =>
    obtain rfl := List.prefix_nil.1 h
    exact List.nil_prefix
  | cons c cs ih =>
    by_cases hc : c = ' '
    · rw [List.dropWhile_cons_of_pos (by simpa using hc)] at h
      rw [hc]
      exact ih h
    · rw [List.dropWhile_cons_of_neg (by simpa using hc)] at h
      obtain ⟨rest, hrest⟩ := h
      rw [← hrest, encoded_append]
      cases hbytes : encoded front with
      | nil => simp [hbytes] at hblank
      | cons b bs =>
        rw [List.cons_append, List.dropWhile_cons_of_neg (by simpa [hbytes] using hblank)]
        exact List.prefix_append (b :: bs) _

/-- Judged by its bytes, the text is marked behind its indentation. -/
def looksMarked (text : String) : Bool :=
  ["cls.def", "m.def(", "// pxx: skipped"].any fun front =>
    (utf8Bytes front).isPrefixOf ((utf8Bytes text).dropWhile (· = blankByte))

theorem unmarked_of_looksMarked {texts : List String} (h : ∀ t ∈ texts, looksMarked t = false) :
    Unmarked texts := by
  have hfront (front : String) (hmem : front ∈ ["cls.def", "m.def(", "// pxx: skipped"])
      (hblank : (encoded front.toList).head?.any (· ≠ blankByte))
      (t : String) (ht : t ∈ texts) : beginsWith front (unindented t) = false := by
    rw [Bool.eq_false_iff]
    intro hbegins
    rw [beginsWith, List.isPrefixOf_iff_prefix, unindented, String.toList_ofList] at hbegins
    have hprefix := encoded_prefix_dropWhile hblank t.toList hbegins
    rw [← utf8Bytes_eq, ← utf8Bytes_eq] at hprefix
    have hlooks : looksMarked t = true :=
      List.any_eq_true.2 ⟨front, hmem, List.isPrefixOf_iff_prefix.2 hprefix⟩
    exact Bool.false_ne_true ((h t ht).symm.trans hlooks)
  refine fun t ht => ⟨isStatement_start ?_, isNote_start (hfront _ (by simp) (by decide) t ht)⟩
  rw [isStatement, hfront _ (by simp) (by decide) t ht, hfront _ (by simp) (by decide) t ht]
  rfl

namespace ModuleSpec

theorem unmarked_banner : Unmarked banner := unmarked_of_looksMarked (by decide +kernel)

theorem unmarked_includeLines (targets : List String) : Unmarked (targets.map includeLine) := by
  refine unmarked_of_isPlainText fun t ht => ?_
  obtain ⟨target, -, rfl⟩ := List.mem_map.1 ht
  rw [includeLine, isPlainText_append "#include " (by decide)]
  decide

theorem unmarked_supportLines (families : List ArrayFamily) : Unmarked (supportLines families) := by
  have hcore : Unmarked (Prelude.core ++ [""]) := unmarked_of_looksMarked (by decide +kernel)
  have hmatrices : Unmarked (Prelude.matrices ++ [""]) :=
    unmarked_of_looksMarked (by decide +kernel)
  have htensors : Unmarked (Prelude.tensors ++ [""]) := unmarked_of_looksMarked (by decide +kernel)
  refine (hcore.append ?_).append ?_
  · split
    · exact hmatrices
    · exact unmarked_nil
  · split
    · exact htensors
    · exact unmarked_nil

theorem unmarked_generatedFrom (files : String) : Unmarked ["// Generated from: " ++ files] := by
  intro t ht
  rw [List.mem_singleton.1 ht]
  obtain ⟨hstart, hbegins⟩ := start_of_beginsWith (by decide)
    (beginsWith_append (beginsWith_self "// Generated from: ") files)
  rw [hstart, isStatement, Bool.or_eq_false_iff]
  exact ⟨⟨beginsWith_eq_false hbegins (by decide), beginsWith_eq_false hbegins (by decide)⟩,
    beginsWith_eq_false hbegins (by decide)⟩

theorem unmarked_headLines (spec : ModuleSpec) (m : ExportModel) (families : List ArrayFamily) :
    Unmarked (spec.headLines m families) := by
  have hblank : Unmarked [""] := unmarked_of_isPlainText (by decide)
  have hnamespace : Unmarked ["namespace py = pybind11;", ""] :=
    unmarked_of_isPlainText (by decide)
  have hfiles : Unmarked (if m.files.isEmpty then []
      else ["// Generated from: " ++ ", ".intercalate (m.files.map fileLabel)]) := by
    split
    · exact unmarked_nil
    · exact unmarked_generatedFrom _
  have hown (own : List String) : Unmarked (if own.isEmpty then [] else [""]) := by
    split
    · exact unmarked_nil
    · exact hblank
  have hstandard := hfiles.append hblank |>.append (unmarked_includeLines standardHeaders)
  have hbinding := hstandard.append hblank |>.append
    (unmarked_includeLines (bindingHeaders families))
  exact hbinding.append hblank |>.append (unmarked_includeLines _) |>.append (hown _) |>.append
    hnamespace

/-- The notes are on what is left out, one each. -/
theorem filter_skipLines (skipped : List Omission) :
    ((skipLines skipped).map start).filter isStatement = [] ∧
      ((skipLines skipped).map start).filter isNote =
        skipped.map fun o => heading (skipLine o) := by
  have hnote (o : Omission) : start (skipLine o) = heading (skipLine o) ∧
      isNote (heading (skipLine o)) = true := by
    refine start_of_beginsWith (by decide) ?_
    unfold skipLine
    exact beginsWith_append (beginsWith_append (beginsWith_append (beginsWith_append
      (by decide) _) _) _) _
  have hstatement (o : Omission) : isStatement (heading (skipLine o)) = false :=
    Bool.eq_false_iff.2 fun hfound =>
      Bool.false_ne_true ((isNote_of_isStatement hfound).symm.trans (hnote o).2)
  have hend : Unmarked (if skipped.isEmpty then [] else [""]) := by
    split
    · exact unmarked_nil
    · exact unmarked_of_isPlainText (by decide)
  have hstart : (skipped.map skipLine).map start = skipped.map fun o => heading (skipLine o) := by
    rw [List.map_map]
    exact List.map_congr_left fun o _ => (hnote o).1
  rw [skipLines, List.map_append, List.filter_append, List.filter_append, hend.filter_eq_nil.1,
    hend.filter_eq_nil.2, List.append_nil, List.append_nil, hstart]
  constructor
  · exact List.filter_eq_nil_iff.2 (List.forall_mem_map.2 fun o _ => by simp [hstatement])
  · exact List.filter_eq_self.2 (List.forall_mem_map.2 fun o _ => (hnote o).2)

/-- Between the banner and the body there are the notes on what is left out. -/
theorem filter_frontLines (spec : ModuleSpec) (m : ExportModel) (skipped : List Omission) :
    ((spec.frontLines m skipped).map start).filter isStatement = [] ∧
      ((spec.frontLines m skipped).map start).filter isNote =
        skipped.map fun o => heading (skipLine o) := by
  let families := (m.parts spec.name).flatMap Part.families
  obtain ⟨hstatements, hnotes⟩ :=
    ((spec.unmarked_headLines m families).append (unmarked_supportLines families)).filter_eq_nil
  obtain ⟨hskipStatements, hskipNotes⟩ := filter_skipLines skipped
  rw [frontLines, List.map_append, List.filter_append, List.filter_append]
  exact ⟨by rw [hstatements, hskipStatements, List.append_nil],
    by rw [hnotes, hskipNotes, List.nil_append]⟩

end ModuleSpec
end Bindery
