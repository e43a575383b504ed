import Bindery.Render.Line
import Mathlib.Data.List.Flatten

/-!
# The lines of generated source

The text of source lines is cut at line feeds. A source line starts one line of the text, behind
its indentation; if its own text holds line feeds, further lines follow, and these are copied from
what the source line was made of.

## Main definitions

* `heading`: the first line of a text.
* `unindented`: a line without its indentation.
* `SourceLine.spread`: the lines that a source line takes up.

## Main statements

* `SourceLine.textLines_source`: the lines of a text are those of its source lines.
-/
namespace Bindery

/-! ## Cutting at line feeds -/

theorem textLineChars_ne_nil {cs : List Char} (h : cs ≠ []) : textLineChars cs ≠ [] := by
  unfold textLineChars
  split
  · exact absurd rfl h
  · exact List.cons_ne_nil _ _
  · exact List.cons_ne_nil _ _
  · split <;> exact List.cons_ne_nil _ _

/-- A character in front of others ends the first line or belongs to it. -/
theorem textLineChars_cons (c : Char) {cs : List Char} (h : cs ≠ []) : textLineChars (c :: cs) =
    if c = '\n' then [] :: textLineChars cs
    else if c = '\r' ∧ cs.head? = some '\n' then textLineChars cs
    else (textLineChars cs).modifyHead (c :: ·) := by
  obtain ⟨d, cs, rfl⟩ := List.exists_cons_of_ne_nil h
  obtain ⟨line, lines, hlines⟩ := List.exists_cons_of_ne_nil (textLineChars_ne_nil h)
  by_cases hfeed : c = '\n'
  · rw [if_pos hfeed, hfeed]
    rfl
  by_cases hreturn : c = '\r' ∧ d = '\n'
  · obtain ⟨rfl, rfl⟩ := hreturn
    rfl
  rw [if_neg hfeed, if_neg (by simpa using hreturn), hlines, List.modifyHead_cons]
  unfold textLineChars
  split
  · next heq => exact absurd heq (List.cons_ne_nil _ _)
  · next heq =>
    obtain ⟨hc, hd, -⟩ : c = '\r' ∧ d = '\n' ∧ cs = _ := by simpa using heq
    exact absurd ⟨hc, hd⟩ hreturn
  · next heq => exact absurd (List.cons.inj heq).1 hfeed
  · next heq =>
    obtain ⟨rfl, rfl⟩ := List.cons.inj heq
    rw [hlines]

/-- A line feed ends a line, whatever follows. -/
theorem textLineChars_line (xs ys : List Char) :
    textLineChars (xs ++ '\n' :: ys) = textLineChars (xs ++ ['\n']) ++ textLineChars ys := by
  induction xs with
  | nil => rfl
  | cons c xs ih =>
    have hhead : (xs ++ '\n' :: ys).head? = (xs ++ ['\n']).head? := by cases xs <;> rfl
    obtain ⟨line, lines, hlines⟩ :=
      List.exists_cons_of_ne_nil (textLineChars_ne_nil (by simp : xs ++ ['\n'] ≠ []))
    rw [List.cons_append, List.cons_append, textLineChars_cons c (by simp),
      textLineChars_cons c (by simp), hhead, ih, hlines]
    split
    · rfl
    · split <;> rfl

/-- The first line in front of a line feed is a prefix. -/
theorem exists_textLineChars_eq (xs : List Char) :
    ∃ line lines, textLineChars (xs ++ ['\n']) = line :: lines ∧ line <+: xs := by
  induction xs with
  | nil => exact ⟨[], [], rfl, List.nil_prefix⟩
  | cons c xs ih =>
    obtain ⟨line, lines, hlines, hprefix⟩ := ih
    rw [List.cons_append, textLineChars_cons c (by simp), hlines]
    split
    · exact ⟨_, _, rfl, List.nil_prefix⟩
    · split
      · next hreturn =>
        obtain ⟨rest, hrest⟩ : ∃ rest, xs ++ ['\n'] = '\n' :: rest := by
          cases xs with
          | nil => exact ⟨_, rfl⟩
          | cons d xs =>
            obtain ⟨-, rfl⟩ : c = '\r' ∧ d = '\n' := by simpa using hreturn
            exact ⟨_, rfl⟩
        rw [hrest] at hlines
        exact ⟨_, _, rfl, (List.cons.inj hlines).1 ▸ List.nil_prefix⟩
      · exact ⟨_, _, rfl, List.cons_prefix_cons.2 ⟨rfl, hprefix⟩⟩

/-- What has no end of a line in it goes to the first line. -/
theorem textLineChars_append {front : List Char} (hfront : ∀ c ∈ front, c ≠ '\n' ∧ c ≠ '\r')
    (xs : List Char) : textLineChars (front ++ (xs ++ ['\n'])) =
      (textLineChars (xs ++ ['\n'])).modifyHead (front ++ ·) := by
  induction front with
  | nil => exact (congrFun List.modifyHead_id _).symm
  | cons c front ih =>
    obtain ⟨hc, hfront⟩ := List.forall_mem_cons.1 hfront
    rw [List.cons_append, textLineChars_cons c (by simp), if_neg hc.1,
      if_neg fun h => hc.2 h.1, ih hfront, List.modifyHead_modifyHead]
    rfl

/-! ## First lines -/

/-- The first line of a text. -/
def heading (text : String) : String := (textLines (text ++ "\n")).headD ""

/-- A line without its indentation. -/
def unindented (line : String) : String := String.ofList (line.toList.dropWhile (· = ' '))

/-- The first line of a text, without its indentation. -/
def start (text : String) : String := unindented (heading text)

theorem textLines_line (xs ys : String) :
    textLines (xs ++ "\n" ++ ys) = textLines (xs ++ "\n") ++ textLines ys := by
  simp only [textLines, String.toList_append, List.append_assoc, ← List.map_append]
  exact congrArg _ (textLineChars_line xs.toList ys.toList)

theorem exists_textLines_eq (text : String) :
    ∃ rest, textLines (text ++ "\n") = heading text :: rest := by
  obtain ⟨line, lines, hlines, -⟩ := exists_textLineChars_eq text.toList
  have htext : textLines (text ++ "\n") = String.ofList line :: lines.map String.ofList := by
    rw [textLines, String.toList_append]
    exact congrArg (List.map String.ofList) hlines
  exact ⟨_, by rw [heading, htext]; rfl⟩

/-- A text begins with its first line. -/
theorem heading_prefix_text (text : String) : (heading text).toList <+: text.toList := by
  obtain ⟨line, lines, hlines, hprefix⟩ := exists_textLineChars_eq text.toList
  rw [heading, textLines, String.toList_append]
  simpa [hlines] using hprefix

/-- What has no end of a line in it stays in front. -/
theorem textLines_append_line {front : String} (hfront : ∀ c ∈ front.toList, c ≠ '\n' ∧ c ≠ '\r')
    (text : String) : textLines (front ++ text ++ "\n") =
      (textLines (text ++ "\n")).modifyHead (front ++ ·) := by
  obtain ⟨line, lines, hlines, -⟩ := exists_textLineChars_eq text.toList
  have happend := textLineChars_append hfront text.toList
  rw [hlines] at happend
  simp [textLines, String.append_assoc, happend, hlines, String.ofList_append]

theorem heading_append {front : String} (hfront : ∀ c ∈ front.toList, c ≠ '\n' ∧ c ≠ '\r')
    (text : String) : heading (front ++ text) = front ++ heading text := by
  obtain ⟨rest, hrest⟩ := exists_textLines_eq text
  rw [heading, textLines_append_line hfront, hrest]
  rfl

/-! ## Source lines -/

/-- Where a line comes from: it is written as a line, or copied with a text that is taken over. -/
inductive LineOrigin where
  | written
  | copied
deriving DecidableEq

namespace SourceLine

/-- The lines that a source line takes up. Behind a line feed inside of it they are copied. -/
def spread (origin : LineOrigin) (l : SourceLine) : List (LineOrigin × String) :=
  match textLines l.render with
  | [] => []
  | first :: rest => (origin, first) :: rest.map (.copied, ·)

theorem map_snd_spread (origin : LineOrigin) (l : SourceLine) :
    (l.spread origin).map Prod.snd = textLines l.render := by
  unfold spread
  split <;> simp [*, Function.comp_def]

/-- A line ends with a line feed, behind its indentation and its text. -/
theorem render_eq (l : SourceLine) : ∃ n, l.render = "".pushn ' ' n ++ l.text ++ "\n" := by
  unfold render
  split
  · next h => exact ⟨0, by rw [h]; rfl⟩
  · exact ⟨_, rfl⟩

/-- **The lines of a text are those of its source lines.** -/
theorem textLines_source (lines : List SourceLine) :
    textLines (source lines) = lines.flatMap fun l => textLines l.render := by
  induction lines with
  | nil => rfl
  | cons l lines ih =>
    obtain ⟨n, hrender⟩ := l.render_eq
    rw [source, List.map_cons, String.join_cons, hrender, textLines_line, ← hrender,
      List.flatMap_cons, ← ih, source]

theorem mem_textLines_source {lines : List SourceLine} {l : SourceLine} (hl : l ∈ lines)
    {line : String} (hline : line ∈ textLines l.render) : line ∈ textLines (source lines) := by
  rw [textLines_source]
  exact List.mem_flatMap.2 ⟨l, hl, hline⟩

end SourceLine

/-- The lines that are written, without their indentation. -/
def writtenLines (lines : List (LineOrigin × String)) : List String :=
  (lines.filter (·.1 = .written)).map fun l => unindented l.2

theorem writtenLines_append (xs ys : List (LineOrigin × String)) :
    writtenLines (xs ++ ys) = writtenLines xs ++ writtenLines ys := by
  rw [writtenLines, List.filter_append, List.map_append, writtenLines, writtenLines]

theorem writtenLines_copied (lines : List String) :
    writtenLines (lines.map (LineOrigin.copied, ·)) = [] := by
  simp [writtenLines, List.filter_map, Function.comp_def]

namespace SourceLine

theorem toList_pushn (n : Nat) : ("".pushn ' ' n).toList = List.replicate n ' ' := by
  rw [String.pushn_eq_repeat_push]
  induction n with
  | zero => rfl
  | succ n ih => rw [Nat.repeat, String.toList_push, ih, List.replicate_succ']

/-- In the text, a source line starts behind its indentation. -/
theorem exists_textLines_render_eq (l : SourceLine) :
    ∃ n rest, textLines l.render = ("".pushn ' ' n ++ heading l.text) :: rest := by
  obtain ⟨n, hrender⟩ := l.render_eq
  obtain ⟨rest, hrest⟩ := exists_textLines_eq l.text
  have hblanks : ∀ c ∈ ("".pushn ' ' n).toList, c ≠ '\n' ∧ c ≠ '\r' := by
    intro c hc
    rw [toList_pushn] at hc
    rw [List.eq_of_mem_replicate hc]
    decide
  exact ⟨n, rest, by rw [hrender, textLines_append_line hblanks, hrest]; rfl⟩

theorem writtenLines_spread (l : SourceLine) :
    writtenLines (l.spread .written) = [start l.text] := by
  obtain ⟨n, rest, hlines⟩ := l.exists_textLines_render_eq
  have hstart : unindented ("".pushn ' ' n ++ heading l.text) = start l.text := by
    rw [unindented, String.toList_append, toList_pushn, List.dropWhile_append_of_pos, start,
      unindented]
    intro c hc
    simpa using List.eq_of_mem_replicate hc
  have hspread : l.spread .written = [(.written, "".pushn ' ' n ++ heading l.text)] ++
      rest.map (LineOrigin.copied, ·) := by
    rw [spread, hlines]
    rfl
  rw [hspread, writtenLines_append, writtenLines_copied, List.append_nil, ← hstart]
  rfl

theorem writtenLines_spread_copied (l : SourceLine) : writtenLines (l.spread .copied) = [] := by
  have hcopied : l.spread .copied = (textLines l.render).map (LineOrigin.copied, ·) := by
    unfold spread
    split <;> simp [*]
  rw [hcopied, writtenLines_copied]

end SourceLine

theorem writtenLines_flatMap_spread (lines : List SourceLine) :
    writtenLines (lines.flatMap (·.spread .written)) = lines.map fun l => start l.text := by
  induction lines with
  | nil => rfl
  | cons l lines ih =>
    rw [List.flatMap_cons, writtenLines_append, l.writtenLines_spread, ih]
    rfl

theorem writtenLines_flatMap_spread_copied (lines : List SourceLine) :
    writtenLines (lines.flatMap (·.spread .copied)) = [] := by
  induction lines with
  | nil => rfl
  | cons l lines ih =>
    rw [List.flatMap_cons, writtenLines_append, l.writtenLines_spread_copied, ih]
    rfl

/-! ## What a first line begins with -/

theorem unindented_of_head? {text : String} (h : text.toList.head? ≠ some ' ') :
    unindented text = text := by
  rw [unindented]
  cases htext : text.toList with
  | nil => rw [List.dropWhile_nil, ← htext, String.ofList_toList]
  | cons c cs =>
    rw [List.dropWhile_cons_of_neg (by simpa [htext] using h), ← htext, String.ofList_toList]

/-- The first line of a text begins with nothing that the text does not begin with. -/
theorem start_prefix_unindented (text : String) :
    (start text).toList <+: (unindented text).toList := by
  obtain ⟨rest, hrest⟩ := heading_prefix_text text
  rw [start, unindented, unindented, ← hrest, String.toList_ofList, String.toList_ofList,
    List.dropWhile_append]
  split
  · next hblank =>
    rw [List.isEmpty_iff.1 hblank]
    exact List.nil_prefix
  · exact List.prefix_append _ _

end Bindery
