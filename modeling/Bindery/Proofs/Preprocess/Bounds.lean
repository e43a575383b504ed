import Bindery.Proofs.Preprocess.Attribution
import Bindery.Proofs.Preprocess.Expansion
import Bindery.Proofs.Preprocess.Groups
import Bindery.Proofs.Preprocess.SelfContained
import Mathlib

/-!
# What bounds a run

Files may include themselves and each other, and what a file holds depends on the macros that are
defined when it is read. Includes are nested only so deep, though, and every step either reads a
token of an open file or closes one. A token with `n` levels of nesting left stands for itself or
for a file, whose tokens have `n - 1` levels left, so the steps that are still possible can be
counted beforehand. Every place that is remembered on the way lies in a file that was read.

## Main definitions

* `Sources.longest`: the number of tokens of the longest file.
* `Moment.work`: how many steps are left at most.
* `Moment.Bounded`: open files are few, and every place is in a file that was read.

## Main statements

* `Moment.Moves.work_lt`: each step leaves less work.
* `Moment.run_bounded`: a run ends, within a number of steps that depends on the files only.
-/
namespace Bindery

/-! ## Steps -/

namespace Sources

/-- The number of tokens of the longest file. -/
def longest (sources : Sources) : Nat :=
  (sources.files.map fun f => (Token.scan f.2).length).foldr max 0

theorem length_scan_le {sources : Sources} {path : Path} {text : String}
    (h : sources.read? path = some text) : (Token.scan text).length ≤ sources.longest := by
  obtain ⟨file, hfile, rfl⟩ := Option.map_eq_some_iff.1 h
  exact List.le_max_of_le (List.mem_map.2 ⟨file, List.mem_of_find?_eq_some hfile, rfl⟩) le_rfl

end Sources

namespace Moment

/-- How many steps reading a token takes at most, in files of at most `longest` tokens and with so
many levels of nesting left: the token itself, the tokens of the file that it includes, and the end
of that file. -/
def tokenCost (longest : Nat) : Nat → Nat
  | 0 => 1
  | level + 1 => longest * tokenCost longest level + 2

theorem tokenCost_pos (longest level : Nat) : 0 < tokenCost longest level := by
  cases level <;> simp [tokenCost]

theorem tokenCost_le (longest level : Nat) : tokenCost longest level ≤ (longest + 2) ^ level := by
  induction level with
  | zero => exact Nat.le_refl 1
  | succ level ih =>
    have hpos := tokenCost_pos longest level
    calc longest * tokenCost longest level + 2
        ≤ longest * tokenCost longest level + 2 * tokenCost longest level := by omega
      _ = tokenCost longest level * (longest + 2) := by ring
      _ ≤ (longest + 2) ^ level * (longest + 2) := Nat.mul_le_mul_right _ ih
      _ = (longest + 2) ^ (level + 1) := (Nat.pow_succ ..).symm

/-- How many steps are left at most for files that are being read. -/
def work (longest : Nat) : List OpenFile → Nat
  | [] => 0
  | f :: fs =>
    f.rest.length * tokenCost longest (maxIncludeDepth - (fs.length + 1)) + 1 + work longest fs

variable {sources : Sources} {includeDirs : List String} {m m' : Moment}

theorem work_next {f : OpenFile} {t : Token} {rest : List Token} (hrest : f.rest = t :: rest)
    (longest : Nat) (fs : List OpenFile) :
    work longest (f :: fs) = work longest (f.next rest :: fs) +
      tokenCost longest (maxIncludeDepth - (fs.length + 1)) := by
  simp only [work, hrest, OpenFile.next, List.length_cons]
  ring

/-- Each step leaves less work. -/
theorem Moves.work_lt (h : Moves sources includeDirs m m') :
    work sources.longest m'.files < work sources.longest m.files := by
  cases h with
  | @read f fs t rest s s' hrest ht =>
    have hpos := tokenCost_pos sources.longest (maxIncludeDepth - (fs.length + 1))
    have hnext := work_next hrest sources.longest fs
    simp only
    omega
  | @pass f fs t rest s target hrest ht honce =>
    have hpos := tokenCost_pos sources.longest (maxIncludeDepth - (fs.length + 1))
    have hnext := work_next hrest sources.longest fs
    simp only
    omega
  | @enter f fs t rest s target text hrest ht honce hdepth htext =>
    obtain ⟨level, hlevel⟩ : ∃ level, maxIncludeDepth - (fs.length + 1) = level + 1 :=
      Nat.exists_eq_succ_of_ne_zero (by omega)
    have hinner : maxIncludeDepth - ((f.next rest :: fs).length + 1) = level := by
      rw [List.length_cons]
      omega
    have hscan : (Token.scan text).length * tokenCost sources.longest level ≤
        sources.longest * tokenCost sources.longest level :=
      Nat.mul_le_mul_right _ (Sources.length_scan_le htext)
    have hnext := work_next hrest sources.longest fs
    have hentered : work sources.longest (.start s target text :: f.next rest :: fs) =
        (Token.scan text).length * tokenCost sources.longest level + 1 +
          work sources.longest (f.next rest :: fs) := by
      rw [work, hinner]
      rfl
    simp only
    rw [hentered, hnext, hlevel, tokenCost]
    omega
  | @leave f fs s hrest hclosed =>
    simp only [work]
    omega

/-- Steps in a row are no more than the work at their beginning. -/
theorem length_le_work {ms : List Moment}
    (h : (m :: ms).IsChain (Moves sources includeDirs)) :
    ms.length ≤ work sources.longest m.files := by
  induction ms generalizing m with
  | nil => exact Nat.zero_le _
  | cons m' ms ih =>
    obtain ⟨hmove, hrest⟩ := List.isChain_cons_cons.1 h
    have hlt := hmove.work_lt
    have hle := ih hrest
    rw [List.length_cons]
    omega

/-- All steps of a run can be counted beforehand. -/
theorem work_start_lt (flags : Flags) {path text : String}
    (htext : sources.read? (Path.normalize path) = some text) :
    work sources.longest (start flags path text).files <
      (sources.longest + 2) ^ maxIncludeDepth := by
  obtain ⟨level, hlevel⟩ : ∃ level, maxIncludeDepth = level + 1 := ⟨63, rfl⟩
  have hwork : work sources.longest (start flags path text).files =
      (Token.scan text).length * tokenCost sources.longest level + 1 := by
    simp [start, work, OpenFile.start, hlevel]
  calc work sources.longest (start flags path text).files
      = (Token.scan text).length * tokenCost sources.longest level + 1 := hwork
    _ ≤ sources.longest * tokenCost sources.longest level + 1 :=
      Nat.succ_le_succ (Nat.mul_le_mul_right _ (Sources.length_scan_le htext))
    _ < tokenCost sources.longest (level + 1) := Nat.lt_succ_self _
    _ ≤ (sources.longest + 2) ^ maxIncludeDepth := hlevel ▸ tokenCost_le _ _

variable (sources includeDirs) in
/-- A run goes on until it has an outcome. -/
theorem moves_or_halts (m : Moment) :
    (∃ m', Moves sources includeDirs m m') ∨ ∃ r, Halts sources includeDirs m r := by
  obtain ⟨files, s⟩ := m
  cases files with
  | nil => exact .inr ⟨_, .done s⟩
  | cons f fs =>
    cases hrest : f.rest with
    | nil =>
      cases hclosed : Preprocessor.openedSince? f.groups s.conditionals with
      | none => exact .inl ⟨_, .leave hrest hclosed⟩
      | some c => exact .inr ⟨_, .unterminated hrest hclosed⟩
    | cons t rest =>
      rcases Preprocessor.token_cases sources includeDirs f t s with
        ⟨-, -, target, hinclude⟩ | ⟨r, hr, -⟩
      · by_cases honce : target ∈ s.once
        · exact .inl ⟨_, .pass hrest hinclude honce⟩
        · by_cases hdepth : fs.length + 1 < maxIncludeDepth
          · cases htext : sources.read? target with
            | none => exact .inr ⟨_, .unreadable hrest hinclude honce hdepth htext⟩
            | some text => exact .inl ⟨_, .enter hrest hinclude honce hdepth htext⟩
          · exact .inr ⟨_, .tooDeep hrest hinclude honce (Nat.le_of_not_lt hdepth)⟩
      · cases r with
        | ok s' => exact .inl ⟨_, .read hrest hr⟩
        | error e => exact .inr ⟨_, .fault hrest hr⟩

variable (sources includeDirs) in
theorem exists_halts (m : Moment) :
    ∃ m' r, Leads sources includeDirs m m' ∧ Halts sources includeDirs m' r := by
  induction hwork : work sources.longest m.files using Nat.strongRecOn generalizing m with
  | ind n ih =>
    rcases moves_or_halts sources includeDirs m with ⟨m', hmove⟩ | ⟨r, hhalts⟩
    · obtain ⟨m'', r, hleads, hhalts⟩ := ih _ (hwork ▸ hmove.work_lt) m' rfl
      exact ⟨m'', r, .head hmove hleads, hhalts⟩
    · exact ⟨m, r, .refl, hhalts⟩

/-- Every moment of a run that succeeds leads to its end. -/
theorem Reached.leads_of_run_eq_ok {flags : Flags} {path : String} {s : Preprocessor}
    (hm : Reached sources flags path m) (h : Preprocessor.run sources flags path = .ok s) :
    Leads sources flags.includeDirs m ⟨[], s⟩ := by
  obtain ⟨m', r, hleads, hhalts⟩ := exists_halts sources flags.includeDirs m
  obtain ⟨text, htext, -⟩ := id hm
  obtain rfl : .ok s = r := h.symm.trans ((run_eq_iff htext r).2 ⟨m', hm.leads hleads, hhalts⟩)
  cases hhalts
  exact hleads

/-! ## Places -/

/-- Open files are few, and every place is in a file that was read. -/
structure Bounded (m : Moment) : Prop where
  nesting : m.files.length ≤ maxIncludeDepth
  files : ∀ f ∈ m.files, f.number < m.state.files.size
  groups : ∀ c ∈ m.state.conditionals, c.origin.file < m.state.files.size
  tokens : ∀ t ∈ m.state.tokens, t.origin.file < m.state.files.size
  diagnostics : ∀ d ∈ m.state.diagnostics, d.location.isSome = true

theorem isSome_locate? {files : Array SourceFile} {origin : Origin}
    (h : origin.file < files.size) : (locate? files origin).isSome = true := by
  simp [locate?, h]

namespace Bounded

theorem start (flags : Flags) (path text : String) : Bounded (start flags path text) where
  nesting := by simp [Moment.start, maxIncludeDepth]
  files := by simp [Moment.start, OpenFile.start, Preprocessor.opened]
  groups := by simp [Moment.start, Preprocessor.opened]
  tokens := by simp [Moment.start, Preprocessor.opened]
  diagnostics := by simp [Moment.start, Preprocessor.opened]

/-- A token of an open file adds places in that file only. -/
theorem read (h : Bounded m) {f : OpenFile} {fs : List OpenFile} {t : Token} {rest : List Token}
    {s s' : Preprocessor} (hm : m = ⟨f :: fs, s⟩)
    (ht : Preprocessor.Yields sources includeDirs f t s (.ok s')) :
    Bounded ⟨f.next rest :: fs, s'⟩ := by
  subst hm
  have hadds : Preprocessor.Adds ⟨f.number, t.offset⟩ t.Defines s s' := ht.answers
  have hf : f.number < s.files.size := h.files f (.head _)
  refine ⟨h.nesting, fun g hg => ?_, fun c hc => ?_, fun u hu => ?_, fun d hd => ?_⟩
  · rw [hadds.files]
    rcases List.mem_cons.1 hg with rfl | hg
    · exact hf
    · exact h.files g (.tail _ hg)
  · rw [hadds.files]
    rcases hadds.groups c hc with ⟨c', hc', horigin⟩ | horigin
    · exact horigin ▸ h.groups c' hc'
    · rw [horigin]
      exact hf
  · rw [hadds.files]
    rcases hadds.tokens u hu with hu | horigin
    · exact h.tokens u hu
    · rw [horigin]
      exact hf
  · rcases hadds.diagnostics d hd with hd | hlocation
    · exact h.diagnostics d hd
    · rw [hlocation]
      exact isSome_locate? hf

/-- What a step keeps of the bounds. -/
theorem move (h : Bounded m) (hmove : Moves sources includeDirs m m') : Bounded m' := by
  cases hmove with
  | read hrest ht => exact h.read rfl ht
  | @pass f fs t rest s target hrest ht honce =>
    refine { h with files := fun g hg => ?_ }
    rcases List.mem_cons.1 hg with rfl | hg
    · exact h.files f (.head _)
    · exact h.files g (.tail _ hg)
  | @enter f fs t rest s target text hrest ht honce hdepth htext =>
    have hsize : (s.opened target text).files.size = s.files.size + 1 := by
      simp [Preprocessor.opened]
    refine ⟨by simpa using hdepth, fun g hg => ?_, fun c hc => ?_, fun u hu => ?_, h.diagnostics⟩
    · rw [hsize]
      rcases List.mem_cons.1 hg with rfl | hg
      · exact Nat.lt_succ_self _
      · rcases List.mem_cons.1 hg with rfl | hg
        · exact Nat.lt_succ_of_lt (h.files f (.head _))
        · exact Nat.lt_succ_of_lt (h.files g (.tail _ hg))
    · rw [hsize]
      exact Nat.lt_succ_of_lt (h.groups c hc)
    · rw [hsize]
      exact Nat.lt_succ_of_lt (h.tokens u hu)
  | @leave f fs s hrest hclosed =>
    exact { h with
      nesting := Nat.le_of_succ_le h.nesting
      files := fun g hg => h.files g (.tail _ hg) }

end Bounded

/-- Every moment of a run is bounded. -/
theorem Reached.bounded {flags : Flags} {path : String} (h : Reached sources flags path m) :
    Bounded m := by
  obtain ⟨text, -, hleads⟩ := h
  induction hleads with
  | refl => exact .start flags path text
  | tail _ hmove ih => exact ih.move hmove

/-- A fault is reported in a file that was read. -/
theorem Bounded.isSome_location (h : Bounded m) {e : Located PreprocessFault}
    (hhalts : Halts sources includeDirs m (.error e)) : e.location.isSome = true := by
  generalize hr : Except.error e = r at hhalts
  cases hhalts with
  | done => cases hr
  | @fault f fs t rest s e' hrest ht =>
    obtain rfl : e = e' := Except.error.inj hr
    have hlocation : e.location = locate? s.files ⟨f.number, t.offset⟩ := ht.answers
    rw [hlocation]
    exact isSome_locate? (h.files f (.head _))
  | @tooDeep f fs t rest s target hrest ht honce hdepth =>
    rw [Except.error.inj hr]
    exact isSome_locate? (h.files f (.head _))
  | @unreadable f fs t rest s target hrest ht honce hdepth htext =>
    rw [Except.error.inj hr]
    exact isSome_locate? (h.files f (.head _))
  | @unterminated f fs s c hrest hopen =>
    rw [Except.error.inj hr]
    exact isSome_locate? (h.groups c (List.mem_reverse.1 (List.mem_of_getElem? hopen)))

/-- A run that succeeds closes every group. -/
theorem conditionals_of_run_eq_ok {flags : Flags} {path : String} {s : Preprocessor}
    (h : Preprocessor.run sources flags path = .ok s) : s.conditionals = [] :=
  List.eq_nil_of_length_eq_zero (Nat.eq_zero_of_le_zero (Preprocessor.length_le_of_file h))

/-- **A run is bounded.** If the main file is there, the run takes less than so many steps,
whichever files include each other, and comes to its outcome; a fault is reported in a file that was
read. At each of its moments few files are open and every place lies in a file that was read, and
replacing a macro comes to an end. If the run succeeds, every group was closed. -/
theorem run_bounded (sources : Sources) (flags : Flags) (path : String) :
    (∀ text, sources.read? (Path.normalize path) = some text →
      (∀ ms : List Moment,
        (start flags path text :: ms).IsChain (Moves sources flags.includeDirs) →
          ms.length < (sources.longest + 2) ^ maxIncludeDepth) ∧
      (∃ m, Reached sources flags path m ∧
        Halts sources flags.includeDirs m (Preprocessor.run sources flags path)) ∧
      ∀ e, Preprocessor.run sources flags path = .error e → e.location.isSome = true) ∧
    (sources.read? (Path.normalize path) = none →
      Preprocessor.run sources flags path =
        .error ⟨.unreadable (Path.normalize path) (sources.missing (Path.normalize path)), none⟩) ∧
    (∀ m, Reached sources flags path m → Bounded m ∧
      ∀ name body pieces, m.state.macros.find? name = some body →
        (MacroTable.Replaces m.state.macros [name] body pieces ↔
          pieces = m.state.macros.expand name)) ∧
    ∀ s, Preprocessor.run sources flags path = .ok s → s.conditionals = [] := by
  refine ⟨fun text htext => ⟨fun ms hms => ?_, (run_eq_iff htext _).1 rfl, fun e he => ?_⟩,
    fun hmissing => ?_, fun m hm => ⟨hm.bounded, fun name body pieces => ?_⟩,
    fun s => conditionals_of_run_eq_ok⟩
  · exact Nat.lt_of_le_of_lt (length_le_work hms) (work_start_lt flags htext)
  · obtain ⟨m, hm, hhalts⟩ := (run_eq_iff htext _).1 he
    exact hm.bounded.isSome_location hhalts
  · exact Preprocessor.file_of_missing _ _ (by simp) hmissing
  · exact MacroTable.replaces_iff

/-- A file that includes itself, under flags that let two macros stand for each other; a file with a
fault, and one that is not there. -/
theorem run_bounded_selfInclude :
    let sources := Sources.ofFiles [("a.h", "#pragma once\n#include \"a.h\"\nA"), ("b.h", "A @")]
    let flags := Flags.parse ["-DA=B", "-DB=A"]
    ∃ text s, sources.read? (Path.normalize "a.h") = some text ∧
      Preprocessor.run sources flags "a.h" = .ok s ∧ s.conditionals = [] ∧
      (∃ m, Reached sources flags "a.h" m ∧ Halts sources [] m (.ok s) ∧ Bounded m) ∧
      (∀ ms : List Moment, (start flags "a.h" text :: ms).IsChain (Moves sources []) →
        ms.length < (sources.longest + 2) ^ maxIncludeDepth) ∧
      (MacroTable.Replaces (start flags "a.h" text).state.macros ["A"] [⟨.ident, "B"⟩]
        ((start flags "a.h" text).state.macros.expand "A")) ∧
      (∃ e, Preprocessor.run sources flags "b.h" = .error e ∧ e.location.isSome = true) ∧
      Preprocessor.run sources flags "c.h" =
        .error ⟨.unreadable (Path.normalize "c.h") "no such source: c.h", none⟩ := by
  intro sources flags
  obtain ⟨hbounds, -, hmoments, hclosed⟩ := run_bounded sources flags "a.h"
  have htext : sources.read? (Path.normalize "a.h") =
      some "#pragma once\n#include \"a.h\"\nA" := by decide +kernel
  have hrun : (Preprocessor.run sources flags "a.h").toOption.isSome = true := by decide +kernel
  obtain ⟨s, hs⟩ := Option.isSome_iff_exists.1 hrun
  rw [toOption_eq_some] at hs
  obtain ⟨hsteps, ⟨m, hm, hhalts⟩, -⟩ := hbounds _ htext
  refine ⟨_, s, htext, hs, hclosed s hs, ⟨m, hm, hs ▸ hhalts, (hmoments m hm).1⟩, hsteps,
    ?_, ?_, ?_⟩
  · exact ((hmoments _ ⟨_, htext, .refl⟩).2 "A" [⟨.ident, "B"⟩] _ (by decide +kernel)).2 rfl
  · have hfault : (Preprocessor.run sources flags "b.h").toOption = none := by decide +kernel
    cases hb : Preprocessor.run sources flags "b.h" with
    | ok s' => simp [hb, Except.toOption] at hfault
    | error e =>
      exact ⟨e, rfl, ((run_bounded sources flags "b.h").1 "A @" (by decide +kernel)).2.2 e hb⟩
  · exact (run_bounded sources flags "c.h").2.1 (by decide +kernel)

end Moment
end Bindery
