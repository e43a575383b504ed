import Bindery.Proofs.Fallible
import Bindery.Proofs.Preprocess.Moments
import Mathlib

/-!
# Files that keep to their own groups

The groups that are open form one stack, whichever files opened them. A file must not end while a
group is open that was opened since it began, but a directive that turns or ends a group does not
ask where that group was opened. So a file leaves no more groups open than it found. It leaves them
as it found them if no file that is read on the way touches a group of another one.

## Main definitions

* `Token.ownGroups?`: how many groups of its own a file has open behind a token.
* `Preprocessor.isSelfContained`: the directives of a text only touch groups that it opens.
* `Preprocessor.Encloses`: what lies between the beginning and the end of a file.

## Main statements

* `Preprocessor.groups_of_file`: the open groups behind a file that was read to its end.
* `Preprocessor.file_turns_outer_group`: a file can turn a group of the file that includes it.
-/
namespace Bindery

/-! ## Groups of one file -/

namespace Conditional

/-- How many groups of its own a file has open behind a directive, of `n` in front of it. There is
no answer if the directive turns or ends a group that was open where the file begins. -/
def ownAfter? (n : Nat) (name : String) : Option Nat :=
  if name ∈ openers then some (n + 1)
  else if name ∈ directives then
    if n = 0 then none else some (if name = "endif" then n - 1 else n)
  else some n

variable {name : String} {n : Nat} {before after front base : List Conditional}

theorem ownAfter?_of_not_mem (h : name ∉ directives) : ownAfter? n name = some n := by
  have hopener : name ∉ openers := fun hmem =>
    h (List.mem_append_left _ (List.mem_append_left _ hmem))
  rw [ownAfter?, if_neg hopener, if_neg h]

/-- A directive that turns or ends a group needs one that the file opened. -/
theorem ownAfter?_eq_some {m : Nat} (hopener : name ∉ openers) (hmem : name ∈ directives)
    (h : ownAfter? m name = some n) : m ≠ 0 ∧ n = if name = "endif" then m - 1 else m := by
  rw [ownAfter?, if_neg hopener, if_pos hmem] at h
  split at h
  · cases h
  · next hm => exact ⟨hm, (Option.some.inj h).symm⟩

theorem of_mem_turns (h : name ∈ turns) :
    name ∉ openers ∧ name ∈ directives ∧ name ≠ "endif" := by
  have hall : ∀ name ∈ turns, name ∉ openers ∧ name ∈ directives ∧ name ≠ "endif" := by decide
  exact hall name h

/-- A directive that keeps to the groups of its file leaves the groups below them alone. -/
theorem Changes.own (h : Changes name before after) (hbefore : before = front ++ base)
    (hn : ownAfter? front.length name = some n) :
    ∃ front', after = front' ++ base ∧ front'.length = n := by
  -- A group that is turned or ended is the innermost one of the file.
  have hinner {c : Conditional} {rest : List Conditional} (hopener : name ∉ openers)
      (hmem : name ∈ directives) (hrest : c :: rest = front ++ base) :
      ∃ front', rest = front' ++ base ∧
        n = if name = "endif" then front'.length else front'.length + 1 := by
    obtain ⟨hfront, hn⟩ := ownAfter?_eq_some hopener hmem hn
    cases front with
    | nil => exact absurd rfl hfront
    | cons d front' => exact ⟨front', (List.cons.inj hrest).2, hn⟩
  cases h with
  | opens hname value origin =>
    rw [ownAfter?, if_pos hname] at hn
    rw [push, hbefore, ← List.cons_append]
    exact ⟨_, rfl, Option.some.inj hn⟩
  | @elseIf _ hname c value hvalue rest =>
    obtain ⟨hopener, hmem, hend⟩ := of_mem_turns hname
    obtain ⟨front', hrest, hlength⟩ := hinner hopener hmem hbefore
    rw [if_neg hend] at hlength
    rw [hrest, ← List.cons_append]
    exact ⟨_, rfl, hlength.symm⟩
  | otherwise c rest =>
    obtain ⟨front', hrest, hlength⟩ := hinner (by decide) (by decide) hbefore
    rw [hrest, ← List.cons_append]
    exact ⟨_, rfl, hlength.symm⟩
  | closes c rest =>
    obtain ⟨front', hrest, hlength⟩ := hinner (by decide) (by decide) hbefore
    exact ⟨front', hrest, hlength.symm⟩

end Conditional

namespace Token

/-- How many groups of its own a file has open behind a token, of `n` in front of it. -/
def ownGroups? (n : Nat) (t : Token) : Option Nat :=
  match t.directive? with
  | some name => Conditional.ownAfter? n name
  | none => some n

theorem ownGroups?_of_directive {t : Token} {name : String} (h : t.directive? = some name)
    (n : Nat) : t.ownGroups? n = Conditional.ownAfter? n name := by
  rw [ownGroups?, h]

theorem ownGroups?_of_other {t : Token} (h : ∀ name ∈ t.directive?, name ∉ Conditional.directives)
    (n : Nat) : t.ownGroups? n = some n := by
  cases hname : t.directive? with
  | none => rw [ownGroups?, hname]
  | some name => rw [ownGroups?_of_directive hname, Conditional.ownAfter?_of_not_mem (h name hname)]

end Token

namespace Preprocessor

/-- The directives of a text turn and end only groups that the text itself opens. -/
def isSelfContained (text : String) : Bool :=
  ((Token.scan text).foldlM Token.ownGroups? 0).isSome

variable {sources : Sources} {includeDirs : List String}

/-! ## From the beginning of a file to its end -/

/-- A token that is no include leaves the groups alone that were open where its file begins. -/
theorem Effect.own {number : Nat} {t : Token} {s s' : Preprocessor} {front base : List Conditional}
    (h : Effect number t s s') (hs : s.conditionals = front ++ base) {n : Nat}
    (hn : t.ownGroups? front.length = some n) :
    ∃ front', s'.conditionals = front' ++ base ∧ front'.length = n := by
  cases h with
  | regrouped hname hstack =>
    rw [Token.ownGroups?_of_directive hname] at hn
    exact hstack.own hs hn
  | skipped hname =>
    rw [Token.ownGroups?_of_other hname] at hn
    exact ⟨front, hs, Option.some.inj hn⟩
  | obeyed hname hactive hquiet =>
    rw [Token.ownGroups?_of_other hname] at hn
    exact ⟨front, hquiet.groups.trans hs, Option.some.inj hn⟩
  | emitted hactive hkind hpieces =>
    rw [Token.ownGroups?_of_other (by simp [Token.directive?, hkind])] at hn
    exact ⟨front, hs, Option.some.inj hn⟩

theorem Effect.files_eq {number : Nat} {t : Token} {s s' : Preprocessor}
    (h : Effect number t s s') : s'.files = s.files := by
  cases h with
  | obeyed hname hactive hquiet => exact hquiet.files
  | regrouped | skipped | emitted => rfl

variable (sources) in
/-- The text of each of the files, if it is there, keeps to its own groups. -/
def AreSelfContained (files : List SourceFile) : Prop :=
  ∀ f ∈ files, ∀ text, sources.read? f.path = some text → isSelfContained text = true

variable (sources) in
/-- What lies between two states: files were read, and if all of them keep to their own groups the
open groups are the same. -/
def Encloses (s s' : Preprocessor) : Prop :=
  ∃ files, s'.files.toList = s.files.toList ++ files ∧
    (AreSelfContained sources files → s'.conditionals = s.conditionals)

theorem Encloses.refl (s : Preprocessor) : Encloses sources s s :=
  ⟨[], (List.append_nil _).symm, fun _ => rfl⟩

/-- The tokens of a file leave the groups alone that were open where the file begins, if they keep
to the groups of the file and so does every file that they include. -/
theorem exists_front_of_tokensOf {splice : Splice}
    (hsplice : ∀ target place s s', splice target place s = .ok s' → Encloses sources s s')
    {path : Path} {number : Nat} (ts : List Token) {s s' : Preprocessor}
    (h : tokensOf sources includeDirs splice path number ts s = .ok s') :
    ∃ files, s'.files.toList = s.files.toList ++ files ∧
      (AreSelfContained sources files → ∀ {front base n}, s.conditionals = front ++ base →
        ts.foldlM Token.ownGroups? front.length = some n →
        ∃ front', s'.conditionals = front' ++ base) := by
  induction ts generalizing s with
  | nil =>
    obtain rfl : s = s' := Except.ok.inj h
    exact ⟨[], (List.append_nil _).symm, fun _ {front _ _} hs _ => ⟨front, hs⟩⟩
  | cons t ts ih =>
    obtain ⟨s₁, hs₁, hrest⟩ := bind_eq_ok.1 h
    obtain ⟨files, hfiles, hkeeps⟩ := ih hrest
    simp only [List.foldlM_cons, Option.bind_eq_bind, Option.bind_eq_some_iff]
    rcases token_cases sources includeDirs ⟨path, number, [], 0⟩ t s with
      ⟨-, ⟨name, hname, hother⟩, target, hinclude⟩ | ⟨r, hr, heffect⟩
    · rw [hinclude] at hs₁
      obtain ⟨included, hincluded, hsame⟩ := hsplice _ _ _ _ hs₁
      refine ⟨included ++ files, by rw [hfiles, hincluded, List.append_assoc], ?_⟩
      rintro hself front base n hs ⟨m, hm, hn⟩
      rw [Token.ownGroups?_of_other (by simpa [hname] using hother)] at hm
      obtain rfl := Option.some.inj hm
      obtain ⟨hincluded, hfiles⟩ := List.forall_mem_append.1 hself
      exact hkeeps hfiles ((hsame hincluded).trans hs) hn
    · have heffect := heffect s₁ ((hr splice).symm.trans hs₁)
      refine ⟨files, by rw [hfiles, heffect.files_eq], ?_⟩
      rintro hself front base n hs ⟨m, hm, hn⟩
      obtain ⟨front', hs', rfl⟩ := heffect.own hs hm
      exact hkeeps hself hs' hn

theorem eq_nil_of_openedSince? {front base : List Conditional}
    (h : openedSince? base.length (front ++ base) = none) : front = [] := by
  rw [openedSince?, List.getElem?_eq_none_iff, List.length_reverse, List.length_append] at h
  exact List.eq_nil_of_length_eq_zero (by omega)

/-- A file that is read once and was read already changes nothing; any other one that is read to its
end leaves none of its own groups open. -/
theorem file_eq_ok {depth : Nat} {path : Path} {place : Option Origin} {s s' : Preprocessor}
    (h : file sources includeDirs depth path place s = .ok s') : s' = s ∨
    ∃ level text, depth = level + 1 ∧ sources.read? path = some text ∧
      tokensOf sources includeDirs (file sources includeDirs level) path s.files.size
        (Token.scan text) (s.opened path text) = .ok s' ∧
      openedSince? s.conditionals.length s'.conditionals = none := by
  by_cases honce : path ∈ s.once
  · rw [file_of_mem _ _ honce] at h
    exact .inl (Except.ok.inj h).symm
  cases depth with
  | zero =>
    rw [file_zero _ honce] at h
    cases h
  | succ level =>
    cases htext : sources.read? path with
    | none =>
      rw [file_of_missing _ _ honce htext] at h
      cases h
    | some text =>
      rw [file_of_text _ _ honce htext] at h
      obtain ⟨done, hdone, hend⟩ := bind_eq_ok.1 h
      split at hend
      · cases hend
      · next hclosed =>
        obtain rfl : done = s' := Except.ok.inj hend
        exact .inr ⟨level, text, rfl, rfl, hdone, hclosed⟩

theorem length_le_of_file {depth : Nat} {path : Path} {place : Option Origin} {s s' : Preprocessor}
    (h : file sources includeDirs depth path place s = .ok s') :
    s'.conditionals.length ≤ s.conditionals.length := by
  rcases file_eq_ok h with rfl | ⟨-, -, -, -, -, hclosed⟩
  · exact Nat.le_refl _
  · simpa [openedSince?] using hclosed

theorem encloses_of_file {depth : Nat} {path : Path} {place : Option Origin} {s s' : Preprocessor}
    (h : file sources includeDirs depth path place s = .ok s') : Encloses sources s s' := by
  induction depth generalizing path place s s' with
  | zero =>
    rcases file_eq_ok h with rfl | ⟨level, text, hlevel, -⟩
    · exact .refl s'
    · cases hlevel
  | succ depth ih =>
    rcases file_eq_ok h with rfl | ⟨level, text, hlevel, htext, hdone, hclosed⟩
    · exact .refl s'
    obtain rfl : depth = level := Nat.succ.inj hlevel
    obtain ⟨files, hfiles, hkeeps⟩ := exists_front_of_tokensOf (fun _ _ _ _ hok => ih hok) _ hdone
    refine ⟨⟨path, LineIndex.ofText text⟩ :: files, by simpa [opened] using hfiles, fun hself => ?_⟩
    obtain ⟨hpath, hself⟩ := List.forall_mem_cons.1 hself
    obtain ⟨n, hn⟩ := Option.isSome_iff_exists.1 (hpath text htext)
    obtain ⟨front, hfront⟩ := hkeeps hself (List.nil_append _).symm hn
    have hconditionals : (s.opened path text).conditionals = s.conditionals := rfl
    rw [hconditionals] at hfront
    rw [hfront] at hclosed ⊢
    rw [eq_nil_of_openedSince? hclosed, List.nil_append]

/-- **What a file makes of the open groups**: read to its end, it leaves no more of them open than
it found, and it leaves exactly those that it found, unless one of the files that were read on the
way turns or ends a group that it did not open. -/
theorem groups_of_file {depth : Nat} {path : Path} {place : Option Origin} {s s' : Preprocessor}
    (h : file sources includeDirs depth path place s = .ok s') :
    s'.conditionals.length ≤ s.conditionals.length ∧
    ∃ files, s'.files.toList = s.files.toList ++ files ∧
      (s'.conditionals = s.conditionals ∨
        ∃ f ∈ files, ∃ text, sources.read? f.path = some text ∧
          isSelfContained text = false) := by
  obtain ⟨files, hfiles, hkeeps⟩ := encloses_of_file h
  refine ⟨length_le_of_file h, files, hfiles, or_iff_not_imp_right.2 fun hnone => hkeeps ?_⟩
  intro f hf text htext
  exact Bool.of_not_eq_false fun hself => hnone ⟨f, hf, text, htext, hself⟩

/-- A group of its own, in a file that is included in another group. -/
theorem groups_of_file_own_group :
    let sources := Sources.ofFiles [("a.h", "#if 0\n#else\n#endif\n")]
    let s : Preprocessor := { conditionals := [⟨true, true, true, ⟨0, 0⟩⟩] }
    ∃ s', file sources [] 1 (Path.normalize "a.h") (some ⟨0, 6⟩) s = .ok s' ∧
      s'.conditionals.length ≤ s.conditionals.length ∧
      ∃ files, s'.files.toList = s.files.toList ++ files ∧
        (s'.conditionals = s.conditionals ∨
          ∃ f ∈ files, ∃ text, sources.read? f.path = some text ∧
            isSelfContained text = false) := by
  intro sources s
  have h : ∃ s', file sources [] 1 (Path.normalize "a.h") (some ⟨0, 6⟩) s = .ok s' := ⟨_, by cbv⟩
  obtain ⟨s', hs'⟩ := h
  exact ⟨s', hs', groups_of_file hs'⟩

/-- An included file with nothing but an `#else` turns the group of the file that includes it. -/
theorem file_turns_outer_group :
    let sources := Sources.ofFiles [("main.h", "#if 1\n#include \"a.h\"\nint x;\n#endif\n"),
      ("a.h", "#else\n")]
    let s : Preprocessor := { conditionals := [⟨true, true, true, ⟨0, 0⟩⟩] }
    ∃ s', file sources [] 63 (Path.normalize "a.h") (some ⟨0, 6⟩) s = .ok s' ∧
      s'.conditionals = [⟨true, false, true, ⟨0, 0⟩⟩] ∧ s'.conditionals ≠ s.conditionals := by
  intro sources s
  refine ⟨_, by cbv, ?_, ?_⟩
  · rfl
  · decide

end Preprocessor
end Bindery
