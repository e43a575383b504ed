import Bindery.Path
import Mathlib.Data.List.Basic

/-!
# What the normal form of a path keeps

A relative path leads some levels up and then down through names. Followed from a directory that is
deep enough, it leads to the directory without its last levels, and to the names below that. Its
normal form keeps the names, and of the levels only whether their number is odd, since a kept `..`
is taken away by the next one. So the normal form leads to the same place exactly when the path
leads at most one level up.

## Main definitions

* `Path.join`: a written path behind a written directory.
* `Path.Displacement`: levels up and names down.
* `Path.displacement`: the displacement of a written path.

## Main statements

* `Path.normalize_join`: following a path from a directory is normalising the joined path.
* `Path.resolve_of_deep`, `Path.normalize_of_relative`: where a displacement leads, and what the
  normal form keeps of it.
* `Path.displacement_normalize`: the displacement of a normal form.
* `Path.normalize_join_normalize_iff`: which paths keep their meaning.
-/
namespace Bindery.Path

/-- The path is written from the root. -/
def isAbsolute (written : String) : Bool := written.toList.head? = some '/'

/-- A path written behind a directory. A path from the root stands alone. -/
def join (dir written : String) : String :=
  if isAbsolute written then written
  else if dir = "" ∨ dir.toList.getLast? = some '/' then dir ++ written
  else dir ++ "/" ++ written

variable {cs ds : List Char} {piece : List Char} {written other dir s : String}
  {names : List String} {p : Path} {c : PathComponent}

/-! ## Texts between slashes -/

theorem splitSlash_ne_nil (cs : List Char) : splitSlash cs ≠ [] := by
  cases cs with
  | nil => exact List.cons_ne_nil _ _
  | cons c cs =>
    rw [splitSlash]
    split
    · exact List.cons_ne_nil _ _
    · split <;> exact List.cons_ne_nil _ _

theorem splitSlash_slash (cs : List Char) : splitSlash ('/' :: cs) = [] :: splitSlash cs := by
  rw [splitSlash]
  split
  · next h => exact absurd h (splitSlash_ne_nil cs)
  · next h => rw [if_pos rfl, h]

theorem splitSlash_append_slash (cs ds : List Char) :
    splitSlash (cs ++ '/' :: ds) = splitSlash cs ++ splitSlash ds := by
  induction cs with
  | nil => exact splitSlash_slash ds
  | cons c cs ih =>
    rw [List.cons_append, splitSlash, ih, splitSlash]
    cases h : splitSlash cs with
    | nil => exact absurd h (splitSlash_ne_nil cs)
    | cons piece pieces =>
      simp only [List.cons_append]
      split <;> rfl

theorem splitSlash_of_not_mem (h : '/' ∉ cs) : splitSlash cs = [cs] := by
  induction cs with
  | nil => rfl
  | cons c cs ih =>
    rw [List.mem_cons, not_or] at h
    rw [splitSlash, ih h.2]
    exact if_neg (Ne.symm h.1)

theorem not_mem_of_mem_splitSlash (h : piece ∈ splitSlash cs) : '/' ∉ piece := by
  induction cs generalizing piece with
  | nil =>
    rw [List.mem_singleton.1 h]
    exact List.not_mem_nil
  | cons c cs ih =>
    rw [splitSlash] at h
    cases hsplit : splitSlash cs with
    | nil => exact absurd hsplit (splitSlash_ne_nil cs)
    | cons first rest =>
      rw [hsplit] at h ih
      simp only at h
      split at h
      · rcases List.mem_cons.1 h with rfl | h
        · exact List.not_mem_nil
        · exact ih h
      · next hc =>
        rcases List.mem_cons.1 h with rfl | h
        · rw [List.mem_cons, not_or]
          exact ⟨Ne.symm hc, ih (.head _)⟩
        · exact ih (.tail _ h)

/-! ## Components -/

/-- A name that a component can have. -/
structure IsName (s : String) : Prop where
  ne_empty : s.toList ≠ []
  ne_here : s.toList ≠ ['.']
  ne_up : s.toList ≠ ['.', '.']
  no_slash : '/' ∉ s.toList

/-- The components of a text behind a slash. -/
def behind (cs : List Char) : List PathComponent := (splitSlash cs).flatMap (componentOf false)

theorem behind_nil : behind [] = [] := rfl

theorem behind_append_slash (cs ds : List Char) :
    behind (cs ++ '/' :: ds) = behind cs ++ behind ds := by
  rw [behind, splitSlash_append_slash, List.flatMap_append]
  rfl

theorem behind_slash (cs : List Char) : behind ('/' :: cs) = behind cs :=
  behind_append_slash [] cs

theorem behind_of_isName (h : IsName s) : behind s.toList = [.name s] := by
  rw [behind, splitSlash_of_not_mem h.no_slash, List.flatMap_singleton, componentOf,
    if_neg h.ne_empty, if_neg h.ne_here, if_neg h.ne_up, String.ofList_toList]

/-- Behind a slash stand names and steps up. -/
theorem mem_behind (h : c ∈ behind cs) : c = .up ∨ ∃ s, c = .name s ∧ IsName s := by
  obtain ⟨piece, hpiece, hc⟩ := List.mem_flatMap.1 h
  simp only [componentOf] at hc
  split at hc
  · cases hc
  · next hempty =>
    split at hc
    · simp at hc
    · next hhere =>
      split at hc
      · exact .inl (List.mem_singleton.1 hc)
      · next hup =>
        have hslash := not_mem_of_mem_splitSlash hpiece
        refine .inr ⟨_, List.mem_singleton.1 hc, ?_, ?_, ?_, ?_⟩ <;>
          rw [String.toList_ofList] <;> assumption

theorem components_of_absolute (h : isAbsolute written = true) :
    components written = .root :: behind written.toList := by
  rw [isAbsolute, decide_eq_true_eq] at h
  obtain ⟨cs, hcs⟩ := List.head?_eq_some_iff.1 h
  rw [components, hcs, behind_slash, splitSlash_slash]
  cases hsplit : splitSlash cs with
  | nil => exact absurd hsplit (splitSlash_ne_nil cs)
  | cons first rest =>
    rw [behind, hsplit]
    rfl

/-- A relative path starts with a component of its own only if it starts with a `.`. -/
theorem components_of_relative (h : isAbsolute written = false) :
    components written = behind written.toList ∨
      components written = .here :: behind written.toList := by
  rw [isAbsolute] at h
  rw [components, behind]
  cases hcs : written.toList with
  | nil => exact .inl rfl
  | cons c cs =>
    have hc : c ≠ '/' := by simpa [hcs] using h
    cases hsplit : splitSlash (c :: cs) with
    | nil => exact absurd hsplit (splitSlash_ne_nil _)
    | cons first rest =>
      have hfirst : first ≠ [] := by
        rintro rfl
        rw [splitSlash] at hsplit
        split at hsplit
        · cases hsplit
        · rw [if_neg hc] at hsplit
          cases hsplit
      simp only [hfirst, decide_false, Bool.false_and, Bool.false_eq_true, if_false,
        List.flatMap_cons, componentOf]
      by_cases hhere : first = ['.']
      · exact .inr (by simp [hhere])
      · exact .inl (by simp [hhere])

/-- A path is followed from the root if it is written from there. -/
theorem resolve_eq (base : Path) (written : String) : resolve base written =
    (behind written.toList).foldl step (if isAbsolute written then root else base) := by
  rw [resolve]
  cases h : isAbsolute written with
  | true =>
    rw [components_of_absolute h]
    rfl
  | false =>
    rcases components_of_relative h with h | h
    · rw [h]
      rfl
    · rw [h]
      rfl

theorem resolve_of_relative (h : isAbsolute written = false) (base : Path) :
    resolve base written = (behind written.toList).foldl step base := by
  rw [resolve_eq, h]
  rfl

theorem isAbsolute_join (h : isAbsolute written = false) (dir : String) :
    isAbsolute (join dir written) = isAbsolute dir := by
  by_cases hdir : dir = ""
  · subst hdir
    rw [join, h, if_neg Bool.false_ne_true, if_pos (.inl rfl), String.empty_append, h]
    rfl
  · have hne : dir.toList ≠ [] := by simpa using hdir
    rw [join, h, if_neg Bool.false_ne_true]
    split <;> simp [isAbsolute, String.toList_append, List.head?_append_of_ne_nil _ hne]

/-- A path behind a directory has the components of both. -/
theorem behind_join (h : isAbsolute written = false) (dir : String) :
    behind (join dir written).toList = behind dir.toList ++ behind written.toList := by
  rw [join, h, if_neg Bool.false_ne_true]
  split
  · next hdir =>
    rw [String.toList_append]
    rcases hdir with rfl | hlast
    · rfl
    · obtain ⟨front, hfront⟩ := List.getLast?_eq_some_iff.1 hlast
      rw [hfront, List.append_assoc, List.singleton_append, behind_append_slash,
        behind_append_slash, behind_nil, List.append_nil]
  · rw [String.toList_append, String.toList_append, List.append_assoc]
    exact behind_append_slash _ _

/-- Following a path from a directory is normalising the joined path. -/
theorem normalize_join (dir written : String) :
    normalize (join dir written) = resolve (normalize dir) written := by
  cases h : isAbsolute written with
  | true => rw [join, if_pos h, normalize, resolve_eq, resolve_eq, if_pos h, if_pos h]
  | false =>
    rw [normalize, resolve_eq, isAbsolute_join h, behind_join h, List.foldl_append,
      resolve_of_relative h, normalize, resolve_eq]

/-! ## Displacements -/

/-- Where a relative path leads: some levels up, and from there down through names. -/
structure Displacement where
  climb : ℕ
  names : List String

namespace Displacement

/-- Follow one more component. -/
def step (d : Displacement) : PathComponent → Displacement
  | .up => if d.names = [] then ⟨d.climb + 1, []⟩ else ⟨d.climb, d.names.dropLast⟩
  | .name s => ⟨d.climb, d.names ++ [s]⟩
  | .root | .here => d

/-- The names that the displacement leads to from a directory. -/
def below (d : Displacement) (dir : List String) : List String :=
  dir.take (dir.length - d.climb) ++ d.names

/-- The names of the normal form: one `..` stands for an odd number of levels up. -/
def folded (d : Displacement) : List String :=
  (if d.climb % 2 = 1 then [".."] else []) ++ d.names

end Displacement

/-- The displacement of a written path. -/
def displacement (written : String) : Displacement :=
  (components written).foldl Displacement.step ⟨0, []⟩

variable {d : Displacement} {path : List PathComponent} {dirNames : List String}

theorem Displacement.climb_le_step (d : Displacement) (c : PathComponent) :
    d.climb ≤ (d.step c).climb := by
  cases c with
  | up =>
    rw [step]
    split
    · exact Nat.le_succ _
    · exact Nat.le_refl _
  | name | root | here => exact Nat.le_refl _

theorem Displacement.climb_le_foldl (d : Displacement) (path : List PathComponent) :
    d.climb ≤ (path.foldl step d).climb := by
  induction path generalizing d with
  | nil => exact Nat.le_refl _
  | cons c path ih => exact Nat.le_trans (d.climb_le_step c) (ih _)

/-- No path leads more levels up than it has steps up. -/
theorem Displacement.climb_foldl_le (d : Displacement) (path : List PathComponent) :
    (path.foldl step d).climb ≤ d.climb + path.count .up := by
  induction path generalizing d with
  | nil => exact Nat.le_refl _
  | cons c path ih =>
    have hrest := ih (d.step c)
    have hstep : (d.step c).climb ≤ d.climb + if c = .up then 1 else 0 := by
      cases c with
      | up =>
        rw [step]
        split <;> simp
      | name | root | here => exact Nat.le_refl _
    rw [List.foldl_cons, List.count_cons]
    simp only [beq_iff_eq]
    omega

/-- Following a component from a directory that is deep enough. -/
theorem Displacement.step_below (hroot : c ≠ .root) (hdeep : (d.step c).climb ≤ dirNames.length) :
    Path.step ⟨true, d.below dirNames⟩ c = ⟨true, (d.step c).below dirNames⟩ := by
  cases c with
  | root => exact absurd rfl hroot
  | here => rfl
  | name s => simp [Displacement.step, Displacement.below]
  | up =>
    simp only [step] at hdeep
    by_cases hnames : d.names = []
    · -- One more level of the directory goes.
      rw [if_pos hnames] at hdeep
      simp only at hdeep
      have htake : dirNames.take (dirNames.length - d.climb) ≠ [] := by
        rw [← List.length_pos_iff, List.length_take]
        omega
      have hlast : (dirNames.take (dirNames.length - d.climb)).dropLast =
          dirNames.take (dirNames.length - (d.climb + 1)) := by
        rw [List.dropLast_eq_take, List.length_take, List.take_take]
        congr 1
        omega
      simp [Path.step, Displacement.step, below, hnames, htake, hlast]
    · have hne : d.below dirNames ≠ [] := by simp [below, hnames]
      simp only [Path.step, Displacement.step, hnames, hne, if_false]
      rw [below, below, List.dropLast_append_of_ne_nil hnames]

/-- A relative path followed from a directory that is deep enough. -/
theorem Displacement.foldl_below (hroot : .root ∉ path)
    (hdeep : (path.foldl step d).climb ≤ dirNames.length) :
    path.foldl Path.step ⟨true, d.below dirNames⟩ =
      ⟨true, (path.foldl step d).below dirNames⟩ := by
  induction path generalizing d with
  | nil => rfl
  | cons c path ih =>
    rw [List.mem_cons, not_or] at hroot
    have hstep : (d.step c).climb ≤ dirNames.length := Nat.le_trans (climb_le_foldl _ path) hdeep
    rw [List.foldl_cons, step_below (Ne.symm hroot.1) hstep, ih hroot.2 hdeep, List.foldl_cons]

/-- Following a component without a directory: an even number of levels up is lost. -/
theorem Displacement.step_folded (hroot : c ≠ .root) (d : Displacement) :
    Path.step ⟨false, d.folded⟩ c = ⟨false, (d.step c).folded⟩ := by
  cases c with
  | root => exact absurd rfl hroot
  | here => rfl
  | name s =>
    rw [step_name, step, folded, folded, List.append_assoc]
  | up =>
    by_cases hnames : d.names = []
    · rcases Nat.mod_two_eq_zero_or_one d.climb with hparity | hparity
      · have hodd : (d.climb + 1) % 2 = 1 := by omega
        simp [Path.step, Displacement.step, folded, hnames, hparity, hodd]
      · have heven : (d.climb + 1) % 2 = 0 := by omega
        simp [Path.step, Displacement.step, folded, hnames, hparity, heven]
    · have hne : d.folded ≠ [] := by simp [folded, hnames]
      simp only [Path.step, Displacement.step, hnames, hne, if_false]
      rw [folded, folded, List.dropLast_append_of_ne_nil hnames]

theorem Displacement.foldl_folded (hroot : .root ∉ path) (d : Displacement) :
    path.foldl Path.step ⟨false, d.folded⟩ = ⟨false, (path.foldl step d).folded⟩ := by
  induction path generalizing d with
  | nil => rfl
  | cons c path ih =>
    rw [List.mem_cons, not_or] at hroot
    rw [List.foldl_cons, step_folded (Ne.symm hroot.1), ih hroot.2, List.foldl_cons]

theorem Displacement.foldl_names (d : Displacement) (names : List String) :
    (names.map PathComponent.name).foldl step d = ⟨d.climb, d.names ++ names⟩ := by
  induction names generalizing d with
  | nil => simp
  | cons s names ih => rw [List.map_cons, List.foldl_cons, ih, step, List.append_assoc]; rfl

/-! ## Written paths -/

theorem root_not_mem_behind (cs : List Char) : .root ∉ behind cs := by
  intro h
  obtain h | ⟨_, h, _⟩ := mem_behind h <;> cases h

theorem displacement_of_relative (h : isAbsolute written = false) :
    displacement written = (behind written.toList).foldl Displacement.step ⟨0, []⟩ := by
  rw [displacement]
  rcases components_of_relative h with h | h
  · rw [h]
  · rw [h]
    rfl

/-- Where a relative path leads from a directory that is deep enough. -/
theorem resolve_of_deep (h : isAbsolute written = false)
    (hdeep : (displacement written).climb ≤ dirNames.length) :
    resolve ⟨true, dirNames⟩ written = ⟨true, (displacement written).below dirNames⟩ := by
  rw [displacement_of_relative h] at hdeep ⊢
  have hstart : Displacement.below ⟨0, []⟩ dirNames = dirNames := by simp [Displacement.below]
  rw [resolve_of_relative h, ← Displacement.foldl_below (root_not_mem_behind _) hdeep, hstart]

/-- What the normal form of a relative path keeps of it. -/
theorem normalize_of_relative (h : isAbsolute written = false) :
    normalize written = ⟨false, (displacement written).folded⟩ := by
  rw [normalize, resolve_of_relative h, displacement_of_relative h]
  exact Displacement.foldl_folded (root_not_mem_behind _) ⟨0, []⟩

theorem Displacement.isName_of_mem_foldl (hpath : ∀ s, .name s ∈ path → IsName s)
    (hd : ∀ s ∈ d.names, IsName s) : ∀ s ∈ (path.foldl step d).names, IsName s := by
  induction path generalizing d with
  | nil => exact hd
  | cons c path ih =>
    refine ih (fun s hs => hpath s (.tail _ hs)) fun s hs => ?_
    cases c with
    | up =>
      rw [step] at hs
      split at hs
      · cases hs
      · exact hd s (List.dropLast_subset _ hs)
    | name t =>
      rcases List.mem_append.1 hs with hs | hs
      · exact hd s hs
      · rw [List.mem_singleton.1 hs]
        exact hpath t (.head _)
    | root | here => exact hd s hs

theorem isName_of_mem_displacement (h : isAbsolute written = false) :
    ∀ s ∈ (displacement written).names, IsName s := by
  rw [displacement_of_relative h]
  refine Displacement.isName_of_mem_foldl (fun s hs => ?_) fun s hs => by cases hs
  rcases mem_behind hs with hs | ⟨t, hs, ht⟩
  · cases hs
  · cases hs
    exact ht

/-! ## Normal forms as texts -/

/-- A relative path that is written with slashes between its names. -/
theorem behind_intercalate (f : String → PathComponent)
    (h : ∀ s ∈ names, behind s.toList = [f s]) :
    behind ("/".intercalate names).toList = names.map f := by
  induction names with
  | nil => rfl
  | cons s names ih =>
    have hs : behind s.toList = [f s] := h s (.head _)
    cases names with
    | nil => rw [String.intercalate_singleton, hs]; rfl
    | cons t names =>
      have htext : ("/".intercalate (s :: t :: names)).toList =
          s.toList ++ '/' :: ("/".intercalate (t :: names)).toList := by
        simp [String.intercalate_cons_cons]
      rw [htext, behind_append_slash, hs, ih fun u hu => h u (.tail _ hu)]
      rfl

theorem isAbsolute_intercalate (h : ∀ s ∈ names, s.toList ≠ [] ∧ '/' ∉ s.toList) :
    isAbsolute ("/".intercalate names) = false := by
  cases names with
  | nil => rfl
  | cons s names =>
    obtain ⟨hne, hslash⟩ := h s (.head _)
    obtain ⟨tail, htail⟩ : ∃ tail, ("/".intercalate (s :: names)).toList = s.toList ++ tail := by
      cases names with
      | nil => exact ⟨[], by simp⟩
      | cons t names => exact ⟨_, by rw [String.intercalate_cons_cons, String.append_assoc,
          String.toList_append]⟩
    obtain ⟨c, cs, hcs⟩ := List.exists_cons_of_ne_nil hne
    have hc : c ≠ '/' := by
      rintro rfl
      exact hslash (hcs ▸ .head _)
    simp [isAbsolute, htail, hcs, hc]

theorem Displacement.mem_folded (h : s ∈ d.folded) : s = ".." ∨ s ∈ d.names := by
  rcases List.mem_append.1 h with h | h
  · split at h
    · exact .inl (List.mem_singleton.1 h)
    · cases h
  · exact .inr h

theorem text_normalize (h : isAbsolute written = false) :
    (normalize written).text = "/".intercalate (displacement written).folded := by
  rw [normalize_of_relative h]
  exact String.empty_append

theorem isAbsolute_normalize (h : isAbsolute written = false) :
    isAbsolute (normalize written).text = false := by
  rw [text_normalize h]
  refine isAbsolute_intercalate fun s hs => ?_
  rcases Displacement.mem_folded hs with rfl | hs
  · decide
  · have hname := isName_of_mem_displacement h s hs
    exact ⟨hname.ne_empty, hname.no_slash⟩

/-- The normal form of a relative path leads at most one level up. -/
theorem displacement_normalize (h : isAbsolute written = false) :
    displacement (normalize written).text =
      ⟨(displacement written).climb % 2, (displacement written).names⟩ := by
  rw [displacement_of_relative (isAbsolute_normalize h), text_normalize h]
  have hnames := isName_of_mem_displacement h
  generalize displacement written = d at hnames ⊢
  have hne : ∀ s ∈ d.names, s ≠ ".." := fun s hs heq => (hnames s hs).ne_up (heq ▸ rfl)
  have hbehind : ∀ s ∈ d.folded,
      behind s.toList = [if s = ".." then PathComponent.up else .name s] := fun s hs => by
    rcases Displacement.mem_folded hs with rfl | hs
    · rfl
    · rw [behind_of_isName (hnames s hs), if_neg (hne s hs)]
  have hmap : d.names.map (fun s => if s = ".." then PathComponent.up else .name s) =
      d.names.map .name := List.map_congr_left fun s hs => if_neg (hne s hs)
  rw [behind_intercalate _ hbehind, Displacement.folded, List.map_append, hmap, List.foldl_append,
    Displacement.foldl_names]
  rcases Nat.mod_two_eq_zero_or_one d.climb with hparity | hparity <;> rw [hparity] <;> rfl

/-! ## Which paths keep their meaning -/

/-- From a directory that is deep enough, displacements that leave the same names lead to the same
place exactly when they lead equally far up. -/
theorem Displacement.below_inj {d' : Displacement} (hnames : d.names = d'.names)
    (h : d.climb ≤ dirNames.length) (h' : d'.climb ≤ dirNames.length) :
    d.below dirNames = d'.below dirNames ↔ d.climb = d'.climb := by
  refine ⟨fun heq => ?_, fun heq => by rw [below, below, heq, hnames]⟩
  have hlength := congrArg List.length heq
  simp only [below, hnames, List.length_append, List.length_take] at hlength
  omega

/-- Paths with the same normal form leave the same names. -/
theorem names_eq_of_normalize_eq (h : isAbsolute written = false) (h' : isAbsolute other = false)
    (heq : normalize written = normalize other) :
    (displacement written).names = (displacement other).names := by
  have hdisplacement := congrArg (fun p : Path => displacement p.text) heq
  simp only [displacement_normalize h, displacement_normalize h'] at hdisplacement
  exact (Displacement.mk.inj hdisplacement).2

theorem climb_le_of_count
    (hdeep : (components written).count .up ≤ dirNames.length) :
    (displacement written).climb ≤ dirNames.length := by
  have hclimb := Displacement.climb_foldl_le ⟨0, []⟩ (components written)
  rw [Nat.zero_add] at hclimb
  exact Nat.le_trans hclimb hdeep

theorem foldl_step_names (p : Path) (names : List String) :
    (names.map PathComponent.name).foldl step p = ⟨p.absolute, p.names ++ names⟩ := by
  induction names generalizing p with
  | nil => rw [List.append_nil]; rfl
  | cons s names ih => rw [List.map_cons, List.foldl_cons, ih, step_name, List.append_assoc]; rfl

/-- A relative path behind a directory that is deep enough. -/
theorem normalize_join_of_deep (hdir : components dir = .root :: dirNames.map .name)
    (h : isAbsolute written = false) (hdeep : (displacement written).climb ≤ dirNames.length) :
    normalize (join dir written) = ⟨true, (displacement written).below dirNames⟩ := by
  have hstart : normalize dir = ⟨true, dirNames⟩ := by
    rw [normalize, resolve, hdir]
    exact foldl_step_names root dirNames
  rw [normalize_join, hstart, resolve_of_deep h hdeep]

/-- **What normalising a path does to its meaning.** From a directory with at least as many names as
the path has steps up, the normal form of a relative path leads to the same place as the path
exactly when the path leads at most one level up. Two paths with the same normal form lead to the
same place exactly when they lead equally far up. -/
theorem normalize_join_normalize_iff (dir written : String) (dirNames : List String)
    (hdir : components dir = .root :: dirNames.map .name) (hrel : isAbsolute written = false)
    (hdeep : (components written).count .up ≤ dirNames.length) :
    (normalize (join dir (normalize written).text) = normalize (join dir written) ↔
      (displacement written).climb ≤ 1) ∧
    ∀ other, isAbsolute other = false → (components other).count .up ≤ dirNames.length →
      normalize written = normalize other →
      (normalize (join dir written) = normalize (join dir other) ↔
        (displacement written).climb = (displacement other).climb) := by
  have hclimb := climb_le_of_count hdeep
  have hjoin := normalize_join_of_deep hdir hrel hclimb
  refine ⟨?_, fun other hrel' hdeep' heq => ?_⟩
  · have hdisplacement := displacement_normalize hrel
    have hfolded : (displacement (normalize written).text).climb ≤ dirNames.length := by
      rw [hdisplacement]
      exact Nat.le_trans (Nat.mod_le _ _) hclimb
    have hnames : (displacement (normalize written).text).names = (displacement written).names := by
      rw [hdisplacement]
    rw [normalize_join_of_deep hdir (isAbsolute_normalize hrel) hfolded, hjoin, Path.mk.injEq,
      Displacement.below_inj hnames hfolded hclimb, hdisplacement]
    simp only [true_and]
    omega
  · have hclimb' := climb_le_of_count hdeep'
    rw [hjoin, normalize_join_of_deep hdir hrel' hclimb', Path.mk.injEq,
      Displacement.below_inj (names_eq_of_normalize_eq hrel hrel' heq) hclimb hclimb']
    simp only [true_and]

/-- A path that goes up behind a name keeps its meaning. -/
theorem normalize_join_normalize_iff_sibling :
    components "/a/b" = .root :: ["a", "b"].map .name ∧ isAbsolute "./c/../../d" = false ∧
      (components "./c/../../d").count .up ≤ ["a", "b"].length ∧
      (displacement "./c/../../d").climb ≤ 1 ∧
      normalize (join "/a/b" (normalize "./c/../../d").text) =
        normalize (join "/a/b" "./c/../../d") ∧
      normalize "./c/../../d" = normalize "../d" ∧
      normalize (join "/a/b" "./c/../../d") = normalize (join "/a/b" "../d") := by
  have h := normalize_join_normalize_iff "/a/b" "./c/../../d" ["a", "b"] (by decide) (by decide)
    (by decide)
  exact ⟨by decide, by decide, by decide, by decide, h.1.2 (by decide), by decide,
    (h.2 "../d" (by decide) (by decide) (by decide)).2 (by decide)⟩

/-- Two levels up are lost: `../..` has the empty path as its normal form, and `../../x.h` is taken
for `x.h`. -/
theorem normalize_loses_levels :
    components "/a/b" = .root :: ["a", "b"].map .name ∧ isAbsolute "../.." = false ∧
      (components "../..").count .up ≤ ["a", "b"].length ∧
      normalize (join "/a/b" (normalize "../..").text) ≠ normalize (join "/a/b" "../..") ∧
      isAbsolute "../../x.h" = false ∧ isAbsolute "x.h" = false ∧
      normalize "../../x.h" = normalize "x.h" ∧
      normalize (join "/a/b" "../../x.h") ≠ normalize (join "/a/b" "x.h") := by
  decide

end Bindery.Path
