import Bindery.Registry
import Mathlib.Logic.Relation

/-!
# Which classes derive from which

A class is below another in a registry exactly when the lists of bases lead from it there, over any
number of steps and none. The search visits names until none is left: what was visited already has
its bases visited or waiting, so names that are waiting when the search gives up cannot lead to the
name that is searched for. Cyclic lists and bases that are not registered do no harm.

The order of the visits makes no difference: a search that takes any waiting name next ends as well,
and with the same answer.

## Main definitions

* `Registry.ListsBase`: one step from a class to a listed base.
* `Registry.openCount`: the bases that are still to be taken up.
* `Registry.Visit`: one step of a search in any order.

## Main statements

* `Registry.isSubclass_iff`: the search finds what the lists lead to.
* `Registry.wellFounded_visit`: no search goes on for ever.
* `Registry.isSubclass_decides`: searches in any order end and decide what is below what.
-/
namespace Bindery
namespace Registry

variable {r : Registry} {b c base : String} {fuel : Nat} {pending seen : List String}

/-- One step from a class to a base that is listed for it. -/
def ListsBase (r : Registry) (c b : String) : Prop := b ∈ r.basesOf c

/-! ## The bound on the visits -/

/-- The number of bases in the lists of the classes that were not visited. -/
def openCount (r : Registry) (seen : List String) : Nat :=
  r.entries.foldr (fun (name, info) n =>
    if name ∈ seen then n else info.bases.length + n) 0

theorem openCount_nil (r : Registry) : r.openCount [] = r.baseCount := by
  simp only [openCount, baseCount, List.not_mem_nil, if_false]

theorem openCount_cons_le (r : Registry) (c : String) (seen : List String) :
    r.openCount (c :: seen) ≤ r.openCount seen := by
  obtain ⟨entries⟩ := r
  simp only [openCount]
  induction entries with
  | nil => exact Nat.le_refl _
  | cons e entries ih =>
    obtain ⟨name, info⟩ := e
    simp only [List.foldr_cons, List.mem_cons] at ih ⊢
    by_cases hseen : name ∈ seen
    · simpa [hseen] using ih
    · by_cases hname : name = c
      · rw [if_pos (.inl hname), if_neg hseen]
        exact Nat.le_add_left_of_le ih
      · simpa [hseen, hname] using ih

/-- A class that is visited for the first time takes its bases off the bound. -/
theorem length_basesOf_add_openCount_le (hc : c ∉ seen) :
    (r.basesOf c).length + r.openCount (c :: seen) ≤ r.openCount seen := by
  obtain ⟨entries⟩ := r
  simp only [basesOf, OrderedMap.find?]
  induction entries with
  | nil => exact Nat.le_refl _
  | cons e entries ih =>
    obtain ⟨name, info⟩ := e
    simp only [openCount, List.foldr_cons, List.mem_cons] at ih ⊢
    by_cases hname : name = c
    · -- The class itself: the first entry with its name is the one that is looked up.
      subst hname
      have hrest := openCount_cons_le ⟨entries⟩ name seen
      simp only [openCount, List.mem_cons] at hrest
      simpa [hc] using hrest
    · by_cases hseen : name ∈ seen <;> simp [hname, hseen] at ih ⊢ <;> omega

/-! ## The search -/

/-- What the search finds is reached from a name that was waiting. -/
theorem exists_reflTransGen_of_reaches (h : r.reaches base fuel pending seen = true) :
    ∃ c ∈ pending, Relation.ReflTransGen r.ListsBase c base := by
  induction fuel generalizing pending seen with
  | zero => simp [reaches] at h
  | succ fuel ih =>
    cases pending with
    | nil => simp [reaches] at h
    | cons c pending =>
      rw [reaches] at h
      split at h
      · next heq => exact ⟨c, .head _, heq ▸ .refl⟩
      · split at h
        · obtain ⟨d, hd, hreach⟩ := ih h
          exact ⟨d, .tail _ hd, hreach⟩
        · obtain ⟨d, hd, hreach⟩ := ih h
          rcases List.mem_append.1 hd with hd | hd
          · exact ⟨c, .head _, hreach.head hd⟩
          · exact ⟨d, .tail _ hd, hreach⟩

/-- Names that were visited: none is the one that is searched for, and their bases were visited or
are waiting. -/
structure Visited (r : Registry) (base : String) (seen pending : List String) : Prop where
  ne : ∀ c ∈ seen, c ≠ base
  bases : ∀ c ∈ seen, ∀ b, r.ListsBase c b → b ∈ seen ∨ b ∈ pending

/-- When nothing is waiting, names that were visited do not lead to the one searched for. -/
theorem Visited.not_reflTransGen (h : r.Visited base seen []) (hc : c ∈ seen) :
    ¬Relation.ReflTransGen r.ListsBase c base := by
  intro hreach
  induction hreach using Relation.ReflTransGen.head_induction_on with
  | refl => exact h.ne _ hc rfl
  | head hstep _ ih => exact ih ((h.bases _ hc _ hstep).resolve_right List.not_mem_nil)

/-- A name that was visited need not wait. -/
theorem mem_of_drop (hseen : c ∈ seen) (hb : b ∈ seen ∨ b ∈ c :: pending) :
    b ∈ seen ∨ b ∈ pending := by
  rcases hb with hb | hb
  · exact .inl hb
  · rcases List.mem_cons.1 hb with rfl | hb
    · exact .inl hseen
    · exact .inr hb

/-- A visit leaves no name behind. -/
theorem mem_of_expand (hb : b ∈ seen ∨ b ∈ c :: pending) :
    b ∈ c :: seen ∨ b ∈ r.basesOf c ++ pending := by
  rcases hb with hb | hb
  · exact .inl (.tail _ hb)
  · rcases List.mem_cons.1 hb with rfl | hb
    · exact .inl (.head _)
    · exact .inr (List.mem_append_right _ hb)

/-- A name may stop waiting when it was visited. -/
theorem Visited.mono {pending' : List String} (h : r.Visited base seen pending)
    (hmem : ∀ b ∈ pending, b ∈ seen ∨ b ∈ pending') : r.Visited base seen pending' where
  ne := h.ne
  bases c hc b hb := (h.bases c hc b hb).elim .inl (hmem b)

/-- A waiting name counts as visited when its bases wait instead. -/
theorem Visited.expand (h : r.Visited base seen (c :: pending)) (hne : c ≠ base) :
    r.Visited base (c :: seen) (r.basesOf c ++ pending) where
  ne d hd := by
    rcases List.mem_cons.1 hd with rfl | hd
    · exact hne
    · exact h.ne d hd
  bases d hd b hb := by
    rcases List.mem_cons.1 hd with rfl | hd
    · exact .inr (List.mem_append_left _ hb)
    · exact mem_of_expand (h.bases d hd b hb)

/-- A search with enough visits left finds what its names lead to. -/
theorem reaches_of_reflTransGen (hvisited : r.Visited base seen pending)
    (hfuel : pending.length + r.openCount seen < fuel) (hc : c ∈ seen ∨ c ∈ pending)
    (hreach : Relation.ReflTransGen r.ListsBase c base) :
    r.reaches base fuel pending seen = true := by
  induction fuel generalizing pending seen with
  | zero => exact absurd hfuel (Nat.not_lt_zero _)
  | succ fuel ih =>
    cases pending with
    | nil => exact absurd hreach (hvisited.not_reflTransGen (hc.resolve_right List.not_mem_nil))
    | cons d pending =>
      rw [List.length_cons] at hfuel
      rw [reaches]
      split
      · rfl
      · next hne =>
        split
        · -- The name was visited before: it goes from the waiting names and nothing is lost.
          next hseen =>
          have hd : d ∈ seen := List.contains_iff_mem.1 hseen
          exact ih (hvisited.mono fun b hb => mem_of_drop hd (.inr hb)) (by omega)
            (mem_of_drop hd hc)
        · -- A new name: it counts as visited from now on, and its bases wait.
          next hseen =>
          have hd : d ∉ seen := fun hd => hseen (List.contains_iff_mem.2 hd)
          have hcount := length_basesOf_add_openCount_le (r := r) hd
          refine ih (hvisited.expand hne) ?_ (mem_of_expand hc)
          rw [List.length_append]
          omega

/-- A class is below another exactly when the lists of bases lead from it there. -/
theorem isSubclass_iff :
    r.isSubclass c base = true ↔ Relation.ReflTransGen r.ListsBase c base := by
  refine ⟨fun h => ?_, fun hreach => ?_⟩
  · obtain ⟨d, hd, hreach⟩ := exists_reflTransGen_of_reaches h
    obtain rfl := List.mem_singleton.1 hd
    exact hreach
  · refine reaches_of_reflTransGen ⟨fun _ hc => (List.not_mem_nil hc).elim,
      fun _ hc => (List.not_mem_nil hc).elim⟩ ?_ (.inr (.head _)) hreach
    rw [openCount_nil, List.length_singleton]
    omega

/-! ## Searches in any order -/

/-- A search on its way: the names that wait for a visit and the names that were visited. -/
structure Search where
  pending : List String
  seen : List String

/-- A search for `base` takes a waiting name that is another one. A name that was visited before
is dropped; the bases of any other wait from then on. -/
inductive Visit (r : Registry) (base : String) : Search → Search → Prop
  | drop {c : String} {pending rest seen : List String} (hperm : pending.Perm (c :: rest))
      (hne : c ≠ base) (hseen : c ∈ seen) : Visit r base ⟨pending, seen⟩ ⟨rest, seen⟩
  | expand {c : String} {pending rest seen : List String} (hperm : pending.Perm (c :: rest))
      (hne : c ≠ base) (hseen : c ∉ seen) :
      Visit r base ⟨pending, seen⟩ ⟨r.basesOf c ++ rest, c :: seen⟩

variable {s s' : Search}

/-- A visit takes up a name, and a name for every base that it makes wait. -/
theorem Visit.lt (h : r.Visit base s s') :
    s'.pending.length + r.openCount s'.seen < s.pending.length + r.openCount s.seen := by
  cases h with
  | drop hperm _ _ =>
    have hlength := hperm.length_eq
    simp only [List.length_cons] at hlength ⊢
    omega
  | expand hperm _ hseen =>
    have hlength := hperm.length_eq
    have hcount := length_basesOf_add_openCount_le (r := r) hseen
    simp only [List.length_cons, List.length_append] at hlength ⊢
    omega

/-- No search goes on for ever. -/
theorem wellFounded_visit (r : Registry) (base : String) :
    WellFounded fun s' s => r.Visit base s s' :=
  Subrelation.wf Visit.lt (measure fun s : Search => s.pending.length + r.openCount s.seen).wf

/-- A search goes on unless no name is waiting or only the name that it is for. -/
theorem exists_visit (h : c ∈ s.pending) (hne : c ≠ base) : ∃ s', r.Visit base s s' := by
  obtain ⟨pending, seen⟩ := s
  have hperm := List.perm_cons_erase h
  by_cases hseen : c ∈ seen
  · exact ⟨_, .drop hperm hne hseen⟩
  · exact ⟨_, .expand hperm hne hseen⟩

/-- What a search from `start` keeps: it has lost no way from there to `base`, and `start` leads to
every waiting name. -/
structure Search.Keeps (r : Registry) (start base : String) (s : Search) : Prop where
  visited : r.Visited base s.seen s.pending
  start_mem : start ∈ s.seen ∨ start ∈ s.pending
  reached : ∀ c ∈ s.pending, Relation.ReflTransGen r.ListsBase start c

theorem Search.keeps_start (r : Registry) (start base : String) :
    Search.Keeps r start base ⟨[start], []⟩ where
  visited := ⟨fun _ hc => (List.not_mem_nil hc).elim, fun _ hc => (List.not_mem_nil hc).elim⟩
  start_mem := .inr (.head _)
  reached _ hc := List.mem_singleton.1 hc ▸ .refl

theorem Search.Keeps.visit {start : String} (h : s.Keeps r start base)
    (hvisit : r.Visit base s s') : s'.Keeps r start base := by
  cases hvisit with
  | @drop c pending rest seen hperm _ hseen =>
    have hwaiting : ∀ b, b ∈ pending → b ∈ c :: rest := fun b => hperm.mem_iff.1
    exact ⟨h.visited.mono fun b hb => mem_of_drop hseen (.inr (hwaiting b hb)),
      mem_of_drop hseen (h.start_mem.imp_right (hwaiting start)),
      fun d hd => h.reached d (hperm.mem_iff.2 (.tail _ hd))⟩
  | @expand c pending rest seen hperm hne hseen =>
    have hwaiting : ∀ b, b ∈ pending → b ∈ c :: rest := fun b => hperm.mem_iff.1
    have hvisited : r.Visited base seen (c :: rest) :=
      h.visited.mono fun b hb => .inr (hwaiting b hb)
    refine ⟨hvisited.expand hne, mem_of_expand (h.start_mem.imp_right (hwaiting start)),
      fun d hd => ?_⟩
    rcases List.mem_append.1 hd with hd | hd
    · exact (h.reached c (hperm.mem_iff.2 (.head _))).tail hd
    · exact h.reached d (hperm.mem_iff.2 (.tail _ hd))

theorem Search.keeps_of_reflTransGen {start : String}
    (h : Relation.ReflTransGen (r.Visit base) ⟨[start], []⟩ s) : s.Keeps r start base := by
  induction h with
  | refl => exact keeps_start r start base
  | tail _ hvisit ih => exact ih.visit hvisit

/-- **Searching the lists of bases decides what is below what**, whatever the lists are: no search
goes on for ever, whichever waiting name it takes next, and one that cannot go on has no names left
or only the one that it is for; `isSubclass` has the answer that a search gives when it finds the
name or has no names left. That answer is whether the lists lead from the class to the other over
any number of steps, so it is reflexive and transitive. -/
theorem isSubclass_decides (r : Registry) (derived base : String) :
    (WellFounded fun s' s => r.Visit base s s') ∧
    (∀ s, (¬∃ s', r.Visit base s s') → ∀ c ∈ s.pending, c = base) ∧
    (∀ s, Relation.ReflTransGen (r.Visit base) ⟨[derived], []⟩ s →
      (base ∈ s.pending → r.isSubclass derived base = true) ∧
      (s.pending = [] → r.isSubclass derived base = false)) ∧
    (r.isSubclass derived base = true ↔ Relation.ReflTransGen r.ListsBase derived base) ∧
    r.isSubclass derived derived = true ∧
    ∀ c, r.isSubclass derived base = true → r.isSubclass base c = true →
      r.isSubclass derived c = true := by
  refine ⟨wellFounded_visit r base, fun s hstuck c hc => ?_, fun s hs => ⟨fun hfound => ?_,
    fun hnone => ?_⟩, isSubclass_iff, isSubclass_iff.2 .refl, fun c hbase hc => ?_⟩
  · exact Decidable.byContradiction fun hne => hstuck (exists_visit hc hne)
  · exact isSubclass_iff.2 ((Search.keeps_of_reflTransGen hs).reached base hfound)
  · obtain ⟨hvisited, hstart, -⟩ := Search.keeps_of_reflTransGen hs
    rw [hnone] at hvisited hstart
    have hno := hvisited.not_reflTransGen (hstart.resolve_right List.not_mem_nil)
    exact Bool.eq_false_iff.2 fun h => hno (isSubclass_iff.1 h)
  · exact isSubclass_iff.2 ((isSubclass_iff.1 hbase).trans (isSubclass_iff.1 hc))

/-- A diamond whose top lists the bottom again, with a base that is not registered. -/
def cyclicDiamond : Registry :=
  ⟨[("D", ⟨"D", ["B", "C", "X"]⟩), ("B", ⟨"B", ["A"]⟩), ("C", ⟨"C", ["A"]⟩), ("A", ⟨"A", ["D"]⟩)]⟩

/-- A search from `B` finds `X`, which is not registered; one for a class that nothing leads to ends
without names. -/
theorem isSubclass_decides_cyclicDiamond :
    Relation.ReflTransGen (cyclicDiamond.Visit "X") ⟨["B"], []⟩
      ⟨["C", "X"], ["D", "A", "B"]⟩ ∧
    cyclicDiamond.isSubclass "B" "X" = true ∧
    Relation.ReflTransGen (cyclicDiamond.Visit "Y") ⟨["X"], []⟩ ⟨[], ["X"]⟩ ∧
    cyclicDiamond.isSubclass "X" "Y" = false ∧
    cyclicDiamond.isSubclass "B" "A" = true ∧ cyclicDiamond.isSubclass "A" "C" = true ∧
    cyclicDiamond.isSubclass "B" "C" = true := by
  have hfirst : cyclicDiamond.Visit "X" ⟨["B"], []⟩ ⟨["A"], ["B"]⟩ :=
    .expand (.refl _) (by decide) (by decide)
  have hsecond : cyclicDiamond.Visit "X" ⟨["A"], ["B"]⟩ ⟨["D"], ["A", "B"]⟩ :=
    .expand (.refl _) (by decide) (by decide)
  have hthird : cyclicDiamond.Visit "X" ⟨["D"], ["A", "B"]⟩ ⟨["B", "C", "X"], ["D", "A", "B"]⟩ :=
    .expand (.refl _) (by decide) (by decide)
  have hfourth : cyclicDiamond.Visit "X" ⟨["B", "C", "X"], ["D", "A", "B"]⟩
      ⟨["C", "X"], ["D", "A", "B"]⟩ := .drop (.refl _) (by decide) (by decide)
  have hfound := (((Relation.ReflTransGen.single hfirst).tail hsecond).tail hthird).tail hfourth
  have hnone : Relation.ReflTransGen (cyclicDiamond.Visit "Y") ⟨["X"], []⟩ ⟨[], ["X"]⟩ :=
    .single (.expand (.refl _) (by decide) (by decide))
  have hX := ((isSubclass_decides cyclicDiamond "B" "X").2.2.1 _ hfound).1 (by decide)
  have hY := ((isSubclass_decides cyclicDiamond "X" "Y").2.2.1 _ hnone).2 rfl
  have hA : cyclicDiamond.isSubclass "B" "A" = true := by decide
  have hC : cyclicDiamond.isSubclass "A" "C" = true := by decide
  exact ⟨hfound, hX, hnone, hY, hA, hC,
    (isSubclass_decides cyclicDiamond "B" "A").2.2.2.2.2 "C" hA hC⟩

end Registry
end Bindery
