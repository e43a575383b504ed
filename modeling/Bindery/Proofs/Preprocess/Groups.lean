import Bindery.Proofs.Preprocess.Moments
import Mathlib

/-!
# Conditional groups over a run

The open groups nest: a group remembers whether the text around it is read, and a branch is read
only where the text around it is. So text is read only if every open group is, and what a token
does elsewhere is to open, turn and close groups. From its beginning to its end a group has at
most one branch that is read, and if it has an `#else` and the text around it is read, there is
one.

## Main definitions

* `Conditional.Nested`: what open groups know of each other.
* `Conditional.Turned`: what a directive makes of the group that it turns to another branch.
* `Moment.ReadsGroup`, `Moment.Turns`, `Moment.Taken`: a group at a moment.
* `Moment.Opens`, `Moment.Within`: a step that opens a group, and one at which it stays open.

## Main statements

* `Moment.groups_exclusive`: nesting, and the branches of each group.
-/
namespace Bindery

/-! ## Open groups -/

namespace Conditional

/-- What open groups, the innermost first, know of each other. -/
structure Nested (stack : List Conditional) : Prop where
  /-- The text around the outermost group is read. -/
  outermost : ∀ c, stack.getLast? = some c → c.parentActive = true
  /-- A group knows whether the text around it is read. -/
  around : ∀ (k : Nat) (inner outer : Conditional), stack[k]? = some inner →
    stack[k + 1]? = some outer → inner.parentActive = outer.active
  /-- A branch is read only where the text around it is, and it is the one that was taken. -/
  branch : ∀ c ∈ stack, c.active = true → c.parentActive = true ∧ c.taken = true

theorem nested_nil : Nested [] := ⟨by simp, by simp, by simp⟩

theorem nested_cons {c : Conditional} {rest : List Conditional} : Nested (c :: rest) ↔
    c.parentActive = isActive rest ∧
      (c.active = true → c.parentActive = true ∧ c.taken = true) ∧ Nested rest := by
  constructor
  · rintro ⟨houter, haround, hbranch⟩
    refine ⟨?_, hbranch c (.head _), ⟨fun d hd => ?_, fun k => ?_, fun d hd => ?_⟩⟩
    · cases rest with
      | nil => exact houter c rfl
      | cons d rest => exact haround 0 c d rfl rfl
    · cases rest with
      | nil => simp at hd
      | cons e rest => exact houter d (by rwa [List.getLast?_cons_cons])
    · exact haround (k + 1)
    · exact hbranch d (.tail _ hd)
  · rintro ⟨hparent, hc, houter, haround, hbranch⟩
    refine ⟨fun d hd => ?_, fun k inner outer hin hout => ?_, fun d hd => ?_⟩
    · cases rest with
      | nil =>
        obtain rfl : c = d := by simpa using hd
        exact hparent
      | cons e rest => exact houter d (by rwa [List.getLast?_cons_cons] at hd)
    · cases k with
      | zero =>
        obtain rfl : c = inner := by simpa using hin
        cases rest with
        | nil => simp at hout
        | cons d rest =>
          obtain rfl : d = outer := by simpa using hout
          exact hparent
      | succ k => exact haround k inner outer (by simpa using hin) (by simpa using hout)
    · rcases List.mem_cons.1 hd with rfl | hd
      · exact hc
      · exact hbranch d hd

/-- Where text is read, every open group is read. -/
theorem Nested.all_active {stack : List Conditional} (h : Nested stack)
    (hactive : isActive stack = true) : ∀ c ∈ stack, c.active = true := by
  induction stack with
  | nil => simp
  | cons c rest ih =>
    obtain ⟨hparent, hc, hrest⟩ := nested_cons.1 h
    intro d hd
    rcases List.mem_cons.1 hd with rfl | hd
    · exact hactive
    · exact ih hrest (hparent ▸ (hc hactive).1) d hd

variable {name : String} {before after : List Conditional}

theorem Changes.nested (h : Changes name before after) (hn : Nested before) : Nested after := by
  cases h with
  | opens hname value origin =>
    refine nested_cons.2 ⟨rfl, fun hactive => ?_, hn⟩
    have hboth : isActive before = true ∧ value = true := by simpa using hactive
    simp [hboth]
  | elseIf hname hvalue rest =>
    rename_i c value
    obtain ⟨hparent, -, hrest⟩ := nested_cons.1 hn
    refine nested_cons.2 ⟨hparent, fun hactive => ?_, hrest⟩
    have hwants := hvalue hactive
    rw [wantsCondition, Bool.and_eq_true] at hwants
    have htaken : (c.taken || value) = true := Bool.or_eq_true_iff.2 (.inr hactive)
    exact ⟨hwants.1, htaken⟩
  | otherwise c rest =>
    obtain ⟨hparent, -, hrest⟩ := nested_cons.1 hn
    refine nested_cons.2 ⟨hparent, fun hactive => ⟨?_, rfl⟩, hrest⟩
    exact (Bool.and_eq_true_iff.1 hactive).1
  | closes c rest => exact (nested_cons.1 hn).2.2

/-! ## A single group -/

/-- What a directive makes of the group that it turns to another branch. -/
inductive Turned (name : String) (c : Conditional) : Conditional → Prop where
  | elseIf {value : Bool} (hname : name ∈ turns)
      (hvalue : value = true → c.wantsCondition = true) : Turned name c (c.elseIf value)
  | otherwise (hname : name = "else") : Turned name c c.otherwise

namespace Turned

variable {c d : Conditional}

theorem parentActive (h : Turned name c d) : d.parentActive = c.parentActive := by
  cases h <;> rfl

/-- Behind a branch that was taken no other one is. -/
theorem of_taken (h : Turned name c d) (hc : c.taken = true) :
    d.taken = true ∧ d.active = false := by
  cases h with
  | elseIf hname hvalue =>
    refine ⟨by simp [Conditional.elseIf, hc], Bool.eq_false_iff.2 fun hactive => ?_⟩
    have hwants := hvalue hactive
    simp [wantsCondition, hc] at hwants
  | otherwise hname => exact ⟨rfl, by simp [Conditional.otherwise, hc]⟩

/-- A branch that is the first one taken is read, if the text around the group is. -/
theorem active (h : Turned name c d) (hparent : c.parentActive = true) (hc : c.taken = false)
    (hd : d.taken = true) : d.active = true := by
  cases h with
  | elseIf hname hvalue => simpa [Conditional.elseIf, hc] using hd
  | otherwise hname => simp [Conditional.otherwise, hparent, hc]

/-- Behind `#else` some branch was taken. -/
theorem taken_of_else (h : Turned "else" c d) : d.taken = true := by
  cases h with
  | elseIf hname hvalue => simp [turns] at hname
  | otherwise hname => rfl

end Turned

theorem openedSince?_cons (n : Nat) (c : Conditional) (rest : List Conditional) :
    Preprocessor.openedSince? n (c :: rest) =
      if n = rest.length then some c else Preprocessor.openedSince? n rest := by
  simp only [Preprocessor.openedSince?, List.reverse_cons]
  by_cases hlt : n < rest.length
  · rw [List.getElem?_append_left (by simpa using hlt), if_neg (Nat.ne_of_lt hlt)]
  · rw [List.getElem?_append_right (by simpa using hlt), List.length_reverse]
    by_cases heq : n = rest.length
    · simp [heq]
    · have hpos : n - rest.length = (n - rest.length - 1) + 1 := by omega
      rw [if_neg heq, hpos, List.getElem?_eq_none (by simp), List.getElem?_eq_none (by simp; omega)]

theorem lt_of_openedSince? {n : Nat} {c : Conditional} {stack : List Conditional}
    (h : Preprocessor.openedSince? n stack = some c) : n < stack.length := by
  have hlt := (List.getElem?_eq_some_iff.1 h).1
  rwa [List.length_reverse] at hlt

/-- What becomes of the group inside `n` others while it stays open: it is turned to another
branch, or it is as it was. -/
theorem Changes.group (h : Changes name before after) {n : Nat} (hn : n < after.length)
    {c : Conditional} (hc : Preprocessor.openedSince? n before = some c) :
    (before.length = n + 1 ∧ name ∈ turns ++ ["else"] ∧
      ∃ d, Turned name c d ∧ Preprocessor.openedSince? n after = some d) ∨
    ¬(before.length = n + 1 ∧ name ∈ turns ++ ["else"]) ∧
      Preprocessor.openedSince? n after = some c := by
  have hlt := lt_of_openedSince? hc
  -- The innermost group is turned; it is the one inside `n` others if there are `n + 1` in all.
  have hturn : ∀ {d e : Conditional} {rest : List Conditional}, before = d :: rest →
      after = e :: rest → name ∈ turns ++ ["else"] → Turned name d e →
      (before.length = n + 1 ∧ name ∈ turns ++ ["else"] ∧
        ∃ d, Turned name c d ∧ Preprocessor.openedSince? n after = some d) ∨
      ¬(before.length = n + 1 ∧ name ∈ turns ++ ["else"]) ∧
        Preprocessor.openedSince? n after = some c := by
    rintro d e rest rfl rfl hname hturned
    rw [openedSince?_cons] at hc ⊢
    by_cases heq : n = rest.length
    · obtain rfl : d = c := by simpa [heq] using hc
      exact .inl ⟨by simp [heq], hname, e, hturned, by simp [heq]⟩
    · rw [if_neg heq] at hc ⊢
      exact .inr ⟨fun hboth => heq (by simpa using hboth.1.symm), hc⟩
  cases h with
  | opens hname value origin =>
    refine .inr ⟨fun hboth => ?_, ?_⟩
    · simp only [openers, List.mem_cons, List.not_mem_nil, or_false] at hname
      rcases hname with rfl | rfl | rfl <;> simp [turns] at hboth
    · rw [push, openedSince?_cons, if_neg (Nat.ne_of_lt hlt), hc]
  | elseIf hname hvalue rest =>
    exact hturn rfl rfl (List.mem_append.2 (.inl hname)) (.elseIf hname hvalue)
  | otherwise d rest => exact hturn rfl rfl (by simp) (.otherwise rfl)
  | closes d rest =>
    refine .inr ⟨fun hboth => ?_, ?_⟩
    · simp [turns] at hboth
    · rwa [openedSince?_cons, if_neg (Nat.ne_of_lt hn)] at hc

theorem mem_directives (h : name ∈ turns ++ ["else"]) : name ∈ directives := by
  rw [directives, List.mem_append, List.mem_append]
  rcases List.mem_append.1 h with h | h
  · exact .inl (.inr h)
  · exact .inr (List.mem_cons.2 (.inl (List.mem_singleton.1 h)))

/-- Only a beginning adds a group. -/
theorem Changes.opened (h : Changes name before after)
    (hlength : after.length = before.length + 1) :
    ∃ value origin, after = push value origin before := by
  cases h with
  | opens hname value origin => exact ⟨value, origin, rfl⟩
  | elseIf hname hvalue rest => simp at hlength
  | otherwise c rest => simp at hlength
  | closes c rest =>
    rw [List.length_cons] at hlength
    omega

end Conditional

/-! ## Moments -/

/-- In text that is not read a token that is no conditional directive does nothing. -/
theorem Preprocessor.yields_of_not_active {sources : Sources} {includeDirs : List String}
    {s : Preprocessor} (hactive : s.isActive = false) (f : OpenFile) {t : Token}
    (hname : ∀ name ∈ t.directive?, name ∉ Conditional.directives) :
    Yields sources includeDirs f t s (.ok s) := by
  intro splice
  unfold token
  split
  · rename_i hkind
    split
    · rename_i line hline
      have hother := hname line.name.text (by simp [Token.directive?, hkind, hline])
      rw [obey_of_not_mem hother, hactive]
      rfl
    · rfl
  · rw [hactive]
    rfl

namespace Moment

/-- The name of the directive that is read next. -/
def directive? (m : Moment) : Option String :=
  (m.files.head?.bind fun f => f.rest.head?).bind Token.directive?

/-- The current branch of the group inside `n` others is read. -/
def ReadsGroup (n : Nat) (m : Moment) : Prop :=
  ∃ c, Preprocessor.openedSince? n m.state.conditionals = some c ∧ c.active = true

/-- The next token turns the group inside `n` others to another branch. -/
def Turns (n : Nat) (m : Moment) : Prop :=
  m.state.conditionals.length = n + 1 ∧
    ∃ name ∈ m.directive?, name ∈ Conditional.turns ++ ["else"]

variable {sources : Sources} {includeDirs : List String}

/-- What a step makes of the open groups. -/
theorem Moves.groups {m m' : Moment} (h : Moves sources includeDirs m m') :
    (∃ name, m.directive? = some name ∧
      Conditional.Changes name m.state.conditionals m'.state.conditionals ∧
      m'.state = { m.state with conditionals := m'.state.conditionals }) ∨
    (∀ name ∈ m.directive?, name ∉ Conditional.directives) ∧
      m'.state.conditionals = m.state.conditionals ∧
      (m.state.isActive = false → m'.state = m.state) := by
  cases h with
  | @read f fs t rest s s' hrest ht =>
    have hnext : directive? ⟨f :: fs, s⟩ = t.directive? := by simp [directive?, hrest]
    simp only [hnext]
    cases ht.effect with
    | regrouped hname hstack => exact .inl ⟨_, hname, hstack, rfl⟩
    | skipped hname => exact .inr ⟨hname, rfl, fun _ => rfl⟩
    | obeyed hname hactive hquiet =>
      exact .inr ⟨hname, hquiet.groups, fun hnot => by simp [hactive] at hnot⟩
    | emitted hactive hkind hpieces =>
      refine .inr ⟨?_, rfl, fun hnot => by simp [hactive] at hnot⟩
      simp [Token.directive?, hkind]
  | @pass f fs t rest s target hrest ht =>
    obtain ⟨hactive, name, hname, hother⟩ := ht.isActive
    exact .inr ⟨by simp [directive?, hrest, hname, hother], rfl, fun _ => rfl⟩
  | @enter f fs t rest s target text hrest ht =>
    obtain ⟨hactive, name, hname, hother⟩ := ht.isActive
    exact .inr ⟨by simp [directive?, hrest, hname, hother], rfl,
      fun hnot => by simp [hactive] at hnot⟩
  | @leave f fs s hrest => exact .inr ⟨by simp [directive?, hrest], rfl, fun _ => rfl⟩

theorem Reached.leads {flags : Flags} {path : String} {m m' : Moment}
    (h : Reached sources flags path m) (hleads : Leads sources flags.includeDirs m m') :
    Reached sources flags path m' := by
  obtain ⟨text, htext, hm⟩ := h
  exact ⟨text, htext, hm.trans hleads⟩

/-- Open groups nest at every moment of a run. -/
theorem Reached.nested {flags : Flags} {path : String} {m : Moment}
    (h : Reached sources flags path m) : Conditional.Nested m.state.conditionals := by
  obtain ⟨text, -, hleads⟩ := h
  induction hleads with
  | refl => exact Conditional.nested_nil
  | tail _ hmove ih =>
    rcases hmove.groups with ⟨name, -, hchanges, -⟩ | ⟨-, hsame, -⟩
    · exact hchanges.nested ih
    · rwa [hsame]

/-! ## From the beginning of a group to its end -/

variable (sources includeDirs) in
/-- The step opens a group inside `n` others. -/
def Opens (n : Nat) (m m' : Moment) : Prop :=
  Moves sources includeDirs m m' ∧ m.state.conditionals.length = n ∧
    m'.state.conditionals.length = n + 1

variable (sources includeDirs) in
/-- A step at which the group inside `n` others stays open. -/
def Within (n : Nat) (m m' : Moment) : Prop :=
  Moves sources includeDirs m m' ∧ n < m'.state.conditionals.length

variable (sources includeDirs) in
/-- Steps at which the group inside `n` others stays open. -/
abbrev Stays (n : Nat) : Moment → Moment → Prop :=
  Relation.ReflTransGen (Within sources includeDirs n)

/-- Some branch of the group inside `n` others was taken. -/
def Taken (n : Nat) (m : Moment) : Prop :=
  ∃ c, Preprocessor.openedSince? n m.state.conditionals = some c ∧ c.taken = true

variable {n : Nat} {m m' m₀ m₁ : Moment}

/-- A group that stays open is turned to another branch, or it is as it was. -/
theorem Within.group (h : Within sources includeDirs n m m') {c : Conditional}
    (hc : Preprocessor.openedSince? n m.state.conditionals = some c) :
    (Turns n m ∧ ∃ name ∈ m.directive?, ∃ d, Conditional.Turned name c d ∧
      Preprocessor.openedSince? n m'.state.conditionals = some d) ∨
    ¬Turns n m ∧ Preprocessor.openedSince? n m'.state.conditionals = some c := by
  rcases h.1.groups with ⟨name, hname, hchanges, -⟩ | ⟨hother, hsame, -⟩
  · rcases hchanges.group h.2 hc with ⟨hlength, hmem, d, hturned, hd⟩ | ⟨hnot, hd⟩
    · exact .inl ⟨⟨hlength, name, hname, hmem⟩, name, hname, d, hturned, hd⟩
    · refine .inr ⟨?_, hd⟩
      rintro ⟨hlength, name', hname', hmem⟩
      obtain rfl : name = name' := Option.some.inj (hname.symm.trans hname')
      exact hnot ⟨hlength, hmem⟩
  · refine .inr ⟨?_, hsame ▸ hc⟩
    rintro ⟨-, name, hname, hmem⟩
    exact hother name hname (Conditional.mem_directives hmem)

/-- Where a branch was taken one stays taken, and the next one is not read. -/
theorem Within.taken (h : Within sources includeDirs n m m') (ht : Taken n m) :
    Taken n m' ∧ (Turns n m ∨ ¬ReadsGroup n m → ¬ReadsGroup n m') := by
  obtain ⟨c, hc, htaken⟩ := ht
  rcases h.group hc with ⟨-, name, -, d, hturned, hd⟩ | ⟨hnot, hd⟩
  · obtain ⟨hdtaken, hdactive⟩ := hturned.of_taken htaken
    refine ⟨⟨d, hd, hdtaken⟩, fun _ => ?_⟩
    rintro ⟨e, he, hactive⟩
    obtain rfl : d = e := Option.some.inj (hd.symm.trans he)
    simp [hdactive] at hactive
  · refine ⟨⟨c, hd, htaken⟩, fun hor => ?_⟩
    rintro ⟨e, he, hactive⟩
    obtain rfl : c = e := Option.some.inj (hd.symm.trans he)
    exact hor.elim hnot fun hreads => hreads ⟨c, hc, hactive⟩

theorem Stays.leads (h : Stays sources includeDirs n m m') : Leads sources includeDirs m m' :=
  Relation.ReflTransGen.mono (fun _ _ hstep => hstep.1) _ _ h

theorem Stays.taken (h : Stays sources includeDirs n m m') (ht : Taken n m) : Taken n m' := by
  induction h with
  | refl => exact ht
  | tail _ hstep ih => exact (hstep.taken ih).1

/-- Once a branch was taken and left, no other one is read. -/
theorem Stays.not_readsGroup (h : Stays sources includeDirs n m m') (ht : Taken n m)
    (hnot : ¬ReadsGroup n m) : ¬ReadsGroup n m' := by
  induction h with
  | refl => exact hnot
  | tail hsteps hstep ih => exact (hstep.taken (Stays.taken hsteps ht)).2 (.inr ih)

/-- A branch that is read was taken. -/
theorem ReadsGroup.taken (h : ReadsGroup n m)
    (hnested : Conditional.Nested m.state.conditionals) : Taken n m := by
  obtain ⟨c, hc, hactive⟩ := h
  have hmem : c ∈ m.state.conditionals := List.mem_reverse.1 (List.mem_of_getElem? hc)
  exact ⟨c, hc, (hnested.branch c hmem hactive).2⟩

/-- The first branch of a group is read if and only if it is taken. -/
theorem Opens.group (h : Opens sources includeDirs n m m') : ∃ c,
    Preprocessor.openedSince? n m'.state.conditionals = some c ∧
      c.parentActive = m.state.isActive ∧ c.active = c.taken := by
  obtain ⟨hmove, hbefore, hafter⟩ := h
  rcases hmove.groups with ⟨name, -, hchanges, -⟩ | ⟨-, hsame, -⟩
  · obtain ⟨value, origin, hpush⟩ := hchanges.opened (by omega)
    rw [hpush, Conditional.push, Conditional.openedSince?_cons, if_pos hbefore.symm]
    exact ⟨_, rfl, rfl, rfl⟩
  · rw [hsame, hbefore] at hafter
    omega

/-- Where the text around a group is read, a branch of it that was taken was read. -/
theorem Opens.read_of_taken (h : Opens sources includeDirs n m₀ m₁)
    (hactive : m₀.state.isActive = true) (hstays : Stays sources includeDirs n m₁ m) :
    ∃ c, Preprocessor.openedSince? n m.state.conditionals = some c ∧ c.parentActive = true ∧
      (c.taken = true → ∃ a, Stays sources includeDirs n m₁ a ∧
        Stays sources includeDirs n a m ∧ ReadsGroup n a) := by
  induction hstays with
  | refl =>
    obtain ⟨c, hc, hparent, hsame⟩ := h.group
    exact ⟨c, hc, hparent.trans hactive, fun htaken => ⟨_, .refl, .refl, c, hc, hsame.trans htaken⟩⟩
  | tail hsteps hstep ih =>
    obtain ⟨c, hc, hparent, hread⟩ := ih
    -- What was read before was read on the way to the later moment as well.
    have hearlier (htaken : c.taken = true) := (hread htaken).imp fun a ha =>
      And.intro ha.1 (And.intro (Relation.ReflTransGen.tail ha.2.1 hstep) ha.2.2)
    rcases hstep.group hc with ⟨-, name, -, d, hturned, hd⟩ | ⟨-, hd⟩
    · have hdparent : d.parentActive = true := hturned.parentActive.trans hparent
      refine ⟨d, hd, hdparent, fun htaken => ?_⟩
      cases hfirst : c.taken with
      | true => exact hearlier hfirst
      | false =>
        exact ⟨_, hsteps.tail hstep, .refl, d, hd, hturned.active hparent hfirst htaken⟩
    · exact ⟨c, hd, hparent, hearlier⟩

/-- After a branch that is read and a turn no other branch is read. -/
theorem not_readsGroup_of_turns {a b c d : Moment}
    (hnested : Conditional.Nested a.state.conditionals) (hreads : ReadsGroup n a)
    (hab : Stays sources includeDirs n a b) (hturns : Turns n b)
    (hbc : Within sources includeDirs n b c) (hcd : Stays sources includeDirs n c d) :
    ¬ReadsGroup n d := by
  obtain ⟨htaken, hnot⟩ := hbc.taken (Stays.taken hab (hreads.taken hnested))
  exact Stays.not_readsGroup hcd htaken (hnot (.inl hturns))

/-- Where the text around a group is read, behind its `#else` one of its branches was read. -/
theorem Opens.read_of_else {b c : Moment} (h : Opens sources includeDirs n m₀ m₁)
    (hactive : m₀.state.isActive = true) (hstays : Stays sources includeDirs n m₁ b)
    (hstep : Within sources includeDirs n b c) (hlength : b.state.conditionals.length = n + 1)
    (helse : b.directive? = some "else") :
    ∃ a, Stays sources includeDirs n m₁ a ∧ Stays sources includeDirs n a c ∧ ReadsGroup n a := by
  obtain ⟨e, he, -, hread⟩ := h.read_of_taken hactive (hstays.tail hstep)
  obtain ⟨e₀, he₀, -, -⟩ := h.read_of_taken hactive hstays
  rcases hstep.group he₀ with ⟨-, name, hname, d, hturned, hd⟩ | ⟨hnot, -⟩
  · obtain rfl : "else" = name := Option.some.inj (helse.symm.trans hname)
    obtain rfl : d = e := Option.some.inj (hd.symm.trans he)
    exact hread hturned.taken_of_else
  · exact absurd ⟨hlength, "else", helse, by simp⟩ hnot

/-- Where text is not read, a step changes the open groups at most. -/
theorem Moves.state_eq (h : Moves sources includeDirs m m') (hactive : m.state.isActive = false) :
    m'.state = { m.state with conditionals := m'.state.conditionals } := by
  rcases h.groups with ⟨-, -, -, hstate⟩ | ⟨-, -, hsame⟩
  · exact hstate
  · rw [hsame hactive]

/-- **Conditional groups**: at every moment of a run the open groups nest, and where one of them
is not read, conditional directives apart no token does anything. A group reads at most one of
its branches from its beginning to its end, and if the text around it is read and it has an
`#else`, it reads one. The moments are those that lead to the outcome of the run. -/
theorem groups_exclusive (sources : Sources) (flags : Flags) (path : String) :
    (∀ text, sources.read? (Path.normalize path) = some text → ∀ r,
      Preprocessor.run sources flags path = r ↔
        ∃ m, Reached sources flags path m ∧ Halts sources flags.includeDirs m r) ∧
    (∀ m, Reached sources flags path m →
      Conditional.Nested m.state.conditionals ∧
      ((∃ c ∈ m.state.conditionals, c.active = false) →
        (∀ f fs t rest, m.files = f :: fs → f.rest = t :: rest →
          (∀ name ∈ t.directive?, name ∉ Conditional.directives) →
          Preprocessor.Yields sources flags.includeDirs f t m.state (.ok m.state)) ∧
        ∀ m', Moves sources flags.includeDirs m m' →
          m'.state = { m.state with conditionals := m'.state.conditionals })) ∧
    ∀ n m₀ m₁, Reached sources flags path m₀ → Opens sources flags.includeDirs n m₀ m₁ →
      (∀ a b c d, Stays sources flags.includeDirs n m₁ a → Stays sources flags.includeDirs n a b →
        Within sources flags.includeDirs n b c → Stays sources flags.includeDirs n c d →
        Turns n b → ReadsGroup n a → ¬ReadsGroup n d) ∧
      (m₀.state.isActive = true → ∀ b c, Stays sources flags.includeDirs n m₁ b →
        Within sources flags.includeDirs n b c → b.state.conditionals.length = n + 1 →
        b.directive? = some "else" →
        ∃ a, Stays sources flags.includeDirs n m₁ a ∧ Stays sources flags.includeDirs n a c ∧
          ReadsGroup n a) := by
  refine ⟨fun text => run_eq_iff, fun m hm => ⟨hm.nested, ?_⟩,
    fun n m₀ m₁ hm₀ hopens => ⟨?_, fun hactive b c => hopens.read_of_else hactive⟩⟩
  · rintro ⟨c, hc, hoff⟩
    have hactive : m.state.isActive = false := by
      refine Bool.eq_false_iff.2 fun hactive => ?_
      simp [hm.nested.all_active hactive c hc] at hoff
    exact ⟨fun f fs t rest _ _ hname => Preprocessor.yields_of_not_active hactive f hname,
      fun m' hmove => hmove.state_eq hactive⟩
  · intro a b c d hma hab hbc hcd hturns hreads
    have hm : Reached sources flags path a := hm₀.leads (.head hopens.1 (Stays.leads hma))
    exact not_readsGroup_of_turns hm.nested hreads hab hturns hbc hcd

/-- The branch behind `#else` of a group that begins with `#if 0` is read. -/
theorem groups_exclusive_otherwise :
    let sources := Sources.ofFiles [("a.h", "#if 0\n#else\n")]
    ∃ m₀ m₁ b c, Reached sources {} "a.h" m₀ ∧ Opens sources [] 0 m₀ m₁ ∧
      m₀.state.isActive = true ∧ Stays sources [] 0 m₁ b ∧ Within sources [] 0 b c ∧
      b.state.conditionals.length = 1 ∧ b.directive? = some "else" ∧
      ∃ a, Stays sources [] 0 m₁ a ∧ Stays sources [] 0 a c ∧ ReadsGroup 0 a := by
  intro sources
  let s : Preprocessor := (start {} "a.h" "#if 0\n#else\n").state
  let f (rest : List Token) : OpenFile := ⟨Path.normalize "a.h", 0, rest, 0⟩
  let ifZero : Token := ⟨.directive, "#if 0", 0⟩
  let blank : Token := ⟨.blank, "\n", 5⟩
  let orElse : Token := ⟨.directive, "#else", 6⟩
  let last : Token := ⟨.blank, "\n", 11⟩
  let group : Conditional := ⟨true, false, false, ⟨0, 0⟩⟩
  let within : Preprocessor := { s with conditionals := [group] }
  let m₀ : Moment := ⟨[f [ifZero, blank, orElse, last]], s⟩
  let m₁ : Moment := ⟨[f [blank, orElse, last]], within⟩
  let b : Moment := ⟨[f [orElse, last]], within⟩
  let c : Moment := ⟨[f [last]], { s with conditionals := [group.otherwise] }⟩
  have hreached : Reached sources {} "a.h" m₀ := ⟨"#if 0\n#else\n", by decide, by
    have hscan : Token.scan "#if 0\n#else\n" = [ifZero, blank, orElse, last] := by decide +kernel
    have hstart : start {} "a.h" "#if 0\n#else\n" = m₀ := by
      simp only [start, OpenFile.start, hscan]; rfl
    rw [hstart]⟩
  have hopens : Opens sources [] 0 m₀ m₁ := ⟨.read rfl fun splice => by cbv, rfl, rfl⟩
  have hblank : Within sources [] 0 m₁ b := ⟨.read rfl fun splice => by cbv, Nat.zero_lt_one⟩
  have helse : Within sources [] 0 b c := ⟨.read rfl fun splice => by cbv, Nat.zero_lt_one⟩
  have hdirective : b.directive? = some "else" := by decide +kernel
  exact ⟨m₀, m₁, b, c, hreached, hopens, rfl, .single hblank, helse, rfl, hdirective,
    ((groups_exclusive sources {} "a.h").2.2 0 m₀ m₁ hreached hopens).2 rfl b c (.single hblank)
      helse rfl hdirective⟩

end Moment
end Bindery
