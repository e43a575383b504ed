import Bindery.Proofs.Fallible
import Bindery.Proofs.Preprocess.Moments

/-!
# What a token is answerable for

What a token adds to the state of a run carries the place of the token: the tokens of the stream,
the groups it opens and the location of what it reports. A fault is reported there as well. A macro
that the token adds is the one that its line defines.

## Main definitions

* `Preprocessor.DirectiveLine.Defines`: the macro that a line defines.
* `Preprocessor.Adds`: what lies between two states comes from one place.
* `Preprocessor.Answers`: an outcome whose additions and fault come from one place.

## Main statements

* `Preprocessor.Yields.answers`: every token answers for what it does.
-/
namespace Bindery

namespace Preprocessor

/-- The line defines a macro without parameters by the tokens behind its name. -/
structure DirectiveLine.Defines (line : DirectiveLine) (name : String) (body : List Piece) :
    Prop where
  name_eq : line.name.text = "define"
  parts : ∃ t ts, line.after.dropWhile (·.kind.isTrivia) = t :: ts ∧ t.text = name ∧
    MacroTable.bodyOf ts = body

/-- Lists of definitions that a token may make. -/
abbrev Definitions := String → List Piece → Prop

/-- What the second state has and the first one has not was added at the place, and a macro among
it by one of the definitions. -/
structure Adds (origin : Origin) (defines : Definitions) (s s' : Preprocessor) : Prop where
  files : s'.files = s.files
  tokens : ∀ t ∈ s'.tokens, t ∈ s.tokens ∨ t.origin = origin
  groups : ∀ c ∈ s'.conditionals, (∃ d ∈ s.conditionals, d.origin = c.origin) ∨ c.origin = origin
  diagnostics : ∀ d ∈ s'.diagnostics, d ∈ s.diagnostics ∨ d.location = locate? s.files origin
  macros : ∀ m ∈ s'.macros.entries, m ∈ s.macros.entries ∨ defines m.1 m.2

/-- The outcome adds to the state at the place only, or is a fault that is reported there. -/
def Answers (origin : Origin) (defines : Definitions) (s : Preprocessor) : Outcome → Prop
  | .ok s' => Adds origin defines s s'
  | .error e => e.location = locate? s.files origin

variable {origin : Origin} {defines : Definitions} {s s' : Preprocessor}

namespace Adds

theorem refl (origin : Origin) (defines : Definitions) (s : Preprocessor) :
    Adds origin defines s s :=
  ⟨rfl, fun _ => .inl, fun c hc => .inl ⟨c, hc, rfl⟩, fun _ => .inl, fun _ => .inl⟩

theorem warn (code : DiagnosticCode) (message : String) :
    Adds origin defines s (s.warn code message origin) := by
  refine { refl origin defines s with diagnostics := fun d hd => ?_ }
  rcases List.mem_append.1 hd with hd | hd
  · exact .inl hd
  · exact .inr (by rw [List.mem_singleton.1 hd]; rfl)

theorem emit (pieces : List Piece) : Adds origin defines s (s.emit pieces origin) := by
  refine { refl origin defines s with tokens := fun t ht => ?_ }
  rcases Array.mem_append.1 ht with ht | ht
  · exact .inl ht
  · obtain ⟨p, -, rfl⟩ := List.mem_map.1 (List.mem_toArray.1 ht)
    exact .inr rfl

/-- A state with other groups, each of which stands where one was before or at the place. -/
theorem regroup {stack : List Conditional} (h : ∀ c ∈ stack,
    (∃ d ∈ s.conditionals, d.origin = c.origin) ∨ c.origin = origin) :
    Adds origin defines s { s with conditionals := stack } :=
  { refl origin defines s with groups := h }

theorem push (value : Bool) : Adds origin defines s
    { s with conditionals := Conditional.push value origin s.conditionals } := by
  apply regroup
  intro c hc
  rcases List.mem_cons.1 hc with rfl | hc
  · exact .inr rfl
  · exact .inl ⟨c, hc, rfl⟩

end Adds

theorem answers_ok (h : Adds origin defines s s') : Answers origin defines s (.ok s') := h

theorem answers_fail (fault : PreprocessFault) :
    Answers origin defines s (s.fail (some origin) fault) := rfl

theorem answers_updateGroup {name : String}
    {f : Conditional → Except (Located PreprocessFault) Conditional}
    (hok : ∀ c d, f c = .ok d → d.origin = c.origin)
    (herror : ∀ c e, f c = .error e → e.location = locate? s.files origin) :
    Answers origin defines s (s.updateGroup name origin f) := by
  unfold updateGroup
  split
  · exact answers_fail _
  · rename_i c rest hstack
    cases hc : f c with
    | error e => exact herror c e hc
    | ok d =>
      apply Adds.regroup
      rw [hstack]
      intro c' hc'
      rcases List.mem_cons.1 hc' with rfl | hc'
      · exact .inl ⟨c, .head _, (hok c _ hc).symm⟩
      · exact .inl ⟨c', .tail _ hc', rfl⟩

theorem location_of_condition_error {line : DirectiveLine} {e : Located PreprocessFault}
    (h : s.condition line origin = .error e) : e.location = locate? s.files origin := by
  unfold condition at h
  split at h
  · cases h
  · rw [← Except.error.inj h]

theorem origin_of_elseIf {c d : Conditional} {x : Except (Located PreprocessFault) Bool}
    (h : (x >>= fun value => pure (c.elseIf value)) = .ok d) : d.origin = c.origin := by
  obtain ⟨value, -, hvalue⟩ := bind_eq_ok.1 h
  rw [← Except.ok.inj hvalue]
  rfl

/-- A directive that moves on to a branch with a condition. -/
theorem answers_turn (directive : String) (line : DirectiveLine) :
    Answers origin defines s (s.updateGroup directive origin fun c => do
      let value ←
        if !c.wantsCondition then .ok false
        else if directive = "elif" then s.condition line origin
        else .ok (line.namesMacro s.macros = (directive = "elifdef"))
      return c.elseIf value) := by
  apply answers_updateGroup
  · intro c d hd
    split at hd
    · exact origin_of_elseIf hd
    · split at hd
      · exact origin_of_elseIf hd
      · exact origin_of_elseIf hd
  · intro c e he
    split at he
    · cases he
    · split at he
      · cases hcondition : s.condition line origin with
        | ok value =>
          rw [hcondition] at he
          cases he
        | error e' =>
          rw [hcondition] at he
          rw [← Except.error.inj he]
          exact location_of_condition_error hcondition
      · cases he

theorem adds_define {line : DirectiveLine} (hname : line.name.text = "define")
    (hdefines : ∀ name body, line.Defines name body → defines name body) :
    Adds origin defines s (s.define line origin) := by
  unfold define
  split
  · rename_i t ts hparts
    split
    · split
      · exact .warn _ _
      · refine { Adds.refl origin defines s with macros := fun m hm => ?_ }
        rcases OrderedMap.mem_entries_insert hm with rfl | hm
        · exact .inr (hdefines _ _ ⟨hname, t, ts, hparts, rfl, rfl⟩)
        · exact .inl hm
    · exact .warn _ _
  · exact .warn _ _

section Directives

variable (sources : Sources) (includeDirs : List String) {splice : Splice}
  (hsplice : ∀ target, Answers origin defines s (splice target (some origin) s))
  {line : DirectiveLine} (hdefines : ∀ name body, line.Defines name body → defines name body)
  (path : Path)

include hsplice

theorem answers_obeyInclude (rest : String) :
    Answers origin defines s (obeyInclude sources includeDirs splice path rest origin s) := by
  unfold obeyInclude
  split
  · simp only
    split
    · exact hsplice _
    · exact answers_fail _
  · simp only
    split
    · exact Adds.refl origin defines s
    · exact { Adds.refl origin defines s with }
  · exact Adds.warn _ _

include hdefines

theorem answers_obeyPlain :
    Answers origin defines s (obeyPlain sources includeDirs splice path line origin s) := by
  unfold obeyPlain
  split
  · exact answers_obeyInclude sources includeDirs hsplice path line.rest
  · exact answers_obeyInclude sources includeDirs hsplice path line.rest
  · exact adds_define (by assumption) hdefines
  · split
    · refine answers_ok { Adds.refl origin defines s with macros := fun m hm => .inl ?_ }
      exact (List.mem_filter.1 hm).1
    · exact Adds.refl origin _ s
  · split
    · split
      · exact answers_ok { Adds.refl origin defines s with }
      · exact Adds.refl origin _ s
    · exact Adds.refl origin _ s
  · exact answers_fail _
  · exact Adds.warn _ _

theorem answers_obey :
    Answers origin defines s (obey sources includeDirs splice path line origin s) := by
  unfold obey
  simp only
  split
  · split
    · cases hcondition : s.condition line origin with
      | error e => exact location_of_condition_error hcondition
      | ok value => exact Adds.push value
    · exact Adds.push false
  · exact Adds.push _
  · exact Adds.push _
  · exact answers_turn _ line
  · exact answers_turn _ line
  · exact answers_turn _ line
  · apply answers_updateGroup
    · intro c d hd
      rw [← Except.ok.inj hd]
      rfl
    · intro c e he
      cases he
  · split
    · exact answers_fail _
    · rename_i c rest hstack
      apply answers_ok
      apply Adds.regroup
      intro d hd
      exact .inl ⟨d, hstack ▸ List.mem_cons_of_mem c hd, rfl⟩
  · split
    · exact answers_obeyPlain sources includeDirs hsplice hdefines path
    · exact Adds.refl origin _ s

end Directives

end Preprocessor

/-- The token is a directive that defines the macro. -/
def Token.Defines (t : Token) (name : String) (body : List Piece) : Prop :=
  t.kind = .directive ∧ ∃ line, Preprocessor.DirectiveLine.parse? t.text = some line ∧
    line.Defines name body

namespace Preprocessor

variable {sources : Sources} {includeDirs : List String} {f : OpenFile} {t : Token}
  {s : Preprocessor}

/-- **Every token answers for what it does**: what is new in the state was added at the place of the
token, and a fault is reported there. -/
theorem Yields.answers {r : Outcome} (h : Yields sources includeDirs f t s r) :
    Answers ⟨f.number, t.offset⟩ t.Defines s r := by
  -- The token is no include, so it does the same where an include reads nothing.
  rw [← h fun _ _ s => .ok s]
  unfold token
  split
  · rename_i hkind
    split
    · rename_i line hline
      apply answers_obey
      · intro target
        exact Adds.refl _ _ s
      · intro name body hdefines
        exact ⟨hkind, line, hline, hdefines⟩
    · exact Adds.refl _ _ s
  · split
    · exact Adds.refl _ _ s
    · split
      · exact answers_fail _
      · split
        · exact Adds.emit _
        · exact Adds.emit _

end Preprocessor
end Bindery
