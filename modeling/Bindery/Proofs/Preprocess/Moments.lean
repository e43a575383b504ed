import Mathlib.Logic.Relation
import Bindery.Preprocess.Run

/-!
# The moments of a run

A run reads files token by token, and an include reads another file in the middle of one. What
stands between two tokens is a moment: the files that are being read, the innermost first, and
the state. Moves lead from one moment to the next, and where they end the run ends, with the
same outcome.

## Main definitions

* `OpenFile`, `Moment`: files that are being read, and a state.
* `Preprocessor.StandsFor`: what a token stands for in the stream.
* `Preprocessor.Effect`: what a token that is no include does to the state.
* `Moment.Moves`: one step of a run.
* `Moment.Halts`: no step is left, and the run has an outcome.
* `Moment.Reached`: the moments of a run.

## Main statements

* `Preprocessor.token_cases`: a token either has an effect or includes a file.
* `Moment.run_eq_iff`: the moves lead to the outcome of the run.
-/
namespace Bindery

/-- A file that is being read. -/
structure OpenFile where
  path : Path
  /-- The number of the file among the files read. -/
  number : Nat
  /-- The tokens that were not read yet. -/
  rest : List Token
  /-- How many groups were open where the file begins. -/
  groups : Nat

/-- The files that are being read, the innermost first, and the state. -/
structure Moment where
  files : List OpenFile
  state : Preprocessor

/-- The name of a directive. -/
def Token.directive? (t : Token) : Option String :=
  if t.kind = .directive then (Preprocessor.DirectiveLine.parse? t.text).map (·.name.text) else none

/-! ## Conditional directives -/

namespace Conditional

/-- The directives that open a group. -/
def openers : List String := ["if", "ifdef", "ifndef"]

/-- The directives that move on to a branch with a condition. -/
def turns : List String := ["elif", "elifdef", "elifndef"]

/-- The directives that are tracked also in text that is not read. -/
def directives : List String := openers ++ turns ++ ["else", "endif"]

/-- What a conditional directive makes of the open groups. -/
inductive Changes : String → List Conditional → List Conditional → Prop where
  | opens {name : String} (hname : name ∈ openers) (value : Bool) (origin : Origin)
      (stack : List Conditional) : Changes name stack (push value origin stack)
  | elseIf {name : String} (hname : name ∈ turns) {c : Conditional} {value : Bool}
      (hvalue : value = true → c.wantsCondition = true) (rest : List Conditional) :
      Changes name (c :: rest) (c.elseIf value :: rest)
  | otherwise (c : Conditional) (rest : List Conditional) :
      Changes "else" (c :: rest) (c.otherwise :: rest)
  | closes (c : Conditional) (rest : List Conditional) : Changes "endif" (c :: rest) rest

end Conditional

/-! ## What a token does -/

namespace Preprocessor

/-- Nothing was emitted, no file was read, and the open groups are the same. -/
structure Quiet (s s' : Preprocessor) : Prop where
  tokens : s'.tokens = s.tokens
  files : s'.files = s.files
  groups : s'.conditionals = s.conditionals

/-- What a token that is no directive stands for. -/
inductive StandsFor (s : Preprocessor) (t : Token) : List Piece → Prop where
  /-- A use of a macro stands for the tokens of the macro. -/
  | expansion (hkind : t.kind = .ident) (huse : s.macros.contains t.text = true) :
      StandsFor s t (s.macros.expand t.text)
  /-- Any other token stands for itself. -/
  | itself (hplain : ¬(t.kind = .ident ∧ s.macros.contains t.text = true)) :
      StandsFor s t [⟨t.kind, t.text⟩]

/-- What a token that is no include does to the state. -/
inductive Effect (file : Nat) (t : Token) (s : Preprocessor) : Preprocessor → Prop where
  /-- A conditional directive changes the open groups only. -/
  | regrouped {name : String} (hname : t.directive? = some name) {stack : List Conditional}
      (hstack : Conditional.Changes name s.conditionals stack) :
      Effect file t s { s with conditionals := stack }
  /-- What is not read changes nothing, and neither does an empty directive. -/
  | skipped (hname : ∀ name ∈ t.directive?, name ∉ Conditional.directives) : Effect file t s s
  /-- Any other directive that is read emits nothing. -/
  | obeyed (hname : ∀ name ∈ t.directive?, name ∉ Conditional.directives)
      (hactive : s.isActive = true) {s' : Preprocessor} (hquiet : s.Quiet s') :
      Effect file t s s'
  /-- Any other token that is read emits what it stands for. -/
  | emitted (hactive : s.isActive = true) (hkind : t.kind ≠ .directive) {pieces : List Piece}
      (hpieces : s.StandsFor t pieces) : Effect file t s (s.emit pieces ⟨file, t.offset⟩)

variable (sources : Sources) (includeDirs : List String)

/-- The token has the outcome, whatever other files hold. -/
def Yields (f : OpenFile) (t : Token) (s : Preprocessor) (r : Outcome) : Prop :=
  ∀ splice, token sources includeDirs splice f.path f.number t s = r

/-- The token asks for another file in its place. -/
def Includes (f : OpenFile) (t : Token) (s : Preprocessor) (target : Path) : Prop :=
  ∀ splice, token sources includeDirs splice f.path f.number t s =
    splice target (some ⟨f.number, t.offset⟩) s

variable {sources includeDirs} {f : OpenFile} {t : Token} {s : Preprocessor}

theorem Yields.eq {r r' : Outcome} (h : Yields sources includeDirs f t s r)
    (h' : Yields sources includeDirs f t s r') : r = r' :=
  (h fun _ _ s => .ok s).symm.trans (h' _)

theorem Includes.not_yields {target : Path} {r : Outcome}
    (h : Includes sources includeDirs f t s target) : ¬Yields sources includeDirs f t s r := by
  intro hr
  have hok := (h fun _ _ s => .ok s).symm.trans (hr _)
  have herror := (h fun _ _ s => s.fail none .unterminatedConditional).symm.trans (hr _)
  simp [← hok, fail] at herror

variable (sources includeDirs) in
theorem obeyInclude_cases (path : Path) (rest : String) (origin : Origin) (s : Preprocessor) :
    (∃ target, ∀ splice, obeyInclude sources includeDirs splice path rest origin s =
      splice target (some origin) s) ∨
    ∃ r, (∀ splice, obeyInclude sources includeDirs splice path rest origin s = r) ∧
      ∀ s', r = .ok s' → s.Quiet s' := by
  unfold obeyInclude
  split
  · rename_i cs _
    let name := String.ofList (cs.takeWhile (· ≠ '"'))
    cases hfind : findInclude? sources includeDirs path name with
    | some target => exact .inl ⟨target, fun splice => by simp only [name, hfind]⟩
    | none =>
      exact .inr ⟨s.fail origin (.includeNotFound name), fun splice => by simp only [name, hfind],
        fun s' h => by simp [fail] at h⟩
  · refine .inr ⟨_, fun _ => rfl, fun s' h => ?_⟩
    simp only at h
    split at h <;> exact Except.ok.inj h ▸ ⟨rfl, rfl, rfl⟩
  · exact .inr ⟨_, fun _ => rfl, fun s' h => Except.ok.inj h ▸ ⟨rfl, rfl, rfl⟩⟩

theorem quiet_define (s : Preprocessor) (line : DirectiveLine) (origin : Origin) :
    s.Quiet (s.define line origin) := by
  unfold define
  repeat' split
  all_goals exact ⟨rfl, rfl, rfl⟩

variable (sources includeDirs) in
/-- A directive that is not conditional, in text that is read, is an include in quotes or emits
nothing. -/
theorem obeyPlain_cases (path : Path) (line : DirectiveLine) (origin : Origin)
    (s : Preprocessor) :
    (∃ target, ∀ splice, obeyPlain sources includeDirs splice path line origin s =
      splice target (some origin) s) ∨
    ∃ r, (∀ splice, obeyPlain sources includeDirs splice path line origin s = r) ∧
      ∀ s', r = .ok s' → s.Quiet s' := by
  by_cases hname : line.name.text = "include" ∨ line.name.text = "include_next"
  · have heq : ∀ splice, obeyPlain sources includeDirs splice path line origin s =
        obeyInclude sources includeDirs splice path line.rest origin s := by
      intro splice
      rcases hname with h | h <;> simp [obeyPlain, h]
    simpa only [heq] using obeyInclude_cases sources includeDirs path line.rest origin s
  · right
    refine ⟨obeyPlain sources includeDirs (fun _ _ s => .ok s) path line origin s,
      fun splice => ?_, fun s' h => ?_⟩
    · unfold obeyPlain
      split <;> simp_all
    · unfold obeyPlain at h
      split at h
      case h_1 => simp_all
      case h_2 => simp_all
      case h_3 => exact Except.ok.inj h ▸ quiet_define s line origin
      case h_4 => split at h <;> exact Except.ok.inj h ▸ ⟨rfl, rfl, rfl⟩
      case h_5 =>
        split at h
        · split at h <;> exact Except.ok.inj h ▸ ⟨rfl, rfl, rfl⟩
        · exact Except.ok.inj h ▸ ⟨rfl, rfl, rfl⟩
      case h_6 => simp [fail] at h
      case h_7 => exact Except.ok.inj h ▸ ⟨rfl, rfl, rfl⟩

variable (sources includeDirs) in
theorem obey_of_opener {path : Path} {line : DirectiveLine} {origin : Origin}
    (h : line.name.text ∈ Conditional.openers) :
    ∃ r : Except (Located PreprocessFault) Bool, ∀ splice,
      obey sources includeDirs splice path line origin s =
        r.map fun value =>
          { s with conditionals := Conditional.push value origin s.conditionals } := by
  simp only [Conditional.openers, List.mem_cons, List.not_mem_nil, or_false] at h
  rcases h with h | h | h
  · refine ⟨if s.isActive then s.condition line origin else .ok false, fun splice => ?_⟩
    simp only [obey, h]
    split
    · rfl
    · rfl
  · exact ⟨.ok (line.namesMacro s.macros), fun splice => by simp [obey, h, Except.map]⟩
  · exact ⟨.ok (!line.namesMacro s.macros), fun splice => by simp [obey, h, Except.map]⟩

variable (sources includeDirs) in
theorem obey_of_turn {path : Path} {line : DirectiveLine} {origin : Origin}
    (h : line.name.text ∈ Conditional.turns) :
    ∃ r : Conditional → Except (Located PreprocessFault) Bool,
      (∀ c value, r c = .ok value → value = true → c.wantsCondition = true) ∧
      ∀ splice, obey sources includeDirs splice path line origin s =
        s.updateGroup line.name.text origin fun c => (r c).map c.elseIf := by
  refine ⟨fun c => if !c.wantsCondition then .ok false
      else if line.name.text = "elif" then s.condition line origin
      else .ok (line.namesMacro s.macros = (line.name.text = "elifdef")),
    fun c value hc hvalue => ?_, fun splice => ?_⟩
  · by_cases hwants : c.wantsCondition = true
    · exact hwants
    · simp_all
  · simp only [Conditional.turns, List.mem_cons, List.not_mem_nil, or_false] at h
    rcases h with h | h | h <;>
    · simp only [obey, h]
      congr 1
      funext c
      by_cases hwants : c.wantsCondition = true
      · cases s.condition line origin <;>
          simp [hwants, Except.map, bind, Except.bind, pure, Except.pure]
      · simp [hwants, Except.map, bind, Except.bind, pure, Except.pure]

theorem obey_of_not_mem {path : Path} {line : DirectiveLine} {origin : Origin}
    (h : line.name.text ∉ Conditional.directives) (splice : Splice) :
    obey sources includeDirs splice path line origin s =
      if s.isActive then obeyPlain sources includeDirs splice path line origin s else .ok s := by
  unfold obey
  split <;> simp_all [Conditional.directives, Conditional.openers, Conditional.turns]

theorem updateGroup_eq_ok {name : String} {origin : Origin} {s s' : Preprocessor}
    {f : Conditional → Except (Located PreprocessFault) Conditional}
    (h : s.updateGroup name origin f = .ok s') : ∃ c rest d, s.conditionals = c :: rest ∧
      f c = .ok d ∧ s' = { s with conditionals := d :: rest } := by
  unfold updateGroup at h
  split at h
  · simp [fail] at h
  · rename_i c rest hstack
    rcases hd : f c with e | d <;> simp [hd, bind, Except.bind, pure, Except.pure] at h
    exact ⟨c, rest, d, hstack, hd, h.symm⟩

variable (sources includeDirs) in
/-- A conditional directive is tracked everywhere. -/
theorem obey_of_mem (path : Path) {line : DirectiveLine} (origin : Origin) (s : Preprocessor)
    (h : line.name.text ∈ Conditional.directives) :
    ∃ r, (∀ splice, obey sources includeDirs splice path line origin s = r) ∧
      ∀ s', r = .ok s' → ∃ stack, Conditional.Changes line.name.text s.conditionals stack ∧
        s' = { s with conditionals := stack } := by
  rw [Conditional.directives, List.mem_append, List.mem_append] at h
  rcases h with (h | h) | h
  · obtain ⟨r, hr⟩ := obey_of_opener sources includeDirs h
    refine ⟨_, hr, fun s' hs' => ?_⟩
    cases r with
    | error e => simp [Except.map] at hs'
    | ok value => exact ⟨_, .opens h value origin _, (Except.ok.inj hs').symm⟩
  · obtain ⟨r, hwants, hr⟩ := obey_of_turn sources includeDirs h
    refine ⟨_, hr, fun s' hs' => ?_⟩
    obtain ⟨c, rest, d, hstack, hd, rfl⟩ := updateGroup_eq_ok hs'
    rcases hvalue : r c with e | value
    · simp [hvalue, Except.map] at hd
    · obtain rfl : c.elseIf value = d := by simpa [hvalue, Except.map] using hd
      exact ⟨_, hstack ▸ .elseIf h (hwants c value hvalue) rest, rfl⟩
  · simp only [List.mem_cons, List.not_mem_nil, or_false] at h
    rcases h with h | h
    · refine ⟨_, fun splice => by simp only [obey, h]; rfl, fun s' hs' => ?_⟩
      obtain ⟨c, rest, d, hstack, hd, rfl⟩ := updateGroup_eq_ok hs'
      obtain rfl := Except.ok.inj hd
      exact ⟨_, by rw [hstack, h]; exact .otherwise c rest, rfl⟩
    · refine ⟨_, fun splice => by simp only [obey, h]; rfl, fun s' hs' => ?_⟩
      split at hs'
      · simp [fail] at hs'
      · rename_i c rest hstack
        exact ⟨rest, by rw [hstack, h]; exact .closes c rest, (Except.ok.inj hs').symm⟩

variable (sources includeDirs) in
/-- A directive is tracked, obeyed, skipped, or an include. -/
theorem directive_cases (f : OpenFile) {t : Token} (s : Preprocessor)
    (hkind : t.kind = .directive) {line : DirectiveLine}
    (hline : DirectiveLine.parse? t.text = some line) :
    (s.isActive = true ∧ (∃ name, t.directive? = some name ∧ name ∉ Conditional.directives) ∧
      ∃ target, Includes sources includeDirs f t s target) ∨
    ∃ r, Yields sources includeDirs f t s r ∧ ∀ s', r = .ok s' → Effect f.number t s s' := by
  have hname : t.directive? = some line.name.text := by simp [Token.directive?, hkind, hline]
  have htoken : ∀ splice, token sources includeDirs splice f.path f.number t s =
      obey sources includeDirs splice f.path line ⟨f.number, t.offset⟩ s :=
    fun splice => by simp [token, hkind, hline]
  simp only [Includes, Yields, htoken]
  by_cases hmem : line.name.text ∈ Conditional.directives
  · obtain ⟨r, hr, hchanges⟩ := obey_of_mem sources includeDirs f.path ⟨f.number, t.offset⟩ s hmem
    refine .inr ⟨r, hr, fun s' hs' => ?_⟩
    obtain ⟨stack, hstack, rfl⟩ := hchanges s' hs'
    exact .regrouped hname hstack
  · have hother : ∀ name ∈ t.directive?, name ∉ Conditional.directives := by
      simpa [hname] using hmem
    simp only [obey_of_not_mem hmem]
    by_cases hactive : s.isActive = true
    · simp only [hactive, if_true, true_and]
      rcases obeyPlain_cases sources includeDirs f.path line
        ⟨f.number, t.offset⟩ s with hinclude | ⟨r, hr, hquiet⟩
      · exact .inl ⟨⟨_, hname, hmem⟩, hinclude⟩
      · exact .inr ⟨r, hr, fun s' hs' => .obeyed hother hactive (hquiet s' hs')⟩
    · refine .inr ⟨.ok s, fun _ => if_neg hactive, fun s' h => ?_⟩
      rw [← Except.ok.inj h]
      exact .skipped hother

variable (sources includeDirs) in
/-- Any other token is skipped, or emitted as what it stands for. -/
theorem exists_yields_of_ne (f : OpenFile) {t : Token} (s : Preprocessor)
    (hkind : t.kind ≠ .directive) :
    ∃ r, Yields sources includeDirs f t s r ∧ ∀ s', r = .ok s' → Effect f.number t s s' := by
  have htoken : ∀ splice, token sources includeDirs splice f.path f.number t s =
      if !s.isActive then .ok s
      else if t.kind = .error then s.fail (some ⟨f.number, t.offset⟩) (.invalidText t.text)
      else if t.kind = .ident && s.macros.contains t.text then
        .ok (s.emit (s.macros.expand t.text) ⟨f.number, t.offset⟩)
      else .ok (s.emit [⟨t.kind, t.text⟩] ⟨f.number, t.offset⟩) := by
    intro splice
    unfold token
    split
    · exact absurd ‹_› hkind
    · rfl
  refine ⟨_, htoken, fun s' h => ?_⟩
  by_cases hactive : s.isActive = true
  · simp only [hactive, Bool.not_true, Bool.false_eq_true, if_false] at h
    split at h
    · simp [fail] at h
    · split at h
      · rename_i huse
        rw [Bool.and_eq_true, decide_eq_true_eq] at huse
        rw [← Except.ok.inj h]
        exact .emitted hactive hkind (.expansion huse.1 huse.2)
      · rename_i hplain
        rw [Bool.and_eq_true, decide_eq_true_eq] at hplain
        rw [← Except.ok.inj h]
        exact .emitted hactive hkind (.itself hplain)
  · simp only [hactive, Bool.not_false, if_true] at h
    rw [← Except.ok.inj h]
    exact .skipped (by simp [Token.directive?, hkind])

variable (sources includeDirs) in
/-- **What a token does**: it has an effect, whatever other files hold, or it stands for another
file. -/
theorem token_cases (f : OpenFile) (t : Token) (s : Preprocessor) :
    (s.isActive = true ∧ (∃ name, t.directive? = some name ∧ name ∉ Conditional.directives) ∧
      ∃ target, Includes sources includeDirs f t s target) ∨
    ∃ r, Yields sources includeDirs f t s r ∧ ∀ s', r = .ok s' → Effect f.number t s s' := by
  by_cases hkind : t.kind = .directive
  · cases hline : DirectiveLine.parse? t.text with
    | some line => exact directive_cases sources includeDirs f s hkind hline
    | none =>
      refine .inr ⟨.ok s, fun splice => by simp [token, hkind, hline], fun s' h => ?_⟩
      rw [← Except.ok.inj h]
      exact .skipped (by simp [Token.directive?, hkind, hline])
  · exact .inr (exists_yields_of_ne sources includeDirs f s hkind)

theorem Yields.effect {s' : Preprocessor} (h : Yields sources includeDirs f t s (.ok s')) :
    Effect f.number t s s' := by
  rcases token_cases sources includeDirs f t s with
    ⟨-, -, target, hinclude⟩ | ⟨r, hr, heffect⟩
  · exact absurd h hinclude.not_yields
  · exact heffect s' (hr.eq h)

theorem Includes.isActive {target : Path} (h : Includes sources includeDirs f t s target) :
    s.isActive = true ∧ ∃ name, t.directive? = some name ∧ name ∉ Conditional.directives := by
  rcases token_cases sources includeDirs f t s with
    ⟨hactive, hname, -⟩ | ⟨r, hr, -⟩
  · exact ⟨hactive, hname⟩
  · exact absurd hr h.not_yields

/-- The state with a further file. -/
def opened (s : Preprocessor) (path : Path) (text : String) : Preprocessor :=
  { s with files := s.files.push ⟨path, LineIndex.ofText text⟩ }

section Files

variable {path : Path} (place : Option Origin)

theorem file_of_mem (depth : Nat) (honce : path ∈ s.once) :
    file sources includeDirs depth path place s = .ok s := by
  cases depth <;> rw [file, if_pos honce]

theorem file_zero (honce : path ∉ s.once) :
    file sources includeDirs 0 path place s = s.fail place (.nestedTooDeeply path) := by
  rw [file, if_neg honce]

theorem file_of_missing (depth : Nat) (honce : path ∉ s.once) (htext : sources.read? path = none) :
    file sources includeDirs (depth + 1) path place s =
      s.fail place (.unreadable path (sources.missing path)) := by
  rw [file, if_neg honce, htext]

theorem file_of_text (depth : Nat) (honce : path ∉ s.once) {text : String}
    (htext : sources.read? path = some text) :
    file sources includeDirs (depth + 1) path place s =
      tokensOf sources includeDirs (file sources includeDirs depth) path s.files.size
        (Token.scan text) (s.opened path text) >>= fun done =>
      match openedSince? s.conditionals.length done.conditionals with
      | some c => done.fail c.origin .unterminatedConditional
      | none => .ok done := by
  rw [file, if_neg honce, htext]
  rfl

end Files

end Preprocessor

/-! ## Moments -/

/-- A file about to be read from its beginning. -/
def OpenFile.start (s : Preprocessor) (path : Path) (text : String) : OpenFile :=
  ⟨path, s.files.size, Token.scan text, s.conditionals.length⟩

/-- The file behind its next token. -/
def OpenFile.next (f : OpenFile) (rest : List Token) : OpenFile := { f with rest }

namespace Moment

variable (sources : Sources) (includeDirs : List String)

/-- One step of a run. -/
inductive Moves : Moment → Moment → Prop where
  /-- A token that is no include. -/
  | read {f : OpenFile} {fs : List OpenFile} {t : Token} {rest : List Token} {s s' : Preprocessor}
      (hrest : f.rest = t :: rest) (ht : Preprocessor.Yields sources includeDirs f t s (.ok s')) :
      Moves ⟨f :: fs, s⟩ ⟨f.next rest :: fs, s'⟩
  /-- An include of a file that is read once and was read already. -/
  | pass {f : OpenFile} {fs : List OpenFile} {t : Token} {rest : List Token} {s : Preprocessor}
      {target : Path} (hrest : f.rest = t :: rest)
      (ht : Preprocessor.Includes sources includeDirs f t s target) (honce : target ∈ s.once) :
      Moves ⟨f :: fs, s⟩ ⟨f.next rest :: fs, s⟩
  /-- An include of a file that is there. -/
  | enter {f : OpenFile} {fs : List OpenFile} {t : Token} {rest : List Token} {s : Preprocessor}
      {target : Path} {text : String} (hrest : f.rest = t :: rest)
      (ht : Preprocessor.Includes sources includeDirs f t s target) (honce : target ∉ s.once)
      (hdepth : fs.length + 1 < maxIncludeDepth) (htext : sources.read? target = some text) :
      Moves ⟨f :: fs, s⟩ ⟨.start s target text :: f.next rest :: fs, s.opened target text⟩
  /-- The end of a file in which all groups were closed. -/
  | leave {f : OpenFile} {fs : List OpenFile} {s : Preprocessor} (hrest : f.rest = [])
      (hclosed : Preprocessor.openedSince? f.groups s.conditionals = none) :
      Moves ⟨f :: fs, s⟩ ⟨fs, s⟩

/-- No step is left, and the run has an outcome. -/
inductive Halts : Moment → Preprocessor.Outcome → Prop where
  | done (s : Preprocessor) : Halts ⟨[], s⟩ (.ok s)
  | fault {f : OpenFile} {fs : List OpenFile} {t : Token} {rest : List Token} {s : Preprocessor}
      {e : Located PreprocessFault} (hrest : f.rest = t :: rest)
      (ht : Preprocessor.Yields sources includeDirs f t s (.error e)) :
      Halts ⟨f :: fs, s⟩ (.error e)
  | tooDeep {f : OpenFile} {fs : List OpenFile} {t : Token} {rest : List Token}
      {s : Preprocessor} {target : Path} (hrest : f.rest = t :: rest)
      (ht : Preprocessor.Includes sources includeDirs f t s target) (honce : target ∉ s.once)
      (hdepth : maxIncludeDepth ≤ fs.length + 1) :
      Halts ⟨f :: fs, s⟩ (s.fail (some ⟨f.number, t.offset⟩) (.nestedTooDeeply target))
  | unreadable {f : OpenFile} {fs : List OpenFile} {t : Token} {rest : List Token}
      {s : Preprocessor} {target : Path} (hrest : f.rest = t :: rest)
      (ht : Preprocessor.Includes sources includeDirs f t s target) (honce : target ∉ s.once)
      (hdepth : fs.length + 1 < maxIncludeDepth) (htext : sources.read? target = none) :
      Halts ⟨f :: fs, s⟩
        (s.fail (some ⟨f.number, t.offset⟩) (.unreadable target (sources.missing target)))
  | unterminated {f : OpenFile} {fs : List OpenFile} {s : Preprocessor} {c : Conditional}
      (hrest : f.rest = []) (hopen : Preprocessor.openedSince? f.groups s.conditionals = some c) :
      Halts ⟨f :: fs, s⟩ (s.fail (some c.origin) .unterminatedConditional)

/-- Moves lead from one moment to the other. -/
abbrev Leads : Moment → Moment → Prop := Relation.ReflTransGen (Moves sources includeDirs)

/-- From the moment the moves lead to the outcome of a part of the run: to the moment that goes
with its result, or to its fault. -/
def Arrives (m : Moment) (after : Preprocessor → Moment) (r : Preprocessor.Outcome) : Prop :=
  match r with
  | .ok s => Leads sources includeDirs m (after s)
  | .error e => ∃ m', Leads sources includeDirs m m' ∧ Halts sources includeDirs m' (.error e)

variable {sources includeDirs}

theorem Arrives.head {m m' : Moment} {after : Preprocessor → Moment} {r : Preprocessor.Outcome}
    (h : Moves sources includeDirs m m') (hr : Arrives sources includeDirs m' after r) :
    Arrives sources includeDirs m after r := by
  cases r with
  | ok s => exact Relation.ReflTransGen.head h hr
  | error e =>
    obtain ⟨m'', hleads, hhalts⟩ := hr
    exact ⟨m'', Relation.ReflTransGen.head h hleads, hhalts⟩

/-- One part of the run after the other. -/
theorem Arrives.bind {m : Moment} {after after' : Preprocessor → Moment}
    {r : Preprocessor.Outcome} {k : Preprocessor → Preprocessor.Outcome}
    (h : Arrives sources includeDirs m after r)
    (hk : ∀ s, Arrives sources includeDirs (after s) after' (k s)) :
    Arrives sources includeDirs m after' (r >>= k) := by
  cases r with
  | error e => exact h
  | ok s =>
    have hs := hk s
    change Arrives sources includeDirs m after' (k s)
    cases hr : k s with
    | ok s' => rw [hr] at hs; exact h.trans hs
    | error e =>
      rw [hr] at hs
      obtain ⟨m', hleads, hhalts⟩ := hs
      exact ⟨m', h.trans hleads, hhalts⟩

variable (sources includeDirs) in
/-- A file that is spliced in with `depth` levels of nesting left is read to its end, between the
include and what follows it. -/
def Splices (depth : Nat) : Prop :=
  ∀ {f : OpenFile} {fs : List OpenFile} {t : Token} {rest : List Token} {s : Preprocessor}
    {target : Path}, f.rest = t :: rest →
    Preprocessor.Includes sources includeDirs f t s target →
    fs.length + 1 + depth = maxIncludeDepth →
    Arrives sources includeDirs ⟨f :: fs, s⟩ (fun s' => ⟨f.next rest :: fs, s'⟩)
      (Preprocessor.file sources includeDirs depth target (some ⟨f.number, t.offset⟩) s)

theorem arrives_tokensOf {depth : Nat} (hsplices : Splices sources includeDirs depth)
    {fs : List OpenFile} (hdepth : fs.length + 1 + depth = maxIncludeDepth) (ts : List Token)
    (f : OpenFile) (hrest : f.rest = ts) (s : Preprocessor) :
    Arrives sources includeDirs ⟨f :: fs, s⟩ (fun s' => ⟨f.next [] :: fs, s'⟩)
      (Preprocessor.tokensOf sources includeDirs
        (Preprocessor.file sources includeDirs depth) f.path f.number ts s) := by
  induction ts generalizing f s with
  | nil =>
    have hnext : f.next [] = f := by rw [OpenFile.next, ← hrest]
    rw [hnext]
    exact .refl
  | cons t ts ih =>
    have hhead : Arrives sources includeDirs ⟨f :: fs, s⟩ (fun s' => ⟨f.next ts :: fs, s'⟩)
        (Preprocessor.token sources includeDirs (Preprocessor.file sources includeDirs depth)
          f.path f.number t s) := by
      rcases Preprocessor.token_cases sources includeDirs f t s with
        ⟨-, -, target, hinclude⟩ | ⟨r, hr, -⟩
      · rw [hinclude]
        exact hsplices hrest hinclude hdepth
      · rw [hr]
        cases r with
        | ok s' => exact .single (.read hrest hr)
        | error e => exact ⟨_, .refl, .fault hrest hr⟩
    exact hhead.bind fun s' => ih (f.next ts) rfl s'

/-- A file is read from its beginning to its end. -/
theorem arrives_start {depth : Nat} (hsplices : Splices sources includeDirs depth)
    {fs : List OpenFile} (hdepth : fs.length + 1 + depth = maxIncludeDepth) {s : Preprocessor}
    {path : Path} {text : String} (honce : path ∉ s.once) (htext : sources.read? path = some text)
    (place : Option Origin) :
    Arrives sources includeDirs ⟨.start s path text :: fs, s.opened path text⟩
      (fun s' => ⟨fs, s'⟩) (Preprocessor.file sources includeDirs (depth + 1) path place s) := by
  rw [Preprocessor.file_of_text place depth honce htext]
  refine Arrives.bind (arrives_tokensOf hsplices hdepth _ (.start s path text) rfl _) fun s' => ?_
  split
  · rename_i c hopen
    exact ⟨_, .refl, .unterminated rfl hopen⟩
  · rename_i hclosed
    exact .single (.leave rfl hclosed)

theorem splices (depth : Nat) : Splices sources includeDirs depth := by
  induction depth with
  | zero =>
    intro f fs t rest s target hrest hinclude hdepth
    by_cases honce : target ∈ s.once
    · rw [Preprocessor.file_of_mem _ _ honce]
      exact .single (.pass hrest hinclude honce)
    · rw [Preprocessor.file_zero _ honce]
      exact ⟨_, .refl, .tooDeep hrest hinclude honce (by omega)⟩
  | succ depth ih =>
    intro f fs t rest s target hrest hinclude hdepth
    by_cases honce : target ∈ s.once
    · rw [Preprocessor.file_of_mem _ _ honce]
      exact .single (.pass hrest hinclude honce)
    · have hlt : fs.length + 1 < maxIncludeDepth := by omega
      cases htext : sources.read? target with
      | none =>
        rw [Preprocessor.file_of_missing _ _ honce htext]
        exact ⟨_, .refl, .unreadable hrest hinclude honce hlt htext⟩
      | some text =>
        have hlen : (f.next rest :: fs).length + 1 + depth = maxIncludeDepth := by
          rw [List.length_cons]
          omega
        exact .head (.enter hrest hinclude honce hlt htext)
          (arrives_start ih hlen honce htext _)

/-- The moment at which a run begins, given the text of the main file. -/
def start (flags : Flags) (path text : String) : Moment :=
  let s : Preprocessor := { macros := MacroTable.ofDefines flags.defines }
  ⟨[.start s (Path.normalize path) text], s.opened (Path.normalize path) text⟩

/-- The moments of a run. There are none if the main file is not there. -/
def Reached (sources : Sources) (flags : Flags) (path : String) (m : Moment) : Prop :=
  ∃ text, sources.read? (Path.normalize path) = some text ∧
    Leads sources flags.includeDirs (start flags path text) m

variable (sources includeDirs) in
/-- What the rest of a run comes to: each file is read to its end, from the innermost outwards. -/
def finish : List OpenFile → Preprocessor → Preprocessor.Outcome
  | [], s => .ok s
  | f :: fs, s => do
    let done ← Preprocessor.tokensOf sources includeDirs
      (Preprocessor.file sources includeDirs (maxIncludeDepth - (fs.length + 1))) f.path f.number
      f.rest s
    match Preprocessor.openedSince? f.groups done.conditionals with
    | some c => done.fail c.origin .unterminatedConditional
    | none => finish fs done

theorem finish_cons {f : OpenFile} {t : Token} {rest : List Token} (hrest : f.rest = t :: rest)
    (fs : List OpenFile) (s : Preprocessor) : finish sources includeDirs (f :: fs) s =
      Preprocessor.token sources includeDirs
        (Preprocessor.file sources includeDirs (maxIncludeDepth - (fs.length + 1))) f.path f.number
        t s >>= finish sources includeDirs (f.next rest :: fs) := by
  rw [finish, hrest, Preprocessor.tokensOf]
  cases Preprocessor.token sources includeDirs _ f.path f.number t s <;> rfl

theorem finish_nil {f : OpenFile} (hrest : f.rest = []) (fs : List OpenFile) (s : Preprocessor) :
    finish sources includeDirs (f :: fs) s =
      match Preprocessor.openedSince? f.groups s.conditionals with
      | some c => s.fail c.origin .unterminatedConditional
      | none => finish sources includeDirs fs s := by
  rw [finish, hrest]
  rfl

/-- A step does not change what the rest of the run comes to. -/
theorem Moves.finish_eq {m m' : Moment} (h : Moves sources includeDirs m m') :
    finish sources includeDirs m.files m.state = finish sources includeDirs m'.files m'.state := by
  cases h with
  | read hrest ht =>
    rw [finish_cons hrest, ht]
    rfl
  | pass hrest ht honce =>
    rw [finish_cons hrest, ht, Preprocessor.file_of_mem _ _ honce]
    rfl
  | @enter f fs t rest s target text hrest ht honce hdepth htext =>
    obtain ⟨depth, hlevel⟩ : ∃ depth, maxIncludeDepth - (fs.length + 1) = depth + 1 :=
      Nat.exists_eq_succ_of_ne_zero (by omega)
    have hlevel' : maxIncludeDepth - ((f.next rest :: fs).length + 1) = depth := by
      rw [List.length_cons]
      omega
    rw [finish_cons hrest, ht, hlevel, Preprocessor.file_of_text _ _ honce htext, finish, hlevel',
      bind_assoc]
    congr 1
    funext done
    simp only [OpenFile.start]
    split <;> rfl
  | leave hrest hclosed => rw [finish_nil hrest, hclosed]

theorem finish_eq_of_leads {m m' : Moment} (h : Leads sources includeDirs m m') :
    finish sources includeDirs m.files m.state = finish sources includeDirs m'.files m'.state := by
  induction h with
  | refl => rfl
  | tail _ hmove ih => exact ih.trans hmove.finish_eq

theorem Halts.finish_eq {m : Moment} {r : Preprocessor.Outcome}
    (h : Halts sources includeDirs m r) : finish sources includeDirs m.files m.state = r := by
  cases h with
  | done => rfl
  | fault hrest ht =>
    rw [finish_cons hrest, ht]
    rfl
  | tooDeep hrest ht honce hdepth =>
    rw [finish_cons hrest, ht, Nat.sub_eq_zero_of_le hdepth, Preprocessor.file_zero _ honce]
    rfl
  | @unreadable f fs t rest s target hrest ht honce hdepth htext =>
    obtain ⟨depth, hlevel⟩ : ∃ depth, maxIncludeDepth - (fs.length + 1) = depth + 1 :=
      Nat.exists_eq_succ_of_ne_zero (by omega)
    rw [finish_cons hrest, ht, hlevel, Preprocessor.file_of_missing _ _ honce htext]
    rfl
  | unterminated hrest hopen => rw [finish_nil hrest, hopen]

theorem finish_start (flags : Flags) (path text : String)
    (htext : sources.read? (Path.normalize path) = some text) :
    finish sources flags.includeDirs (start flags path text).files (start flags path text).state =
      Preprocessor.run sources flags path := by
  rw [Preprocessor.run, maxIncludeDepth, Preprocessor.file_of_text _ _ (by simp) htext, start]
  rfl

/-- **The run is what its moments lead to**: if the main file is there, the moves from its
beginning come to an end, and the outcome there is the outcome of the run. -/
theorem run_eq_iff {sources : Sources} {flags : Flags} {path text : String}
    (htext : sources.read? (Path.normalize path) = some text) (r : Preprocessor.Outcome) :
    Preprocessor.run sources flags path = r ↔
      ∃ m, Reached sources flags path m ∧ Halts sources flags.includeDirs m r := by
  constructor
  · intro hr
    have hrun : Arrives sources flags.includeDirs (start flags path text) (fun s => ⟨[], s⟩)
        (Preprocessor.run sources flags path) :=
      arrives_start (splices (maxIncludeDepth - 1)) rfl (by simp) htext none
    rw [hr] at hrun
    cases r with
    | ok s => exact ⟨_, ⟨text, htext, hrun⟩, .done s⟩
    | error e =>
      obtain ⟨m, hleads, hhalts⟩ := hrun
      exact ⟨m, ⟨text, htext, hleads⟩, hhalts⟩
  · rintro ⟨m, ⟨text', htext', hleads⟩, hhalts⟩
    rw [← finish_start flags path text' htext', ← hhalts.finish_eq]
    exact finish_eq_of_leads hleads

end Moment
end Bindery
