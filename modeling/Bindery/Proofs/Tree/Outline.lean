import Bindery.Declaration.OfTree
import Bindery.Proofs.Tree.Progress

/-!
# What a parser reads

The outline of a tree is the tree without its trivia and without the origins of its tokens. A
judgement says which outline a parser builds from the words ahead: wherever the trivia stands
between these words, the parser moves exactly them and finds no fault.

## Main definitions

* `Outline`: trees of words.
* `Tree.outline`: the outline of a tree.
* `ParseState.Builds`: what was built between two states.
* `Parser.Reads`: the judgement.
* `Bracket.Passes`: a run of words that a scan for a stop takes as a whole.

## Main statements

* `Parser.Reads.bind`, `Parser.reads_loop_more`: the judgement follows sequences and loops.
* `Declaration.exists_ofChildren`: the declaration that is read off an outline with a single one.
-/
namespace Bindery

/-! ## Words -/

/-- The token without its origin. -/
def SourceToken.piece (t : SourceToken) : Piece := ⟨t.kind, t.text⟩

/-- The tokens that carry meaning, without their origins. -/
def wordsOf (ts : List SourceToken) : List Piece :=
  (ts.filter (!·.kind.isTrivia)).map SourceToken.piece

@[simp] theorem wordsOf_nil : wordsOf [] = [] := rfl

@[simp] theorem wordsOf_append (ts us : List SourceToken) :
    wordsOf (ts ++ us) = wordsOf ts ++ wordsOf us := by
  simp [wordsOf]

theorem wordsOf_cons_trivia {t : SourceToken} (h : t.kind.isTrivia = true)
    (ts : List SourceToken) : wordsOf (t :: ts) = wordsOf ts := by
  simp [wordsOf, h]

theorem wordsOf_cons_word {t : SourceToken} (h : t.kind.isTrivia = false)
    (ts : List SourceToken) : wordsOf (t :: ts) = t.piece :: wordsOf ts := by
  simp [wordsOf, h]

theorem wordsOf_takeWhile_trivia (ts : List SourceToken) :
    wordsOf (ts.takeWhile (·.kind.isTrivia)) = [] := by
  rw [wordsOf, List.map_eq_nil_iff, List.filter_eq_nil_iff]
  intro t ht
  simp [List.mem_takeWhile_imp ht]

/-- The words ahead by number. -/
theorem map_piece_nthWord? (n : ℕ) (ts : List SourceToken) :
    (nthWord? n ts).map SourceToken.piece = (wordsOf ts)[n]? := by
  induction ts generalizing n with
  | nil => cases n <;> rfl
  | cons t ts ih =>
    cases ht : t.kind.isTrivia with
    | true => simp [nthWord?, ht, ih, wordsOf_cons_trivia ht]
    | false =>
      rw [wordsOf_cons_word ht]
      cases n with
      | zero => simp [nthWord?, ht]
      | succ n => simp [nthWord?, ht, ih]

/-- The kind of the last word, or a given kind where there is none. -/
def lastKind (kind : TokenKind) (ps : List Piece) : TokenKind := ps.foldl (fun _ p => p.kind) kind

theorem lastKind_append (kind : TokenKind) (ps qs : List Piece) :
    lastKind kind (ps ++ qs) = lastKind (lastKind kind ps) qs :=
  List.foldl_append

theorem lastWord_eq (kind : TokenKind) (ts : List SourceToken) :
    lastWord kind ts = lastKind kind (wordsOf ts) := by
  induction ts generalizing kind with
  | nil => rfl
  | cons t ts ih =>
    rw [lastWord, List.foldl_cons, ← lastWord, ih]
    cases ht : t.kind.isTrivia with
    | true => rw [if_pos rfl, wordsOf_cons_trivia ht]
    | false => rw [if_neg (by simp), wordsOf_cons_word ht]; rfl

/-! ## Outlines -/

/-- A tree without trivia and without origins. -/
inductive Outline where
  | word (p : Piece)
  | node (kind : NodeKind) (children : List Outline)

namespace Outline

mutual
/-- The words of an outline from left to right. -/
def words : Outline → List Piece
  | word p => [p]
  | node _ children => wordsAll children

/-- The words of several outlines from left to right. -/
def wordsAll : List Outline → List Piece
  | [] => []
  | o :: os => o.words ++ wordsAll os
end

@[simp] theorem words_word (p : Piece) : (word p).words = [p] := by simp [words]

@[simp] theorem words_node (kind : NodeKind) (os : List Outline) :
    (node kind os).words = wordsAll os := by simp [words]

@[simp] theorem wordsAll_nil : wordsAll [] = [] := by simp [wordsAll]

@[simp] theorem wordsAll_cons (o : Outline) (os : List Outline) :
    wordsAll (o :: os) = o.words ++ wordsAll os := by simp [wordsAll]

@[simp] theorem wordsAll_append (os us : List Outline) :
    wordsAll (os ++ us) = wordsAll os ++ wordsAll us := by
  induction os with
  | nil => rfl
  | cons o os ih => simp [ih]

@[simp] theorem wordsAll_map_word (ps : List Piece) : wordsAll (ps.map word) = ps := by
  induction ps with
  | nil => simp
  | cons p ps ih => simp [ih]

/-- The outline of a node of a kind. -/
def IsNode (kind : NodeKind) : Outline → Prop
  | word _ => False
  | node k _ => k = kind

/-- The word that an outline consists of. -/
def word? : Outline → Option Piece
  | word p => some p
  | node _ _ => none

end Outline

namespace Tree

mutual
/-- The outline of a tree. That of trivia is empty. -/
def outline : Tree → List Outline
  | leaf t => if t.kind.isTrivia then [] else [.word t.piece]
  | node kind children => [.node kind (outlineAll children)]

/-- The outlines of several trees. -/
def outlineAll : List Tree → List Outline
  | [] => []
  | t :: ts => t.outline ++ outlineAll ts
end

@[simp] theorem outline_node (kind : NodeKind) (ts : List Tree) :
    (node kind ts).outline = [.node kind (outlineAll ts)] := by simp [outline]

theorem outline_leaf (t : SourceToken) :
    (leaf t).outline = (wordsOf [t]).map Outline.word := by
  rw [outline]
  cases ht : t.kind.isTrivia with
  | true => simp [wordsOf_cons_trivia ht]
  | false => simp [wordsOf_cons_word ht]

@[simp] theorem outlineAll_nil : outlineAll [] = [] := by simp [outlineAll]

@[simp] theorem outlineAll_cons (t : Tree) (ts : List Tree) :
    outlineAll (t :: ts) = t.outline ++ outlineAll ts := by simp [outlineAll]

@[simp] theorem outlineAll_append (ts us : List Tree) :
    outlineAll (ts ++ us) = outlineAll ts ++ outlineAll us := by
  induction ts with
  | nil => simp
  | cons t ts ih => simp [ih]

theorem outlineAll_map_leaf (ts : List SourceToken) :
    outlineAll (ts.map leaf) = (wordsOf ts).map Outline.word := by
  induction ts with
  | nil => simp
  | cons t ts ih =>
    rw [List.map_cons, outlineAll_cons, outline_leaf, ih, ← List.map_append, ← wordsOf_append]
    rfl

mutual
/-- The words of a tree are those of its outline. -/
theorem wordsAll_outline : (t : Tree) → Outline.wordsAll t.outline = wordsOf t.leaves
  | leaf t => by simp [outline_leaf]
  | node kind ts => by simp [wordsAll_outlineAll ts]

theorem wordsAll_outlineAll : (ts : List Tree) →
    Outline.wordsAll (outlineAll ts) = wordsOf (leavesOf ts)
  | [] => by simp
  | t :: ts => by simp [wordsAll_outline t, wordsAll_outlineAll ts]
end

end Tree

/-! ## States -/

namespace ParseState

/-- The words ahead. -/
def ahead (s : ParseState) : List Piece := wordsOf s.rest

/-- From one state to the other, trees of an outline were built from the tokens ahead, and no
fault was found. -/
structure Builds (s : ParseState) (os : List Outline) (t : ParseState) : Prop where
  trees : ∃ trees, s.rest = Tree.leavesOf trees ++ t.rest ∧ t.built = trees.reverse ++ s.built ∧
    Tree.outlineAll trees = os
  last : t.last = lastKind s.last (Outline.wordsAll os)
  errors : t.errors = s.errors

namespace Builds

variable {s t u : ParseState} {os us : List Outline}

theorem refl (s : ParseState) : s.Builds [] s := ⟨⟨[], by simp⟩, by simp [lastKind], rfl⟩

theorem trans (h : s.Builds os t) (h' : t.Builds us u) : s.Builds (os ++ us) u := by
  obtain ⟨⟨trees, hrest, hbuilt, hos⟩, hlast, herrors⟩ := h
  obtain ⟨⟨more, hrest', hbuilt', hus⟩, hlast', herrors'⟩ := h'
  refine ⟨⟨trees ++ more, ?_, ?_, ?_⟩, ?_, herrors'.trans herrors⟩
  · rw [hrest, hrest', Tree.leavesOf_append, List.append_assoc]
  · rw [hbuilt', hbuilt, List.reverse_append, List.append_assoc]
  · rw [Tree.outlineAll_append, hos, hus]
  · rw [hlast', hlast, Outline.wordsAll_append, lastKind_append]

/-- The words that were moved, and those still ahead. -/
theorem ahead_eq (h : s.Builds os t) : s.ahead = Outline.wordsAll os ++ t.ahead := by
  obtain ⟨trees, hrest, -, rfl⟩ := h.trees
  rw [ahead, hrest, wordsOf_append, Tree.wordsAll_outlineAll, ahead]

/-- Moving a word moves a token. -/
theorem length_lt (h : s.Builds os t) (hos : Outline.wordsAll os ≠ []) :
    t.rest.length < s.rest.length := by
  obtain ⟨trees, hrest, -, rfl⟩ := h.trees
  rw [Tree.wordsAll_outlineAll] at hos
  have hne : Tree.leavesOf trees ≠ [] := by
    intro hnil
    rw [hnil] at hos
    exact hos rfl
  have hpos := List.length_pos_iff.2 hne
  rw [hrest, List.length_append]
  omega

/-- A run of tokens is moved. -/
theorem move (s : ParseState) (cut : Bracket.Cut) (h : cut.run ++ cut.rest = s.rest) :
    s.Builds ((wordsOf cut.run).map Outline.word) (s.move cut) where
  trees := ⟨cut.run.map Tree.leaf, by rw [Tree.leavesOf_map_leaf]; exact h.symm, rfl,
    Tree.outlineAll_map_leaf _⟩
  last := by rw [Outline.wordsAll_map_word]; exact lastWord_eq _ _
  errors := rfl

end Builds
end ParseState

/-! ## The judgement -/

namespace Parser
open Outline

variable {α β : Type} {last : TokenKind} {os us : List Outline} {rest : List Piece} {a : α} {b : β}
  {p : Parser α} {f : α → Parser β}

/-- Behind a word of the kind `last`, where the words of `os` and then `rest` come next, the
parser yields `a` and builds `os`. -/
def Reads (p : Parser α) (last : TokenKind) (os : List Outline) (rest : List Piece) (a : α) :
    Prop :=
  ∀ s : ParseState, s.last = last → s.ahead = wordsAll os ++ rest →
    (p s).1 = a ∧ s.Builds os (p s).2

/-- The parser only looks at the last word and at the words ahead. -/
def Sees (p : Parser α) (view : TokenKind → List Piece → α) : Prop :=
  ∀ s : ParseState, p s = (view s.last s.ahead, s)

theorem reads_pure (a : α) : Reads (pure a) last [] rest a := fun s _ _ => ⟨rfl, .refl s⟩

namespace Reads

/-- The rule of sequencing. -/
theorem bind (hp : Reads p last os (wordsAll us ++ rest) a)
    (hf : Reads (f a) (lastKind last (wordsAll os)) us rest b) :
    Reads (p >>= f) last (os ++ us) rest b := by
  intro s hlast hahead
  rw [wordsAll_append, List.append_assoc] at hahead
  obtain ⟨rfl, hbuilds⟩ := hp s hlast hahead
  have hrest : (p s).2.ahead = wordsAll us ++ rest :=
    List.append_cancel_left (hbuilds.ahead_eq.symm.trans hahead)
  obtain ⟨hb, hmore⟩ := hf (p s).2 (by rw [hbuilds.last, hlast]) hrest
  rw [bind_apply]
  exact ⟨hb, hbuilds.trans hmore⟩

/-- Behind a parser that builds one outline. -/
theorem step {o : Outline} (hp : Reads p last [o] (wordsAll us ++ rest) a)
    (hf : Reads (f a) (lastKind last o.words) us rest b) :
    Reads (p >>= f) last (o :: us) rest b := by
  have hwords : wordsAll [o] = o.words := by simp
  rw [← hwords] at hf
  exact bind hp hf

/-- Behind a parser that moves nothing. -/
theorem skip (hp : Reads p last [] (wordsAll us ++ rest) a) (hf : Reads (f a) last us rest b) :
    Reads (p >>= f) last us rest b := by
  have hnil : lastKind last (wordsAll []) = last := by simp [lastKind]
  rw [← hnil] at hf
  exact bind hp hf

/-- In front of a parser that moves nothing. -/
theorem andThen (hp : Reads p last os rest a)
    (hf : Reads (f a) (lastKind last (wordsAll os)) [] rest b) :
    Reads (p >>= f) last os rest b := by
  have h : Reads (p >>= f) last (os ++ []) rest b := bind (by simpa using hp) hf
  rwa [List.append_nil] at h

end Reads

theorem Sees.reads {view : TokenKind → List Piece → α} (h : Sees p view) :
    Reads p last [] rest (view last rest) := by
  intro s hlast hahead
  rw [wordsAll_nil, List.nil_append] at hahead
  rw [h s, hlast, hahead]
  exact ⟨rfl, .refl s⟩

/-- Behind a look ahead, its result is known. -/
theorem Sees.bind {view : TokenKind → List Piece → α} (h : Sees p view)
    (hf : Reads (f (view last (wordsAll os ++ rest))) last os rest b) :
    Reads (p >>= f) last os rest b :=
  .skip h.reads hf

/-- Behind a look ahead whose result does not matter. -/
theorem Reads.ignoring (hsame : ∀ s, (p s).2 = s) (hf : ∀ x, Reads (f x) last os rest b) :
    Reads (p >>= f) last os rest b := by
  intro s hlast hahead
  rw [bind_apply, hsame]
  exact hf _ s hlast hahead

/-! ## Looking ahead -/

/-- The kind of a word ahead, as lookahead sees it. -/
def kindAt (n : ℕ) (ws : List Piece) : TokenKind := (ws[n]?.map Piece.kind).getD .error

@[simp] theorem kindAt_zero_cons (w : Piece) (ws : List Piece) : kindAt 0 (w :: ws) = w.kind := rfl

@[simp] theorem kindAt_one_cons (w : Piece) (ws : List Piece) :
    kindAt 1 (w :: ws) = kindAt 0 ws := rfl

/-- The text of the next word. -/
def nextTextOf (ws : List Piece) : String := (ws[0]?.map Piece.text).getD ""

theorem sees_kindAhead (n : ℕ) : Sees (kindAhead n) (fun _ => kindAt n) := by
  intro s
  have hword := map_piece_nthWord? n s.rest
  change (((nthWord? n s.rest).map (·.kind)).getD .error, s) = (kindAt n s.ahead, s)
  rw [kindAt, ParseState.ahead, ← hword, Option.map_map]
  rfl

theorem sees_nextKind : Sees nextKind (fun _ => kindAt 0) := sees_kindAhead 0

theorem sees_nextText : Sees nextText (fun _ => nextTextOf) := by
  intro s
  have hword := map_piece_nthWord? 0 s.rest
  change (((nthWord? 0 s.rest).map (·.text)).getD "", s) = (nextTextOf s.ahead, s)
  rw [nextTextOf, ParseState.ahead, ← hword, Option.map_map]
  rfl

theorem Sees.map {view : TokenKind → List Piece → α} (h : Sees p view) (g : α → β) :
    Sees (do return g (← p)) (fun l ws => g (view l ws)) := by
  intro s
  rw [bind_apply, h s]
  rfl

theorem sees_sees (k : TokenKind) : Sees (sees k) (fun _ ws => decide (kindAt 0 ws = k)) :=
  sees_nextKind.map _

theorem sees_seesAny (ks : List TokenKind) :
    Sees (seesAny ks) (fun _ ws => ks.contains (kindAt 0 ws)) :=
  sees_nextKind.map _

theorem sees_seesPair (k k' : TokenKind) :
    Sees (seesPair k k') (fun _ ws => decide (kindAt 0 ws = k) && decide (kindAt 1 ws = k')) := by
  intro s
  change ((decide ((nextKind s).1 = k) && decide ((kindAhead 1 s).1 = k')), s) = _
  rw [sees_nextKind s, sees_kindAhead 1 s]

theorem sees_seesWord (words : List String) :
    Sees (seesWord words)
      (fun _ ws => decide (kindAt 0 ws = .ident) && words.contains (nextTextOf ws)) := by
  intro s
  change ((decide ((nextKind s).1 = .ident) && words.contains (nextText s).1), s) = _
  rw [sees_nextKind s, sees_nextText s]

theorem sees_atEnd : Sees atEnd (fun _ ws => ws.isEmpty) := by
  intro s
  have hword := map_piece_nthWord? 0 s.rest
  change ((nthWord? 0 s.rest).isNone, s) = _
  rw [ParseState.ahead, ← Option.isNone_map (f := SourceToken.piece), hword]
  cases wordsOf s.rest <;> rfl

/-! ## Moving words -/

theorem reads_passTrivia : Reads passTrivia last [] rest () := by
  intro s _ _
  have hmove := ParseState.Builds.move s
    ⟨s.rest.takeWhile (·.kind.isTrivia), s.rest.dropWhile (·.kind.isTrivia)⟩
    List.takeWhile_append_dropWhile
  rw [wordsOf_takeWhile_trivia] at hmove
  exact ⟨rfl, hmove⟩

theorem exists_word_of_wordsOf {ts : List SourceToken} {w : Piece} {ws : List Piece}
    (h : wordsOf ts = w :: ws) : ∃ t us, ts.dropWhile (·.kind.isTrivia) = t :: us ∧
      wordsOf [t] = [w] := by
  induction ts with
  | nil => cases h
  | cons t ts ih =>
    cases ht : t.kind.isTrivia with
    | true =>
      rw [wordsOf_cons_trivia ht] at h
      rw [List.dropWhile_cons, ht, if_pos rfl]
      exact ih h
    | false =>
      rw [wordsOf_cons_word ht] at h
      rw [List.dropWhile_cons, ht, if_neg (by simp)]
      refine ⟨t, ts, rfl, ?_⟩
      rw [wordsOf_cons_word ht, (List.cons.inj h).1]
      rfl

/-- A word is moved. -/
theorem reads_advance {w : Piece} : Reads advance last [.word w] rest () := by
  intro s hlast hahead
  have hwords : wordsOf s.rest = w :: rest := by simpa [ParseState.ahead] using hahead
  obtain ⟨t, us, hdrop, ht⟩ := exists_word_of_wordsOf hwords
  have hpass : s.Builds [] (passTrivia s).2 := (@reads_passTrivia s.last s.ahead s rfl rfl).2
  have hrest : (passTrivia s).2.rest = t :: us := hdrop
  have hmove := ParseState.Builds.move (passTrivia s).2
    ⟨(passTrivia s).2.rest.take 1, (passTrivia s).2.rest.drop 1⟩
    (List.take_append_drop 1 _)
  rw [hrest] at hmove
  have htake : wordsOf ((t :: us).take 1) = [w] := ht
  rw [htake] at hmove
  refine ⟨rfl, hpass.trans ?_⟩
  change (passTrivia s).2.Builds [.word w] (moveOne (passTrivia s).2).2
  have hone : (moveOne (passTrivia s).2).2 =
      (passTrivia s).2.move ⟨(passTrivia s).2.rest.take 1, (passTrivia s).2.rest.drop 1⟩ := rfl
  rw [hone, hrest]
  exact hmove

theorem reads_accept {w : Piece} {k : TokenKind} (hw : w.kind = k) :
    Reads (accept k) last [.word w] rest true := by
  refine (sees_sees k).bind ?_
  rw [if_pos (by simp [hw])]
  exact reads_advance.andThen (reads_pure true)

theorem reads_accept_other {k : TokenKind} (hk : kindAt 0 rest ≠ k) :
    Reads (accept k) last [] rest false := by
  refine (sees_sees k).bind ?_
  rw [if_neg (by simpa using hk)]
  exact reads_pure false

theorem reads_expect {w : Piece} {k : TokenKind} (hw : w.kind = k) (what : String) :
    Reads (expect k what) last [.word w] rest true :=
  (reads_accept hw).andThen (reads_pure true)

/-! ## Nodes -/

theorem reads_nodeHere {kind : NodeKind} (h : Reads p last os rest a) :
    Reads (nodeHere kind p) last [.node kind os] rest a := by
  intro s hlast hahead
  rw [wordsAll_cons, words_node, wordsAll_nil, List.append_nil] at hahead
  obtain ⟨ha, ⟨trees, hrest, hbuilt, hos⟩, hkind, herrors⟩ := h { s with built := [] } hlast hahead
  refine ⟨ha, ⟨[.node kind trees], ?_, ?_, ?_⟩, ?_, herrors⟩
  · rw [Tree.leavesOf_cons, Tree.leavesOf_nil, List.append_nil, Tree.leaves_node]
    exact hrest
  · change [Tree.node kind (p { s with built := [] }).2.built.reverse].reverse ++ s.built = _
    rw [hbuilt]
    simp
  · simp [hos]
  · rw [wordsAll_cons, words_node, wordsAll_nil, List.append_nil]
    exact hkind

theorem reads_node {kind : NodeKind} (h : Reads p last os rest a) :
    Reads (node kind p) last [.node kind os] rest a :=
  reads_passTrivia.skip (reads_nodeHere h)

/-! ## Repetition -/

variable {step : Parser Bool}

/-- The last round. -/
theorem reads_loop_done (h : Reads step last os rest false) :
    Reads (loop step) last os rest () := by
  intro s hlast hahead
  obtain ⟨hfalse, hbuilds⟩ := h s hlast hahead
  refine ⟨rfl, ?_⟩
  change s.Builds os (loopFrom step s)
  rw [loopFrom, hfalse, if_neg (by simp)]
  exact hbuilds

/-- A round that moves a word and asks for more. -/
theorem reads_loop_more (h : Reads step last os (wordsAll us ++ rest) true)
    (hos : wordsAll os ≠ [])
    (hloop : Reads (loop step) (lastKind last (wordsAll os)) us rest ()) :
    Reads (loop step) last (os ++ us) rest () := by
  intro s hlast hahead
  rw [wordsAll_append, List.append_assoc] at hahead
  obtain ⟨htrue, hbuilds⟩ := h s hlast hahead
  have hrest : (step s).2.ahead = wordsAll us ++ rest :=
    List.append_cancel_left (hbuilds.ahead_eq.symm.trans hahead)
  have hmore := (hloop (step s).2 (by rw [hbuilds.last, hlast]) hrest).2
  refine ⟨rfl, ?_⟩
  change s.Builds (os ++ us) (loopFrom step s)
  rw [loopFrom, htrue, if_pos rfl, dif_pos (hbuilds.length_lt hos)]
  exact hbuilds.trans hmore

/-- Words that pass a test are moved, up to one that does not. -/
theorem reads_advanceWhile {test : Parser Bool} {view : TokenKind → List Piece → Bool}
    (htest : Sees test view) {ps : List Piece}
    (hps : ∀ w ∈ ps, ∀ l ws, view l (w :: ws) = true) (hrest : ∀ l, view l rest = false) :
    Reads (advanceWhile test) last (ps.map .word) rest () := by
  induction ps generalizing last with
  | nil =>
    refine reads_loop_done (htest.bind ?_)
    rw [List.map_nil, wordsAll_nil, List.nil_append, hrest, if_neg (by simp)]
    exact reads_pure false
  | cons w ps ih =>
    change Reads _ last ([.word w] ++ ps.map .word) rest ()
    refine reads_loop_more (htest.bind ?_) (by simp) (ih fun v hv => hps v (.tail _ hv))
    rw [wordsAll_cons, words_word, List.append_assoc, List.singleton_append,
      hps w (.head _), if_pos rfl]
    exact reads_advance.andThen (reads_pure true)

/-! ## Runs -/

end Parser

namespace Bracket

/-- A scan for a stop takes a run of words, from a last word and a list of open brackets to
another one. -/
inductive Passes (stops : List TokenKind) (angles : Bool) :
    TokenKind → List TokenKind → List Piece → List TokenKind → Prop
  | nil (last : TokenKind) (stack : List TokenKind) : Passes stops angles last stack [] stack
  | cons {last : TokenKind} {stack inner final : List TokenKind} {w : Piece} {ws : List Piece} :
    ¬(stack = [] ∧ w.kind ∈ stops) → afterToken? angles last stack w.kind = some inner →
    Passes stops angles w.kind inner ws final → Passes stops angles last stack (w :: ws) final

variable {stops : List TokenKind} {angles : Bool} {last : TokenKind}
  {stack inner final : List TokenKind} {ps qs : List Piece}

theorem Passes.append (h : Passes stops angles last stack ps inner)
    (h' : Passes stops angles (lastKind last ps) inner qs final) :
    Passes stops angles last stack (ps ++ qs) final := by
  induction h with
  | nil => exact h'
  | cons hstop hafter _ ih => exact .cons hstop hafter (ih h')

theorem wordsOf_run_consTrivia {t : SourceToken} (h : t.kind.isTrivia = true) (cut : Cut) :
    wordsOf (cut.consTrivia t).run = wordsOf cut.run := by
  obtain ⟨run, rest⟩ := cut
  cases run with
  | nil => rfl
  | cons => exact wordsOf_cons_trivia h _

/-- A run that closes all its brackets is cut off in front of a stop. -/
theorem wordsOf_upTo {w : Piece} {rest : List Piece} (hw : w.kind ∈ stops)
    (h : Passes stops angles last stack ps []) {ts : List SourceToken}
    (hts : wordsOf ts = ps ++ w :: rest) :
    wordsOf (upTo stops angles last stack ts).run = ps := by
  induction ts generalizing last stack ps with
  | nil => simp at hts
  | cons t ts ih =>
    rw [upTo]
    cases ht : t.kind.isTrivia with
    | true =>
      rw [wordsOf_cons_trivia ht] at hts
      rw [if_pos rfl, wordsOf_run_consTrivia ht]
      exact ih h hts
    | false =>
      rw [wordsOf_cons_word ht] at hts
      rw [if_neg (by simp)]
      cases h with
      | nil =>
        obtain ⟨rfl, -⟩ := List.cons.inj hts
        rw [if_pos (by simpa [SourceToken.piece] using hw)]
        rfl
      | cons hstop hafter hpass =>
        obtain ⟨heq, hbehind⟩ := List.cons.inj hts
        subst heq
        have hkind : t.piece.kind = t.kind := rfl
        rw [hkind] at hstop hafter hpass
        rw [if_neg (by simpa using hstop), hafter]
        have hrun (cut : Cut) : (cut.cons t).run = t :: cut.run := rfl
        simp only [hrun, wordsOf_cons_word ht, ih hpass hbehind]

end Bracket

namespace Parser
open Outline

variable {last : TokenKind} {rest : List Piece}

theorem reads_takeUpTo {stops : List TokenKind} {angles : Bool} {ps : List Piece} {w : Piece}
    (hw : w.kind ∈ stops) (h : Bracket.Passes stops angles last [] ps []) :
    Reads (takeUpTo stops angles) last (ps.map .word) (w :: rest) () := by
  rintro s rfl hahead
  rw [wordsAll_map_word] at hahead
  have hmove := ParseState.Builds.move s _ (Bracket.upTo_append stops angles s.last [] s.rest)
  rw [Bracket.wordsOf_upTo hw h hahead] at hmove
  exact ⟨rfl, hmove⟩

/-- A group in angle brackets is moved. -/
theorem reads_takeAngles (left right : Piece) {ps : List Piece} (hleft : left.kind = .lAngle)
    (hright : right.kind = .rAngle) (h : Bracket.Passes [.rAngle] true .lAngle [] ps []) :
    Reads takeAngles last (.word left :: (ps.map .word ++ [.word right])) rest () := by
  refine reads_advance.step (Reads.bind (reads_takeUpTo ?_ ?_) ?_)
  · simp [hright]
  · simpa [lastKind, hleft] using h
  · exact (reads_expect hright _).andThen (reads_pure ())

end Parser

/-! ## Declarations -/

namespace Tree
open Bindery.Outline

theorem spelling_eq (t : Tree) : t.spelling = Spelling.ofPieces (wordsAll t.outline) := by
  rw [spelling, Spelling.ofTokens, wordsAll_outline]
  rfl

/-- The first node of a kind is where the outline has one. -/
theorem exists_nodeOf? {kind : NodeKind} {ts : List Tree} (pre : List Outline)
    {os post : List Outline} (h : outlineAll ts = pre ++ .node kind os :: post)
    (hpre : ∀ o ∈ pre, ¬o.IsNode kind) :
    ∃ cs, nodeOf? kind ts = some (.node kind cs) ∧ outlineAll cs = os := by
  induction ts generalizing pre with
  | nil => simp at h
  | cons t ts ih =>
    rw [outlineAll_cons] at h
    cases t with
    | leaf t =>
      have hfind : nodeOf? kind (leaf t :: ts) = nodeOf? kind ts := by simp [nodeOf?, isNode]
      rw [outline_leaf] at h
      rw [hfind]
      cases ht : t.kind.isTrivia with
      | true =>
        rw [wordsOf_cons_trivia ht] at h
        exact ih _ h hpre
      | false =>
        rw [wordsOf_cons_word ht] at h
        cases pre with
        | nil => cases h
        | cons o pre => exact ih _ (List.cons.inj h).2 fun u hu => hpre u (.tail _ hu)
    | node k cs =>
      rw [outline_node, List.singleton_append] at h
      cases pre with
      | nil =>
        obtain ⟨hnode, -⟩ := List.cons.inj h
        obtain ⟨rfl, rfl⟩ := Outline.node.inj hnode
        exact ⟨cs, by simp [nodeOf?, isNode], rfl⟩
      | cons o pre =>
        obtain ⟨ho, hrest⟩ := List.cons.inj h
        have hk : k ≠ kind := hpre (.node k (outlineAll cs)) (ho ▸ .head _)
        have hfind : nodeOf? kind (node k cs :: ts) = nodeOf? kind ts := by
          simp [nodeOf?, isNode, hk]
        rw [hfind]
        exact ih _ hrest fun u hu => hpre u (.tail _ hu)

theorem map_piece_directWords (ts : List Tree) :
    (directWords ts).map SourceToken.piece = (outlineAll ts).filterMap Outline.word? := by
  induction ts with
  | nil => rfl
  | cons t ts ih =>
    rw [outlineAll_cons, List.filterMap_append, ← ih]
    cases t with
    | leaf t => cases ht : t.kind.isTrivia <;> simp [directWords, outline, ht, Outline.word?]
    | node k cs => simp [directWords, Outline.word?]

end Tree

/-- A name of one word. -/
theorem DeclName.ofTree_word {cs : List Tree} {x : String}
    (h : Tree.outlineAll cs = [.word ⟨.ident, x⟩]) :
    (DeclName.ofTree (.node .name cs)).text = x ∧
      (DeclName.ofTree (.node .name cs)).simple = x := by
  have hdirect : (Tree.directWords cs).map SourceToken.piece = [⟨.ident, x⟩] := by
    rw [Tree.map_piece_directWords, h]
    rfl
  obtain ⟨token, htoken, hpiece⟩ := List.map_eq_singleton_iff.1 hdirect
  obtain ⟨hkind, htext⟩ := Piece.mk.inj hpiece
  constructor
  · rw [ofTree, Tree.spelling_eq, Tree.outline_node, h]
    simp [Spelling.ofPieces, Spelling.behind, String.join]
  · simp [ofTree, Tree.children, htoken, hkind, htext]

namespace Declaration

/-- Trivia declare nothing. -/
theorem ofChildren_eq_nil {ts : List Tree} (h : Tree.outlineAll ts = []) (before : List Tree) :
    ofChildren before ts = [] := by
  induction ts generalizing before with
  | nil => rfl
  | cons t ts ih =>
    rw [Tree.outlineAll_cons, List.append_eq_nil_iff] at h
    cases t with
    | leaf t => exact ih h.2 _
    | node k cs => simp at h

/-- Where the outline is a single node, the declarations are read off this node. -/
theorem exists_ofChildren {ts : List Tree} {kind : NodeKind} {os : List Outline}
    (h : Tree.outlineAll ts = [.node kind os]) (before : List Tree) :
    ∃ above cs, Tree.outlineAll cs = os ∧
      ofChildren before ts = (ofTree? above (.node kind cs)).toList := by
  induction ts generalizing before with
  | nil => simp at h
  | cons t ts ih =>
    rw [Tree.outlineAll_cons] at h
    cases t with
    | leaf t =>
      rw [Tree.outline_leaf] at h
      cases ht : t.kind.isTrivia with
      | true =>
        rw [wordsOf_cons_trivia ht] at h
        exact ih h _
      | false =>
        rw [wordsOf_cons_word ht] at h
        cases h
    | node k cs =>
      rw [Tree.outline_node, List.singleton_append] at h
      obtain ⟨hnode, hrest⟩ := List.cons.inj h
      obtain ⟨rfl, rfl⟩ := Outline.node.inj hnode
      refine ⟨before, cs, rfl, ?_⟩
      rw [ofChildren, ofChildren_eq_nil hrest, List.append_nil]

end Declaration

end Bindery
