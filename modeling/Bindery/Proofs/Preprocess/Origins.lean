import Bindery.Header
import Bindery.Proofs.Preprocess.Moments
import Bindery.Proofs.Token.Place
import Bindery.Proofs.Tree.Lossless

/-!
# Where tokens come from

Every token of the stream was emitted at some moment of the run, for a token that was read from
a file at that moment, and it carries the place of that token. The tree keeps the tokens of the
stream, so an offset of its text leads back to the token that was read, and the line and column
that are reported for it are those of that token.

## Main definitions

* `originAt?`: the origin of the token that covers an offset, by passing over the tokens.
* `OpenFile.HasText`: the text of a file that is read.
* `Moment.Emits`: a token of the stream and the token it was emitted for.
* `Moment.Traced`: every token of the stream was emitted at a moment of the run.

## Main statements

* `OriginMap.lookup?_ofTokens`: the table of a text finds the token that covers an offset.
* `Moment.Reached.traced`: every moment of a run is traced.
* `Header.location_of_lt`: what is reported for an offset of the text of the tree.
-/
namespace Bindery

/-- The file is there, with this text, and has its number among the files read. -/
structure OpenFile.HasText (sources : Sources) (files : Array SourceFile) (f : OpenFile)
    (text : String) : Prop where
  text_eq : sources.read? f.path = some text
  file_eq : files[f.number]? = some ⟨f.path, LineIndex.ofText text⟩

namespace Moment

/-- At a moment of the run a token was read, and the `i`-th token of the stream was emitted for
it. -/
structure Emits (sources : Sources) (flags : Flags) (path : String) (m : Moment) (f : OpenFile)
    (t : Token) (i : Nat) (token : SourceToken) : Prop where
  reached : Reached sources flags path m
  file_eq : m.files.head? = some f
  next_eq : f.rest.head? = some t
  origin_eq : token.origin = ⟨f.number, t.offset⟩
  piece : ∃ (pieces : List Piece) (j : Nat), m.state.StandsFor t pieces ∧
    i = m.state.tokens.size + j ∧ pieces[j]? = some ⟨token.kind, token.text⟩

/-- What is known of the files that are being read, and of the tokens of the stream. -/
structure Traced (sources : Sources) (flags : Flags) (path : String) (m : Moment) : Prop where
  files : ∀ f ∈ m.files, ∃ text, f.HasText sources m.state.files text ∧ f.rest <:+ Token.scan text
  tokens : ∀ (i : Nat) (token : SourceToken), m.state.tokens[i]? = some token →
    ∃ m' f t text, Emits sources flags path m' f t i token ∧ t ∈ Token.scan text ∧
      f.HasText sources m.state.files text

variable {sources : Sources} {flags : Flags} {path : String} {m m' : Moment}

/-- A step keeps the files that were read. -/
theorem Moves.files_eq {includeDirs : List String} (h : Moves sources includeDirs m m')
    {n : Nat} {file : SourceFile} (hfile : m.state.files[n]? = some file) :
    m'.state.files[n]? = some file := by
  cases h with
  | read hrest ht =>
    cases ht.effect with
    | regrouped | skipped | emitted => exact hfile
    | obeyed hname hactive hquiet => rwa [hquiet.files]
  | pass | leave => exact hfile
  | enter hrest ht honce hdepth htext =>
    have hlt := (Array.getElem?_eq_some_iff.1 hfile).1
    simpa [Preprocessor.opened, Array.getElem?_push, Nat.ne_of_lt hlt] using hfile

theorem Moves.hasText {includeDirs : List String} (h : Moves sources includeDirs m m')
    {f : OpenFile} {text : String} (hf : f.HasText sources m.state.files text) :
    f.HasText sources m'.state.files text :=
  ⟨hf.text_eq, h.files_eq hf.file_eq⟩

/-- A token of the stream was there before the step, or it is emitted for the token that the step
reads. -/
theorem Moves.token_cases {includeDirs : List String} (h : Moves sources includeDirs m m')
    {i : Nat} {token : SourceToken} (htoken : m'.state.tokens[i]? = some token) :
    m.state.tokens[i]? = some token ∨ ∃ f t, m.files.head? = some f ∧ f.rest.head? = some t ∧
      token.origin = ⟨f.number, t.offset⟩ ∧ ∃ (pieces : List Piece) (j : Nat),
        m.state.StandsFor t pieces ∧ i = m.state.tokens.size + j ∧
          pieces[j]? = some ⟨token.kind, token.text⟩ := by
  cases h with
  | @read f fs t rest s s' hrest ht =>
    cases ht.effect with
    | regrouped | skipped => exact .inl htoken
    | obeyed hname hactive hquiet => exact .inl (by rwa [hquiet.tokens] at htoken)
    | @emitted hactive hkind pieces hpieces =>
      simp only [Preprocessor.emit] at htoken
      by_cases hold : i < s.tokens.size
      · exact .inl (by rwa [Array.getElem?_append_left hold] at htoken)
      · rw [Array.getElem?_append_right (Nat.le_of_not_lt hold), List.getElem?_toArray,
          List.getElem?_map, Option.map_eq_some_iff] at htoken
        obtain ⟨piece, hpiece, rfl⟩ := htoken
        exact .inr ⟨f, t, rfl, by simp [hrest], rfl, pieces, i - s.tokens.size, hpieces,
          (Nat.add_sub_cancel' (Nat.le_of_not_lt hold)).symm, hpiece⟩
  | pass | enter | leave => exact .inl htoken

/-- A file is read from where it was read before, or from its beginning. -/
theorem Moves.files_cases {includeDirs : List String} (h : Moves sources includeDirs m m')
    {f' : OpenFile} (hf : f' ∈ m'.files) :
    (∃ f ∈ m.files, ∃ rest, f' = f.next rest ∧ rest <:+ f.rest) ∨
      ∃ text, f'.HasText sources m'.state.files text ∧ f'.rest = Token.scan text := by
  -- The file that is read next keeps its place behind the token.
  have hnext : ∀ {f : OpenFile} {fs : List OpenFile} {t : Token} {rest : List Token},
      f.rest = t :: rest → f' ∈ f.next rest :: fs →
      ∃ g ∈ f :: fs, ∃ rest, f' = g.next rest ∧ rest <:+ g.rest := by
    intro f fs t rest hrest hmem
    rcases List.mem_cons.1 hmem with rfl | hmem
    · exact ⟨f, .head _, rest, rfl, hrest ▸ List.suffix_cons t rest⟩
    · exact ⟨f', .tail _ hmem, f'.rest, rfl, List.suffix_refl _⟩
  cases h with
  | read hrest ht => exact .inl (hnext hrest hf)
  | pass hrest ht honce => exact .inl (hnext hrest hf)
  | @enter f fs t rest s target text hrest ht honce hdepth htext =>
    rcases List.mem_cons.1 hf with rfl | hf
    · exact .inr ⟨text, ⟨htext, by simp [OpenFile.start, Preprocessor.opened]⟩, rfl⟩
    · exact .inl (hnext hrest hf)
  | leave hrest hclosed =>
    exact .inl ⟨f', .tail _ hf, f'.rest, rfl, List.suffix_refl _⟩

/-- What a step keeps of the files and the tokens. -/
theorem Traced.move (h : Traced sources flags path m) (hm : Reached sources flags path m)
    (hmove : Moves sources flags.includeDirs m m') : Traced sources flags path m' := by
  refine ⟨fun f' hf => ?_, fun i token htoken => ?_⟩
  · rcases hmove.files_cases hf with ⟨f, hmem, rest, rfl, hrest⟩ | ⟨text, htext, hscan⟩
    · obtain ⟨text, htext, hsuffix⟩ := h.files f hmem
      have hkept := hmove.hasText htext
      exact ⟨text, ⟨hkept.text_eq, hkept.file_eq⟩, hrest.trans hsuffix⟩
    · exact ⟨text, htext, hscan ▸ List.suffix_refl _⟩
  · rcases hmove.token_cases htoken with hold | ⟨f, t, hf, ht, horigin, hpiece⟩
    · obtain ⟨m₀, f, t, text, hemits, hmem, htext⟩ := h.tokens i token hold
      exact ⟨m₀, f, t, text, hemits, hmem, hmove.hasText htext⟩
    · obtain ⟨text, htext, hsuffix⟩ := h.files f (List.mem_of_head? hf)
      exact ⟨m, f, t, text, ⟨hm, hf, ht, horigin, hpiece⟩,
        hsuffix.subset (List.mem_of_head? ht), hmove.hasText htext⟩

/-- Every moment of a run is traced. -/
theorem Reached.traced (h : Reached sources flags path m) : Traced sources flags path m := by
  obtain ⟨text, htext, hleads⟩ := h
  induction hleads with
  | refl =>
    refine ⟨fun f hf => ?_, fun i token htoken => ?_⟩
    · obtain rfl := List.mem_singleton.1 hf
      exact ⟨text, ⟨htext, rfl⟩, List.suffix_refl _⟩
    · simp [start, Preprocessor.opened] at htoken
  | tail hsteps hmove ih => exact ih.move ⟨text, htext, hsteps⟩ hmove

/-- A run that succeeds comes to the end of its main file. -/
theorem reached_of_run_eq_ok {s : Preprocessor}
    (h : Preprocessor.run sources flags path = .ok s) : Reached sources flags path ⟨[], s⟩ := by
  cases htext : sources.read? (Path.normalize path) with
  | none =>
    rw [Preprocessor.run, maxIncludeDepth, Preprocessor.file_of_missing _ _ (by simp) htext] at h
    simp [Preprocessor.fail] at h
  | some text =>
    obtain ⟨m, hm, hhalts⟩ := (run_eq_iff htext _).1 h
    cases hhalts
    exact hm

end Moment

/-! ## Offsets of the text of the tree -/

/-- The size of the text of tokens. -/
def tokensSize (tokens : List SourceToken) : Nat :=
  tokens.foldr (fun t n => t.text.utf8ByteSize + n) 0

theorem tokensSize_cons (t : SourceToken) (ts : List SourceToken) :
    tokensSize (t :: ts) = t.text.utf8ByteSize + tokensSize ts := rfl

/-- The origin of the token that covers an offset of the text of the tokens, which starts at
`start`. An offset past the end belongs to the last token. -/
def originFrom? (start offset : Nat) : List SourceToken → Option Origin
  | [] => none
  | t :: ts =>
    if offset < start then none
    else (originFrom? (start + t.text.utf8ByteSize) offset ts).or (some t.origin)

/-- The origin of the token that covers an offset of the text of the tokens. -/
def originAt? (tokens : List SourceToken) (offset : Nat) : Option Origin :=
  originFrom? 0 offset tokens

theorem originFrom?_of_lt {start offset : Nat} (h : offset < start) (tokens : List SourceToken) :
    originFrom? start offset tokens = none := by
  cases tokens with
  | nil => rfl
  | cons t ts => rw [originFrom?, if_pos h]

/-- An offset of the text lies in a token, and has its origin. -/
theorem originFrom?_eq_some {start offset : Nat} {tokens : List SourceToken}
    (hstart : start ≤ offset) (hoffset : offset < start + tokensSize tokens) :
    ∃ before token after, tokens = before ++ token :: after ∧
      start + tokensSize before ≤ offset ∧
      offset < start + tokensSize before + token.text.utf8ByteSize ∧
      originFrom? start offset tokens = some token.origin := by
  induction tokens generalizing start with
  | nil => exact absurd hoffset (Nat.not_lt.2 hstart)
  | cons t ts ih =>
    rw [tokensSize_cons, ← Nat.add_assoc] at hoffset
    rw [originFrom?, if_neg (Nat.not_lt.2 hstart)]
    by_cases hnext : offset < start + t.text.utf8ByteSize
    · exact ⟨[], t, ts, rfl, hstart, hnext, by rw [originFrom?_of_lt hnext]; rfl⟩
    · obtain ⟨before, token, after, hcut, hle, hlt, horigin⟩ :=
        ih (Nat.le_of_not_lt hnext) hoffset
      refine ⟨t :: before, token, after, by rw [hcut]; rfl, ?_, ?_, by rw [horigin]; rfl⟩
      · rwa [tokensSize_cons, ← Nat.add_assoc]
      · rwa [tokensSize_cons, ← Nat.add_assoc]

namespace OriginMap

/-- The offsets at which tokens start, the first of them at `start`. -/
def startsFrom (start : Nat) : List SourceToken → List Nat
  | [] => []
  | t :: ts => start :: startsFrom (start + t.text.utf8ByteSize) ts

theorem length_startsFrom (start : Nat) (tokens : List SourceToken) :
    (startsFrom start tokens).length = tokens.length := by
  induction tokens generalizing start with
  | nil => rfl
  | cons t ts ih => rw [startsFrom, List.length_cons, List.length_cons, ih]

theorem le_of_mem_startsFrom {start offset : Nat} {tokens : List SourceToken}
    (h : offset ∈ startsFrom start tokens) : start ≤ offset := by
  induction tokens generalizing start with
  | nil => cases h
  | cons t ts ih =>
    rcases List.mem_cons.1 h with rfl | h
    · exact Nat.le_refl _
    · exact Nat.le_trans (Nat.le_add_right _ _) (ih h)

/-- Tokens start one behind the other. -/
theorem pairwise_startsFrom (start : Nat) (tokens : List SourceToken) :
    (startsFrom start tokens).Pairwise (· ≤ ·) := by
  induction tokens generalizing start with
  | nil => exact .nil
  | cons t ts ih =>
    refine List.pairwise_cons.2 ⟨fun offset h => ?_, ih _⟩
    exact Nat.le_trans (Nat.le_add_right _ _) (le_of_mem_startsFrom h)

theorem toList_foldl_push (tokens : List SourceToken) (m : OriginMap) :
    (tokens.foldl push m).starts.toList = m.starts.toList ++ startsFrom m.size tokens ∧
      (tokens.foldl push m).origins.toList = m.origins.toList ++ tokens.map (·.origin) := by
  induction tokens generalizing m with
  | nil => simp [startsFrom]
  | cons t ts ih =>
    obtain ⟨hstarts, horigins⟩ := ih (m.push t)
    rw [List.foldl_cons, hstarts, horigins]
    simp [push, startsFrom]

/-- The token that covers an offset is the last one that starts up to it. -/
theorem originFrom?_eq (start offset : Nat) (tokens : List SourceToken) :
    originFrom? start offset tokens =
      match ((startsFrom start tokens).takeWhile (· ≤ offset)).length with
      | 0 => none
      | n + 1 => (tokens.map (·.origin))[n]? := by
  induction tokens generalizing start with
  | nil => rfl
  | cons t ts ih =>
    by_cases hle : start ≤ offset
    · rw [originFrom?, if_neg (Nat.not_lt.2 hle), startsFrom,
        List.takeWhile_cons_of_pos (by simpa using hle), List.length_cons, ih]
      have hfront : (startsFrom (start + t.text.utf8ByteSize) ts).takeWhile (· ≤ offset) <+:
          startsFrom (start + t.text.utf8ByteSize) ts := List.takeWhile_prefix _
      have hlength := hfront.length_le
      rw [length_startsFrom] at hlength
      cases hcount : ((startsFrom (start + t.text.utf8ByteSize) ts).takeWhile
          (· ≤ offset)).length with
      | zero => rfl
      | succ n =>
        have hthere : n < (ts.map (·.origin)).length := by
          rw [List.length_map]
          omega
        simp [List.getElem?_eq_getElem hthere]
    · rw [originFrom?, if_pos (Nat.lt_of_not_le hle), startsFrom,
        List.takeWhile_cons_of_neg (by simpa using hle)]
      rfl

/-- The table of a text finds the token that covers an offset. -/
theorem lookup?_ofTokens (tokens : List SourceToken) (offset : Nat) :
    (ofTokens tokens).lookup? offset = originAt? tokens offset := by
  have hstarts : (ofTokens tokens).starts.toList = startsFrom 0 tokens :=
    (toList_foldl_push tokens {}).1
  have horigins : (ofTokens tokens).origins.toList = tokens.map (·.origin) :=
    (toList_foldl_push tokens {}).2
  have hcount : LineIndex.countUpTo (startsFrom 0 tokens) offset =
      ((startsFrom 0 tokens).takeWhile (· ≤ offset)).length := by
    cases tokens with
    | nil => simp [startsFrom, LineIndex.countUpTo, LineIndex.halve]
    | cons t ts =>
      refine LineIndex.countUpTo_eq (pairwise_startsFrom 0 _) ?_
      rw [startsFrom, List.takeWhile_cons_of_pos (by simp)]
      exact Nat.succ_pos _
  rw [lookup?, originAt?, originFrom?_eq, hstarts, ← hcount]
  cases LineIndex.countUpTo (startsFrom 0 tokens) offset with
  | zero => rfl
  | succ n =>
    change (ofTokens tokens).origins[n]? = (tokens.map (·.origin))[n]?
    rw [← horigins, Array.getElem?_toList]

end OriginMap

/-- The tree of a stream holds its tokens. -/
theorem SyntaxTree.leaves_parse (tokens : List SourceToken) :
    (parse tokens).root.leaves = tokens := by
  let first : ParseState := { rest := tokens, final := tokens.getLast?.map (·.origin) }
  let last := (Parser.passTrivia (Grammar.declarations (Parser.nested Grammar.declaration) false
    first).2).2
  obtain ⟨hlead, hrest⟩ := Grammar.leadsTo_sourceFileParts first
  have hroot : (parse tokens).root = .node .sourceFile last.built.reverse := rfl
  have htokens : last.tokens = first.tokens := hlead.tokens_eq
  rw [ParseState.tokens, hrest, List.append_nil] at htokens
  rw [hroot, Tree.leaves_node, htokens]
  rfl

namespace Header

variable {sources : Sources} {flags : List String} {path : String} {h : Header}

/-- The tree of a header holds the tokens of the stream. -/
theorem exists_run_of_load (hload : load sources flags path = .ok h) : ∃ s,
    Preprocessor.run sources (Flags.parse flags) path = .ok s ∧ h.files = s.files ∧
      h.root.leaves = s.tokens.toList := by
  unfold load at hload
  split at hload
  · simp at hload
  · rename_i s hrun
    simp only at hload
    split at hload
    · simp at hload
    · obtain rfl := Except.ok.inj hload
      exact ⟨s, hrun, rfl, SyntaxTree.leaves_parse _⟩

/-- **Locations lead back to what was read.** For every offset of the text of the tree a file
and a location are reported. The file was read, and at the line and column in it begins the token
that covers the offset, or the use of the macro that the token was emitted for. -/
theorem location_of_lt (hload : load sources flags path = .ok h) {offset : Nat}
    (hoffset : offset < h.textSize) :
    ∃ (before after : List SourceToken) (token : SourceToken) (m : Moment) (f : OpenFile)
      (t : Token) (text : String) (position : Position),
      h.root.leaves = before ++ token :: after ∧ tokensSize before ≤ offset ∧
      offset < tokensSize before + token.text.utf8ByteSize ∧
      Moment.Emits sources (Flags.parse flags) path m f t before.length token ∧
      f.HasText sources h.files text ∧ t ∈ Token.scan text ∧
      h.fileAt? offset = some f.path ∧
      h.locationAt? offset = some ⟨f.path.text, position⟩ ∧
      (¬(t.kind = .ident ∧ m.state.macros.contains t.text = true) ∧
          position.PointsAt text token.text ∨
        t.kind = .ident ∧ m.state.macros.contains t.text = true ∧
          ⟨token.kind, token.text⟩ ∈ m.state.macros.expand t.text ∧
          position.PointsAt text t.text) := by
  obtain ⟨s, hrun, hfiles, hleaves⟩ := exists_run_of_load hload
  obtain ⟨before, token, after, hcut, hle, hlt, horigin⟩ :=
    originFrom?_eq_some (Nat.zero_le offset) (by rw [Nat.zero_add]; exact hoffset)
  rw [Nat.zero_add] at hle hlt
  have htoken : s.tokens[before.length]? = some token := by
    rw [← Array.getElem?_toList, ← hleaves, hcut]
    simp
  obtain ⟨m, f, t, text, hemits, hmem, htext⟩ :=
    (Moment.reached_of_run_eq_ok hrun).traced.tokens _ token htoken
  rw [← hfiles] at htext
  obtain ⟨front, rest, hsplit, hplace⟩ := Token.exists_of_mem_scan hmem
  have hpoints := LineIndex.pointsAt_position hsplit
  have hfound : h.origins.lookup? offset = some ⟨f.number, byteLength front⟩ := by
    rw [origins, OriginMap.lookup?_ofTokens, originAt?, horigin, hemits.origin_eq, hplace]
  refine ⟨before, after, token, m, f, t, text, (LineIndex.ofText text).position (byteLength front),
    hcut, hle, hlt, hemits, htext, hmem, ?_, ?_, ?_⟩
  · simp [fileAt?, hfound, htext.file_eq]
  · simp [locationAt?, location?, hfound, locate?, htext.file_eq]
  · obtain ⟨pieces, j, hstands, -, hpiece⟩ := hemits.piece
    cases hstands with
    | itself hplain =>
      have hsame := List.mem_singleton.1 (List.mem_of_getElem? hpiece)
      rw [Piece.mk.injEq] at hsame
      exact .inl ⟨hplain, hsame.2 ▸ hpoints⟩
    | expansion hkind huse =>
      exact .inr ⟨hkind, huse, List.mem_of_getElem? hpiece, hpoints⟩

/-- A name that an included file defines is located where it is used. -/
theorem location_of_lt_macroUse :
    let sources := Sources.ofFiles [("a.h", "#include \"b.h\"\nN x;"), ("b.h", "#define N int")]
    ∃ h, load sources [] "a.h" = .ok h ∧ 2 < h.textSize ∧
      h.locationAt? 2 = some ⟨"a.h", ⟨1, 0⟩⟩ ∧
      ∃ (before after : List SourceToken) (token : SourceToken) (m : Moment) (f : OpenFile)
        (t : Token) (text : String) (position : Position),
        h.root.leaves = before ++ token :: after ∧ tokensSize before ≤ 2 ∧
        2 < tokensSize before + token.text.utf8ByteSize ∧
        Moment.Emits sources (Flags.parse []) "a.h" m f t before.length token ∧
        f.HasText sources h.files text ∧ t ∈ Token.scan text ∧ h.fileAt? 2 = some f.path ∧
        h.locationAt? 2 = some ⟨f.path.text, position⟩ ∧
        (¬(t.kind = .ident ∧ m.state.macros.contains t.text = true) ∧
            position.PointsAt text token.text ∨
          t.kind = .ident ∧ m.state.macros.contains t.text = true ∧
            ⟨token.kind, token.text⟩ ∈ m.state.macros.expand t.text ∧
            position.PointsAt text t.text) := by
  intro sources
  have hread : (load sources [] "a.h").toOption.map (fun h => (h.textSize, h.locationAt? 2)) =
      some (7, some ⟨"a.h", ⟨1, 0⟩⟩) := by decide +kernel
  cases hload : load sources [] "a.h" with
  | error e => simp [hload, Except.toOption] at hread
  | ok h =>
    obtain ⟨hsize, hplace⟩ : h.textSize = 7 ∧ h.locationAt? 2 = some ⟨"a.h", ⟨1, 0⟩⟩ := by
      simpa [hload, Except.toOption] using hread
    have hlt : 2 < h.textSize := by rw [hsize]; decide
    exact ⟨h, rfl, hlt, hplace, location_of_lt hload hlt⟩

end Header
end Bindery
