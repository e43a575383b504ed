import Bindery.Preprocess.Run

/-!
# Syntax trees

The declarations of a header form a tree whose leaves are the tokens of the stream, trivia
included. Nothing is left out, so the text of the tree is the text of the stream. A table of the
offsets at which tokens start leads from an offset of it to the place that the token was read from.

## Main definitions

* `NodeKind`: the kinds of inner nodes.
* `Tree`: a token or a node with children.
* `Tree.leaves`: the tokens of a tree from left to right.
* `Tree.words`: those of them that carry meaning.
* `OriginMap`: where the tokens of a text start, and where they were read from.
* `OriginMap.lookup?`: the origin of the token that covers an offset.
-/
namespace Bindery

/-- What an inner node stands for. -/
inductive NodeKind where
  | sourceFile | namespaceDef | declList | linkageSpec
  | classDef | baseList | baseSpec | memberList | accessSpec
  | templateDecl | templateParams | templateParam | templateArgs | templateArg
  | explicitInstantiation
  | function | paramList | param | field | declarator | arraySuffix
  | type | name | body | ctorInit | initializer
  | typeAlias | typedef | usingDecl
  | skipped
  | error
deriving DecidableEq, Inhabited

/-- The name of a kind in listings. -/
def NodeKind.label : NodeKind → String
  | sourceFile => "SOURCE_FILE" | namespaceDef => "NAMESPACE" | declList => "DECL_LIST"
  | linkageSpec => "LINKAGE_SPEC" | classDef => "CLASS" | baseList => "BASE_LIST"
  | baseSpec => "BASE_SPEC" | memberList => "MEMBER_LIST" | accessSpec => "ACCESS_SPEC"
  | templateDecl => "TEMPLATE_DECL" | templateParams => "TEMPLATE_PARAMS"
  | templateParam => "TEMPLATE_PARAM" | templateArgs => "TEMPLATE_ARGS"
  | templateArg => "TEMPLATE_ARG" | explicitInstantiation => "EXPLICIT_INSTANTIATION"
  | function => "FUNCTION" | paramList => "PARAM_LIST" | param => "PARAM" | field => "FIELD"
  | declarator => "DECLARATOR" | arraySuffix => "ARRAY_SUFFIX" | type => "TYPE"
  | name => "NAME" | body => "BODY" | ctorInit => "CTOR_INIT" | initializer => "INITIALIZER"
  | typeAlias => "TYPE_ALIAS" | typedef => "TYPEDEF" | usingDecl => "USING_DECL"
  | skipped => "SKIPPED" | error => "ERROR"

/-- A token, or a node with children in order. -/
inductive Tree where
  | leaf (token : SourceToken)
  | node (kind : NodeKind) (children : List Tree)
deriving Inhabited

namespace Tree

mutual
/-- The tokens of a tree from left to right. -/
def leaves : Tree → List SourceToken
  | leaf t => [t]
  | node _ children => leavesOf children

/-- The tokens of several trees from left to right. -/
def leavesOf : List Tree → List SourceToken
  | [] => []
  | t :: ts => t.leaves ++ leavesOf ts
end

@[simp] theorem leavesOf_nil : leavesOf [] = [] := by simp [leavesOf]

@[simp] theorem leavesOf_cons (t : Tree) (ts : List Tree) :
    leavesOf (t :: ts) = t.leaves ++ leavesOf ts := by simp [leavesOf]

@[simp] theorem leaves_leaf (t : SourceToken) : (leaf t).leaves = [t] := by simp [leaves]

@[simp] theorem leaves_node (k : NodeKind) (ts : List Tree) :
    (node k ts).leaves = leavesOf ts := by simp [leaves]

@[simp] theorem leavesOf_append (xs ys : List Tree) :
    leavesOf (xs ++ ys) = leavesOf xs ++ leavesOf ys := by
  induction xs with
  | nil => simp
  | cons x xs ih => simp [ih]

@[simp] theorem leavesOf_map_leaf (ts : List SourceToken) : leavesOf (ts.map leaf) = ts := by
  induction ts with
  | nil => simp
  | cons t ts ih => simp [ih]

/-- The tokens of a tree that carry meaning. -/
def words (t : Tree) : List SourceToken := t.leaves.filter (!·.kind.isTrivia)

/-- The children of a node. -/
def children : Tree → List Tree
  | leaf _ => []
  | node _ ts => ts

/-- The tree is a node of a kind. -/
def isNode (kind : NodeKind) : Tree → Bool
  | leaf _ => false
  | node k _ => k = kind

/-- The tree is a token of a kind. -/
def isToken (kind : TokenKind) : Tree → Bool
  | leaf t => t.kind = kind
  | node _ _ => false

end Tree

/-- Where the tokens of a text start, and where each was read from. -/
structure OriginMap where
  starts : Array Nat := #[]
  origins : Array Origin := #[]
  /-- The size of the text so far, at which the next token starts. -/
  size : Nat := 0

namespace OriginMap

/-- Enter a token behind the others. -/
def push (m : OriginMap) (t : SourceToken) : OriginMap :=
  ⟨m.starts.push m.size, m.origins.push t.origin, m.size + t.text.utf8ByteSize⟩

/-- The table of a list of tokens. -/
def ofTokens (tokens : List SourceToken) : OriginMap := tokens.foldl push {}

/-- The origin of the token that covers an offset. An offset past the end belongs to the last
token. -/
def lookup? (m : OriginMap) (offset : Nat) : Option Origin :=
  match LineIndex.countUpTo m.starts.toList offset with
  | 0 => none
  | n + 1 => m.origins[n]?

end OriginMap
end Bindery
