import Bindery.Bound.Class
import Bindery.Bound.Module
import Bindery.Convert
import Bindery.Decimal.Shortest
import Bindery.Decimal.Style
import Bindery.Declaration.Basic
import Bindery.Declaration.OfTree
import Bindery.Declaration.Spelling
import Bindery.Diagnostic
import Bindery.Directive
import Bindery.Dispatch.Catalogue
import Bindery.Dispatch.Pattern
import Bindery.Entity.Basic
import Bindery.Entity.Dump
import Bindery.Entity.Substitution
import Bindery.Export.Dump
import Bindery.Export.Model
import Bindery.Export.Surface
import Bindery.Header
import Bindery.Instance.Arguments
import Bindery.Instance.Evidence
import Bindery.Instance.Resolve
import Bindery.Invocation
import Bindery.Json.Basic
import Bindery.Json.Printer
import Bindery.Json.Reader
import Bindery.Literal
import Bindery.Name
import Bindery.Native.Scalar
import Bindery.Native.Shape
import Bindery.Native.Type
import Bindery.Numeral
import Bindery.OrderedMap
import Bindery.Path
import Bindery.Position
import Bindery.Preprocess.Condition
import Bindery.Preprocess.Conditional
import Bindery.Preprocess.Flags
import Bindery.Preprocess.MacroTable
import Bindery.Preprocess.Run
import Bindery.Registry
import Bindery.Render.Call
import Bindery.Render.Emit
import Bindery.Render.Line
import Bindery.Render.Module
import Bindery.Render.Prelude
import Bindery.Session.Basic
import Bindery.Session.Step
import Bindery.Settings
import Bindery.Sources
import Bindery.Survey.Functions
import Bindery.Survey.Scope
import Bindery.Survey.Walk
import Bindery.Text.Blank
import Bindery.Text.CodeRanges
import Bindery.Text.IdentChars
import Bindery.Text.Identifier
import Bindery.Text.Quoted
import Bindery.Text.Unprintable
import Bindery.Token.Kind
import Bindery.Token.Pattern
import Bindery.Token.Scan
import Bindery.Tree.Basic
import Bindery.Tree.Bracket
import Bindery.Tree.Declarations
import Bindery.Tree.Members
import Bindery.Tree.Parser
import Bindery.TypeExpr.Basic
import Bindery.TypeExpr.Printer
import Bindery.TypeExpr.Reader
import Bindery.TypeExpr.Substitution
import Bindery.TypeExpr.Unification
import Bindery.Value.Handle
import Bindery.Value.Host
import Bindery.Value.Native
import Bindery.Value.Store
import Bindery.WorkingTree
import Bindery.Proofs.Tree.Progress
import Bindery.Proofs.Tree.Members
import Bindery.Proofs.Tree.Lossless
import Bindery.Proofs.Token.Lexeme
import Bindery.Proofs.Token.Number
import Bindery.Proofs.TypeExpr.Pieces
import Bindery.Proofs.TypeExpr.RoundTrip
import Bindery.Proofs.Dispatch.Tier
import Bindery.Proofs.Dispatch.Selection
import Bindery.Proofs.TypeExpr.Sameness
import Bindery.Proofs.Instance.Catalogue
import Bindery.Proofs.Instance.Placement
import Bindery.Proofs.Instance.Resolution
import Bindery.Proofs.Survey.Steps
import Bindery.Proofs.Store.Sweep
import Bindery.Proofs.Session.Effects
import Bindery.Proofs.Session.Ledger
import Bindery.Proofs.Session.Lifecycle
import Bindery.Proofs.Native.Layout
import Bindery.Proofs.Convert.RoundTrip
import Bindery.Proofs.Session.Soundness
import Bindery.Proofs.Session.WriteRead
import Bindery.Proofs.Preprocess.Moments
import Bindery.Proofs.Preprocess.Groups
import Bindery.Proofs.Token.Place
import Bindery.Proofs.Preprocess.Origins
import Bindery.Proofs.Token.Cover
import Bindery.Proofs.Convert.Agreement
import Bindery.Proofs.OrderedMap
import Bindery.Proofs.Export.Folding
import Bindery.Proofs.Export.Surface
import Bindery.Proofs.Render.Registered
import Bindery.Proofs.Bound.Members
import Bindery.Proofs.Bound.Mirror
import Bindery.Proofs.Preprocess.SelfContained
import Bindery.Proofs.Render.Items
import Bindery.Proofs.Render.Strict
import Bindery.Proofs.Render.Account
import Bindery.Proofs.Bound.Construct
import Bindery.Proofs.Export.Inheritance
import Bindery.Proofs.Survey.Sites
import Bindery.Proofs.Survey.Quiet
import Bindery.Proofs.Survey.Marks
import Bindery.Proofs.Survey.Unit
import Bindery.Proofs.TypeExpr.Respelling
import Bindery.Proofs.Tree.Outline
import Bindery.Proofs.Tree.Variable
import Bindery.Proofs.Numeral
import Bindery.Proofs.Registry
import Bindery.Proofs.Export.Ancestry
import Bindery.Proofs.Bound.Classes
import Bindery.Proofs.TypeExpr.Constness
import Bindery.Proofs.Survey.Members
import Bindery.Proofs.Instance.Declarations
import Bindery.Proofs.Bound.ReadOnly
import Bindery.Proofs.TypeExpr.Settled
import Bindery.Proofs.Survey.Passage
import Bindery.Proofs.Instance.Agreement
import Bindery.Proofs.Preprocess.Attribution
import Bindery.Proofs.Preprocess.Expansion
import Bindery.Proofs.Preprocess.Bounds
import Bindery.Proofs.Preprocess.Strays
import Bindery.Proofs.TypeExpr.Alike
import Bindery.Proofs.TypeExpr.Substitution
import Bindery.Proofs.TypeExpr.Soundness
import Bindery.Proofs.TypeExpr.Completeness
import Bindery.Proofs.TypeExpr.Composition
import Bindery.Proofs.TypeExpr.Arithmetic
import Bindery.Proofs.TypeExpr.Splicing
import Bindery.Proofs.TypeExpr.Places
import Bindery.Proofs.Survey.Shadowing
import Bindery.Proofs.Token.Part
import Bindery.Proofs.Token.Shape
import Bindery.Proofs.Token.Fusion
import Bindery.Proofs.Preprocess.Nesting
import Bindery.Proofs.Preprocess.Reading
import Bindery.Proofs.Preprocess.InStep
import Bindery.Proofs.Preprocess.Naming
import Bindery.Proofs.Preprocess.Evaluation
import Bindery.Proofs.Instance.Partial
import Bindery.Proofs.TypeExpr.Determined
import Bindery.Proofs.Instance.Deduction
import Bindery.Proofs.Path
import Bindery.Proofs.Native.Odometer
import Bindery.Proofs.Token.Grammar
import Bindery.Proofs.Token.Munch
import Bindery.Proofs.TypeExpr.Fundamental
import Bindery.Proofs.Export.Requests
import Bindery.Proofs.Directive
import Bindery.Proofs.Literal.Integer
import Bindery.Proofs.Literal.Negation
import Bindery.Proofs.Bound.Initial
import Bindery.Proofs.Position
import Bindery.Proofs.Tree.Group
import Bindery.Proofs.Survey.Records
import Bindery.Proofs.Survey.Listing
