import RelationNotation.Command.Check
import RelationNotation.Command.Drawing
import RelationNotation.Command.Inspect
import RelationNotation.Command.Outcome
import RelationNotation.Command.Program
import RelationNotation.Command.Request
import RelationNotation.Command.Setting
import RelationNotation.Diagnostic.Basic
import RelationNotation.Diagnostic.Report
import RelationNotation.Json.Checked
import RelationNotation.Json.Issue
import RelationNotation.Json.Layout
import RelationNotation.Json.Reader
import RelationNotation.Json.Value
import RelationNotation.Json.WholeNumber
import RelationNotation.Main
import RelationNotation.Number.Binary64
import RelationNotation.Parse.Cursor
import RelationNotation.Parse.Document
import RelationNotation.Parse.Expression
import RelationNotation.Parse.Fault
import RelationNotation.Parse.Production
import RelationNotation.Parse.Relation
import RelationNotation.Parse.Statement
import RelationNotation.Path.Basic
import RelationNotation.Path.Folder
import RelationNotation.Path.Pattern
import RelationNotation.Project.Discovery
import RelationNotation.Project.Manifest
import RelationNotation.Proofs.Canonical.Document
import RelationNotation.Proofs.Canonical.Expressible
import RelationNotation.Proofs.Canonical.Faithful
import RelationNotation.Proofs.Canonical.GacString
import RelationNotation.Proofs.Canonical.Leaf
import RelationNotation.Proofs.Canonical.LeafClass
import RelationNotation.Proofs.Canonical.RoundTrip
import RelationNotation.Proofs.Canonical.SetOut
import RelationNotation.Proofs.Canonical.Statement
import RelationNotation.Proofs.Diagnostic.Blanking
import RelationNotation.Proofs.Diagnostic.Completeness
import RelationNotation.Proofs.Diagnostic.Order
import RelationNotation.Proofs.Diagnostic.Report
import RelationNotation.Proofs.Grammar.Acceptance
import RelationNotation.Proofs.Grammar.Completeness
import RelationNotation.Proofs.Grammar.Level
import RelationNotation.Proofs.Grammar.Production
import RelationNotation.Proofs.Grammar.Soundness
import RelationNotation.Proofs.Grammar.Span
import RelationNotation.Proofs.Grammar.Viability
import RelationNotation.Proofs.Json.Layout
import RelationNotation.Proofs.Json.Levels
import RelationNotation.Proofs.Json.Reading
import RelationNotation.Proofs.Locality.Attach
import RelationNotation.Proofs.Locality.Displacement
import RelationNotation.Proofs.Locality.Document
import RelationNotation.Proofs.Locality.Joining
import RelationNotation.Proofs.Locality.Seam
import RelationNotation.Proofs.Locality.Session
import RelationNotation.Proofs.Parse.Account
import RelationNotation.Proofs.Parse.Agreement
import RelationNotation.Proofs.Parse.Alternatives
import RelationNotation.Proofs.Parse.Counting
import RelationNotation.Proofs.Parse.Discipline
import RelationNotation.Proofs.Parse.Document
import RelationNotation.Proofs.Parse.Earliest
import RelationNotation.Proofs.Parse.Ending
import RelationNotation.Proofs.Parse.Forking
import RelationNotation.Proofs.Parse.Layout
import RelationNotation.Proofs.Parse.Level
import RelationNotation.Proofs.Parse.Limit
import RelationNotation.Proofs.Parse.Mistake
import RelationNotation.Proofs.Parse.Movement
import RelationNotation.Proofs.Parse.Partition
import RelationNotation.Proofs.Parse.Reading
import RelationNotation.Proofs.Parse.Recovery
import RelationNotation.Proofs.Parse.Retracing
import RelationNotation.Proofs.Parse.Session
import RelationNotation.Proofs.Parse.Skipped
import RelationNotation.Proofs.Path.Search
import RelationNotation.Proofs.Project.Discovery
import RelationNotation.Proofs.Project.Manifest
import RelationNotation.Proofs.Source.Line
import RelationNotation.Proofs.Source.Place
import RelationNotation.Proofs.Token.DashRun
import RelationNotation.Proofs.Token.Fault
import RelationNotation.Proofs.Token.Fit
import RelationNotation.Proofs.Token.Gap
import RelationNotation.Proofs.Token.Placing
import RelationNotation.Proofs.Token.Recut
import RelationNotation.Proofs.Token.Settled
import RelationNotation.Proofs.Token.Significant
import RelationNotation.Proofs.Token.StringPosition
import RelationNotation.Proofs.Token.Tiling
import RelationNotation.Proofs.Token.Trivia
import RelationNotation.Proofs.Token.Unclosed
import RelationNotation.Proofs.Tree.Attach
import RelationNotation.Proofs.Tree.Batch
import RelationNotation.Proofs.Tree.Faithful
import RelationNotation.Proofs.Tree.Idle
import RelationNotation.Proofs.Tree.Interchange
import RelationNotation.Proofs.Tree.Levels
import RelationNotation.Proofs.Tree.Loading
import RelationNotation.Proofs.Tree.Node
import RelationNotation.Proofs.Tree.Notes
import RelationNotation.Proofs.Tree.Object
import RelationNotation.Proofs.Tree.Owner
import RelationNotation.Proofs.Tree.Pass
import RelationNotation.Proofs.Tree.Rebuilding
import RelationNotation.Proofs.Tree.Schema
import RelationNotation.Proofs.Tree.Spans
import RelationNotation.Proofs.Tree.Walk
import RelationNotation.Proofs.Tree.WellFormed
import RelationNotation.Source.Position
import RelationNotation.Source.Span
import RelationNotation.Text.Basic
import RelationNotation.Text.Blank
import RelationNotation.Text.Encoding
import RelationNotation.Text.Markup
import RelationNotation.Text.Numeral
import RelationNotation.Text.Printable
import RelationNotation.Text.Quoted
import RelationNotation.Text.Terminal
import RelationNotation.Token.Basic
import RelationNotation.Token.Kind
import RelationNotation.Token.Lexeme
import RelationNotation.Token.Scan
import RelationNotation.Token.Trivia
import RelationNotation.Toml.Document
import RelationNotation.Toml.Scalar
import RelationNotation.Toml.Text
import RelationNotation.Toml.Value
import RelationNotation.Tree.Attach
import RelationNotation.Tree.Canonical
import RelationNotation.Tree.Decode
import RelationNotation.Tree.Document
import RelationNotation.Tree.Encode
import RelationNotation.Tree.Expression
import RelationNotation.Tree.Leaf
import RelationNotation.Tree.Model
import RelationNotation.Tree.Node
import RelationNotation.Tree.NumberValue
import RelationNotation.Tree.Object
import RelationNotation.Tree.Origin
import RelationNotation.Tree.Relation
import RelationNotation.Tree.SExpression
import RelationNotation.Tree.Walk
