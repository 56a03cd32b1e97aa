import Templating.Catalog
import Templating.Condition.Basic
import Templating.Condition.Compile
import Templating.Condition.Evaluate
import Templating.Directive.Config
import Templating.Form.Basic
import Templating.Form.Expression
import Templating.Form.Markup
import Templating.Form.Template
import Templating.Interpolation
import Templating.Markup.Entity
import Templating.Markup.Fault
import Templating.Markup.Html
import Templating.Markup.Node
import Templating.Markup.Piece
import Templating.Markup.Reader
import Templating.Number.Basic
import Templating.Number.Decimal
import Templating.Number.Double
import Templating.Number.Numeral
import Templating.Number.Scaled
import Templating.Path
import Templating.Proofs.Catalog
import Templating.Proofs.Condition.Comparison
import Templating.Proofs.Condition.Grammar
import Templating.Proofs.Condition.Integer
import Templating.Proofs.Condition.RoundTrip
import Templating.Proofs.Directive.Classify
import Templating.Proofs.Form.Basic
import Templating.Proofs.Form.Expression
import Templating.Proofs.Form.Markup
import Templating.Proofs.Form.Template
import Templating.Proofs.Interpolation
import Templating.Proofs.Location
import Templating.Proofs.Markup.Attributes
import Templating.Proofs.Markup.Calls
import Templating.Proofs.Markup.Canonical
import Templating.Proofs.Markup.Course
import Templating.Proofs.Markup.Decoding
import Templating.Proofs.Markup.Edit
import Templating.Proofs.Markup.Grammar
import Templating.Proofs.Markup.Joining
import Templating.Proofs.Markup.Overlay
import Templating.Proofs.Markup.Piece
import Templating.Proofs.Markup.Place
import Templating.Proofs.Markup.Progress
import Templating.Proofs.Markup.Reading
import Templating.Proofs.Markup.RoundTrip
import Templating.Proofs.Markup.Setting
import Templating.Proofs.Markup.Terminals
import Templating.Proofs.Markup.Tree
import Templating.Proofs.Markup.Walk
import Templating.Proofs.Number.Digits
import Templating.Proofs.Number.Nearest
import Templating.Proofs.Number.Numeral
import Templating.Proofs.Number.Rounding
import Templating.Proofs.Number.Text
import Templating.Proofs.Occurrence
import Templating.Proofs.Outcome
import Templating.Proofs.Path
import Templating.Proofs.Registry.Agreement
import Templating.Proofs.Registry.Reachable
import Templating.Proofs.Registry.Respelling
import Templating.Proofs.Registry.Run
import Templating.Proofs.Renderer.Arrangement
import Templating.Proofs.Renderer.Binding
import Templating.Proofs.Renderer.Compilation
import Templating.Proofs.Renderer.Dressing
import Templating.Proofs.Renderer.Enclosure
import Templating.Proofs.Renderer.Expression
import Templating.Proofs.Renderer.Fault
import Templating.Proofs.Renderer.Literal
import Templating.Proofs.Renderer.Output
import Templating.Proofs.Renderer.Placeholder
import Templating.Proofs.Renderer.Replacement
import Templating.Proofs.Renderer.Scope
import Templating.Proofs.Renderer.Source
import Templating.Proofs.Renderer.Spelling
import Templating.Proofs.Renderer.Unrolling
import Templating.Proofs.Renderer.WellFormed
import Templating.Proofs.Template.DirectiveFree
import Templating.Proofs.Template.Injection
import Templating.Proofs.Template.Noninterference
import Templating.Proofs.Template.Paths
import Templating.Proofs.Template.Reproduction
import Templating.Proofs.Text.Join
import Templating.Proofs.Text.Run
import Templating.Proofs.Text.Slice
import Templating.Proofs.Text.Words
import Templating.Proofs.Value.Equality
import Templating.Registry
import Templating.Renderer.Basic
import Templating.Renderer.Compile
import Templating.Renderer.Reads
import Templating.Renderer.Render
import Templating.Swap
import Templating.Template.Basic
import Templating.Template.Error
import Templating.Text.Blank
import Templating.Text.Split
import Templating.Value.Basic
import Templating.Value.Compact
import Templating.Value.Reader
