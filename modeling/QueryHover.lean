import QueryHover.Command.Basic
import QueryHover.Command.Flag
import QueryHover.Command.HelpText
import QueryHover.Command.Integer
import QueryHover.Command.Path
import QueryHover.Command.Run
import QueryHover.Grammar.Executable
import QueryHover.Grammar.Parser
import QueryHover.Grammar.SyntaxError
import QueryHover.Grammar.Value
import QueryHover.Hover.Answer
import QueryHover.Hover.Candidates
import QueryHover.Hover.Context
import QueryHover.Hover.Entity
import QueryHover.Json.Basic
import QueryHover.Json.Reading
import QueryHover.Main
import QueryHover.Node.Basic
import QueryHover.Node.Chain
import QueryHover.Node.Reading
import QueryHover.Output.Hovering
import QueryHover.Output.NodeEntry
import QueryHover.Output.Refusal
import QueryHover.Output.Renderer
import QueryHover.Proofs.Acceptance
import QueryHover.Proofs.Accesses
import QueryHover.Proofs.Admission
import QueryHover.Proofs.Agreement
import QueryHover.Proofs.Attaching
import QueryHover.Proofs.ByteColumns
import QueryHover.Proofs.ByteOrder
import QueryHover.Proofs.Corrections
import QueryHover.Proofs.Declaring
import QueryHover.Proofs.Degrading
import QueryHover.Proofs.Distances
import QueryHover.Proofs.Edges
import QueryHover.Proofs.Elements
import QueryHover.Proofs.Erasure
import QueryHover.Proofs.FieldTyping
import QueryHover.Proofs.Formats
import QueryHover.Proofs.Fueled
import QueryHover.Proofs.Gaps
import QueryHover.Proofs.Grounding
import QueryHover.Proofs.Growing
import QueryHover.Proofs.Innermost
import QueryHover.Proofs.Joining
import QueryHover.Proofs.Kinds
import QueryHover.Proofs.Layout
import QueryHover.Proofs.Listing
import QueryHover.Proofs.Loading
import QueryHover.Proofs.Lockstep
import QueryHover.Proofs.Lookup
import QueryHover.Proofs.Moving
import QueryHover.Proofs.NameSpans
import QueryHover.Proofs.Naming
import QueryHover.Proofs.Nesting
import QueryHover.Proofs.Phrases
import QueryHover.Proofs.Places
import QueryHover.Proofs.Pointing
import QueryHover.Proofs.Positions
import QueryHover.Proofs.Progress
import QueryHover.Proofs.ReadBack
import QueryHover.Proofs.Safety
import QueryHover.Proofs.Scanning
import QueryHover.Proofs.Scoping
import QueryHover.Proofs.Seam
import QueryHover.Proofs.Sections
import QueryHover.Proofs.Sources
import QueryHover.Proofs.Streams
import QueryHover.Proofs.Surroundings
import QueryHover.Proofs.Taking
import QueryHover.Proofs.TypeReferences
import QueryHover.Proofs.Unbroken
import QueryHover.Proofs.Underlining
import QueryHover.Proofs.ValueTyping
import QueryHover.Proofs.Variables
import QueryHover.Schema.Basic
import QueryHover.Schema.Declaration
import QueryHover.Schema.Load
import QueryHover.Schema.Prelude
import QueryHover.Schema.SchemaError
import QueryHover.Schema.Validation
import QueryHover.Terminal.Fill
import QueryHover.Terminal.Glyph
import QueryHover.Terminal.Pen
import QueryHover.Terminal.Piece
import QueryHover.Terminal.Snippet
import QueryHover.Terminal.Style
import QueryHover.Terminal.Table
import QueryHover.Terminal.Wrap
import QueryHover.Text.Bytes
import QueryHover.Text.Cluster
import QueryHover.Text.ClusterClass
import QueryHover.Text.EditDistance
import QueryHover.Text.Lowercase
import QueryHover.Text.Position
import QueryHover.Text.Printable
import QueryHover.Text.Quoted
import QueryHover.Text.Width
import QueryHover.Token.Basic
import QueryHover.Token.BlockString
import QueryHover.Token.Fault
import QueryHover.Token.Scanner
import QueryHover.Token.Stream
import QueryHover.TypeRef
