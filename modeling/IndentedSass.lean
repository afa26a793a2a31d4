import IndentedSass.Reader.File
import IndentedSass.Tree.Json
import IndentedSass.Printer
import IndentedSass.Format.Document
import IndentedSass.Workspace.Load
import IndentedSass.Server.Rpc
import IndentedSass.Proofs.Format.Conversion
import IndentedSass.Proofs.Format.Idempotence
import IndentedSass.Proofs.Reader.Roundtrip
import IndentedSass.Proofs.Reader.Scoping
import IndentedSass.Proofs.Workspace.History
import IndentedSass.Proofs.Workspace.Nesting
import IndentedSass.Proofs.Line.Clauses
import IndentedSass.Proofs.Reader.Outline
import IndentedSass.Proofs.Tree.Shape
import IndentedSass.Proofs.Reader.Shape
import IndentedSass.Proofs.Reader.SourceOrder
import IndentedSass.Proofs.Workspace.Freshness
import IndentedSass.Proofs.Reader.Alone
import IndentedSass.Proofs.Reader.Reread
import IndentedSass.Proofs.Reader.Rendered
import IndentedSass.Proofs.Reader.Legible
import IndentedSass.Proofs.Reader.Rewritten
import IndentedSass.Proofs.Tree.Codec
import IndentedSass.Proofs.Reader.Comments
import IndentedSass.Proofs.Format.Whitespace
import IndentedSass.Proofs.Line.Columns
import IndentedSass.Proofs.Reader.Missing
import IndentedSass.Proofs.Reader.Squeezed
import IndentedSass.Proofs.Format.Edits
import IndentedSass.Proofs.Server.Mirror
import IndentedSass.Proofs.Format.Layout
import IndentedSass.Proofs.Format.Leaves
import IndentedSass.Proofs.Format.Seen
import IndentedSass.Proofs.Reader.Reports
import IndentedSass.Proofs.Reader.Twins
import IndentedSass.Proofs.Tree.Leading
import IndentedSass.Proofs.Reader.Restored
import IndentedSass.Proofs.Scope.Log
import IndentedSass.Proofs.Workspace.Search
import IndentedSass.Proofs.Printer.Numbering
import IndentedSass.Proofs.Format.Expected
import IndentedSass.Proofs.Reader.Innermost
import IndentedSass.Proofs.Format.Structure
import IndentedSass.Proofs.Format.Agreed
import IndentedSass.Proofs.Reader.Levels
import IndentedSass.Proofs.Format.Kept
import IndentedSass.Proofs.Format.Rules
import IndentedSass.Proofs.Format.Selectors
import IndentedSass.Proofs.Format.Declarations
import IndentedSass.Proofs.Reader.Headers
import IndentedSass.Proofs.Reader.Visible
import IndentedSass.Proofs.Reader.InScope
import IndentedSass.Proofs.Reader.Heads
import IndentedSass.Proofs.Text.Splices
import IndentedSass.Proofs.Indent.Settling
import IndentedSass.Proofs.Format.Reindent
import IndentedSass.Proofs.Line.Declarations
import IndentedSass.Proofs.Reader.Declarations
import IndentedSass.Proofs.Tree.Skeleton
import IndentedSass.Proofs.Reader.Skeleton
