import TwelveD.Text.Edit
import TwelveD.Text.Quoted
import TwelveD.Text.Decode
import TwelveD.Tree.Cursor
import TwelveD.Tree.Spacing
import TwelveD.Tree.Declarator
import TwelveD.Tree.Query
import TwelveD.Json.Parser
import TwelveD.Json.Printer
import TwelveD.Names.Completion
import TwelveD.Layout.Document
import TwelveD.Protocol.Frame
import TwelveD.Protocol.Uri
import TwelveD.CommandLine
import TwelveD.Main
import TwelveD.Proofs.LayoutStable
import TwelveD.Proofs.Replies
import TwelveD.Proofs.Documents
import TwelveD.Proofs.Streams
import TwelveD.Proofs.Lifecycle
import TwelveD.Proofs.ForeignDocuments
import TwelveD.Proofs.LayoutEffects
import TwelveD.Proofs.Scopes
import TwelveD.Proofs.DefiningNames
import TwelveD.Proofs.Hovers
import TwelveD.Proofs.VisibleNames
import TwelveD.Proofs.FunctionNames
import TwelveD.Proofs.Segments
import TwelveD.Proofs.CompleteFrames
import TwelveD.Proofs.LayoutPasses
import TwelveD.Proofs.TrimmedRows
import TwelveD.Proofs.Cursors
import TwelveD.Proofs.RowEnds
import TwelveD.Proofs.OfferedNames
import TwelveD.Proofs.Literals
import TwelveD.Proofs.CommandLines
import TwelveD.Proofs.NewNames
import TwelveD.Proofs.Walks
