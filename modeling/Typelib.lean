import Typelib.Artifact.Basic
import Typelib.Artifact.Registry
import Typelib.Artifact.Sink
import Typelib.Binary.Directory
import Typelib.Binary.EntryKind
import Typelib.Binary.Header
import Typelib.Binary.Record
import Typelib.Binary.Row.Callable
import Typelib.Binary.Row.Member
import Typelib.Binary.Row.Registered
import Typelib.Binary.Row.TypeBody
import Typelib.Binary.TypeRef
import Typelib.Binary.TypeTag
import Typelib.Binary.Word
import Typelib.Build.Assembly
import Typelib.Build.Bodies
import Typelib.Build.Cell
import Typelib.Build.Draft
import Typelib.Build.Error
import Typelib.Build.Layout
import Typelib.Build.Literal
import Typelib.Build.Options
import Typelib.Build.Queues
import Typelib.Build.Section
import Typelib.Build.Shape
import Typelib.Build.StringPool
import Typelib.Build.SymbolTable
import Typelib.CSource.Lexeme
import Typelib.CSource.Unit
import Typelib.CommandLine.Command
import Typelib.CommandLine.Files
import Typelib.CommandLine.Given
import Typelib.CommandLine.Invocation
import Typelib.CommandLine.Run
import Typelib.CommandLine.Usage
import Typelib.Decimal.Format
import Typelib.Decimal.Literal
import Typelib.Decimal.Power
import Typelib.Decimal.Shortest
import Typelib.Description.Callable
import Typelib.Description.Document
import Typelib.Description.Member
import Typelib.Description.Node
import Typelib.Description.Ty
import Typelib.Image.Basic
import Typelib.Image.Dump
import Typelib.Image.Error
import Typelib.Image.Value
import Typelib.Image.View
import Typelib.Json.Basic
import Typelib.Json.Decode
import Typelib.Json.Meaning
import Typelib.Json.Read
import Typelib.Json.Scan
import Typelib.Json.Skip
import Typelib.Main
import Typelib.Palette
import Typelib.Proofs.Acceptance.Accepted
import Typelib.Proofs.Acceptance.Asks
import Typelib.Proofs.Acceptance.Assembly
import Typelib.Proofs.Acceptance.Cells
import Typelib.Proofs.Acceptance.Clean
import Typelib.Proofs.Acceptance.Document
import Typelib.Proofs.Acceptance.Exact
import Typelib.Proofs.Acceptance.Names
import Typelib.Proofs.Acceptance.References
import Typelib.Proofs.Acceptance.Rows
import Typelib.Proofs.Acceptance.Run
import Typelib.Proofs.Acceptance.Spec
import Typelib.Proofs.Acceptance.Weight
import Typelib.Proofs.Body.Bodies
import Typelib.Proofs.Body.Document
import Typelib.Proofs.Body.Fill
import Typelib.Proofs.Body.Ledger
import Typelib.Proofs.Body.Next
import Typelib.Proofs.Body.Pieces
import Typelib.Proofs.Build.Directory
import Typelib.Proofs.Build.Failing
import Typelib.Proofs.Build.Naming
import Typelib.Proofs.Build.Pool
import Typelib.Proofs.Build.Promise
import Typelib.Proofs.Build.Step
import Typelib.Proofs.Build.Symbols
import Typelib.Proofs.CSource.Array
import Typelib.Proofs.CSource.Comment
import Typelib.Proofs.CSource.Document
import Typelib.Proofs.CSource.Literal
import Typelib.Proofs.CSource.Reading
import Typelib.Proofs.Constant.Display
import Typelib.Proofs.Constant.Integer
import Typelib.Proofs.Constant.Width
import Typelib.Proofs.Decimal.Numeral
import Typelib.Proofs.Directory.Document
import Typelib.Proofs.Directory.Flags
import Typelib.Proofs.Directory.Names
import Typelib.Proofs.Directory.Order
import Typelib.Proofs.Directory.Run
import Typelib.Proofs.Drain.Checked
import Typelib.Proofs.Drain.Finish
import Typelib.Proofs.Drain.Promises
import Typelib.Proofs.Drain.Ready
import Typelib.Proofs.Drain.Rounds
import Typelib.Proofs.Guard.Dump
import Typelib.Proofs.Guard.Endless
import Typelib.Proofs.Guard.Follows
import Typelib.Proofs.Guard.Reader
import Typelib.Proofs.Guard.Rows
import Typelib.Proofs.Guard.Safe
import Typelib.Proofs.Guard.View
import Typelib.Proofs.Image.Assembled
import Typelib.Proofs.Image.Assembly
import Typelib.Proofs.Image.Directory
import Typelib.Proofs.Image.Place
import Typelib.Proofs.Image.Rows
import Typelib.Proofs.Image.Stretch
import Typelib.Proofs.Image.Types
import Typelib.Proofs.Image.Views
import Typelib.Proofs.Layout.Cells
import Typelib.Proofs.Layout.Numbers
import Typelib.Proofs.Layout.Regions
import Typelib.Proofs.Layout.Rows
import Typelib.Proofs.Layout.Spec
import Typelib.Proofs.Listing.Document
import Typelib.Proofs.Listing.Entries
import Typelib.Proofs.Listing.Lookup
import Typelib.Proofs.Listing.Members
import Typelib.Proofs.Listing.Names
import Typelib.Proofs.Listing.Spec
import Typelib.Proofs.Listing.Types
import Typelib.Proofs.Pool.Calls
import Typelib.Proofs.Reading.Document
import Typelib.Proofs.Reading.Entries
import Typelib.Proofs.Reading.Names
import Typelib.Proofs.Reading.RoundTrip
import Typelib.Proofs.Reading.Rows
import Typelib.Proofs.Reading.Spec
import Typelib.Proofs.Reading.Uses
import Typelib.Proofs.Record.Rewriting
import Typelib.Proofs.Sharing.Document
import Typelib.Proofs.Sharing.Exact
import Typelib.Proofs.Sharing.Invariant
import Typelib.Proofs.Sharing.Log
import Typelib.Proofs.Sharing.Moves
import Typelib.Proofs.Symbols.Drafts
import Typelib.Proofs.Symbols.Entities
import Typelib.Proofs.Symbols.Failure
import Typelib.Proofs.Symbols.Own
import Typelib.Proofs.Symbols.Run
import Typelib.Proofs.Text.Cut
import Typelib.Proofs.Twin.Cells
import Typelib.Proofs.Twin.Document
import Typelib.Proofs.Twin.Respelled
import Typelib.Proofs.Twin.Spelling
import Typelib.Proofs.Twin.Steps
import Typelib.Proofs.Twin.Strict
import Typelib.Proofs.Type.Equivalence
import Typelib.Proofs.Type.Text
import Typelib.Proofs.Whole.Document
import Typelib.Proofs.Whole.Legend
import Typelib.Proofs.Whole.Lost
import Typelib.Proofs.Whole.Registration
import Typelib.Proofs.Whole.Run
import Typelib.Proofs.Whole.Steps
import Typelib.Text.Blank
import Typelib.Text.Hex
import Typelib.Text.Lines
import Typelib.Text.Quoted
import Typelib.Text.Utf8
import Typelib.Text.Visible
import Typelib.Proofs.Body.Writes
import Typelib.Proofs.Body.Patches
import Typelib.Proofs.Description.Callable
import Typelib.Proofs.Description.Document
import Typelib.Proofs.Palette.Dump
