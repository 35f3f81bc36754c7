import Inlay.Cache
import Inlay.Command.Builtin
import Inlay.Command.Chain
import Inlay.Command.Fetch
import Inlay.Command.Handler
import Inlay.Command.Recipe
import Inlay.Command.Registry
import Inlay.Command.Value
import Inlay.CommandLine.Arguments
import Inlay.CommandLine.Run
import Inlay.Disk
import Inlay.Document.Basic
import Inlay.Document.Error
import Inlay.Document.Fetching
import Inlay.Document.Phase
import Inlay.Document.Script
import Inlay.Document.Settlement
import Inlay.Document.Slots
import Inlay.Document.Task
import Inlay.Document.Tokenization
import Inlay.Encoding
import Inlay.Loading
import Inlay.Main
import Inlay.Markup.Attribute
import Inlay.Markup.Candidate
import Inlay.Markup.Entity
import Inlay.Markup.Position
import Inlay.Markup.Tag
import Inlay.Number.Binary64
import Inlay.Number.Reading
import Inlay.Number.Shortest
import Inlay.Path
import Inlay.Proofs.Command.Chain
import Inlay.Proofs.Command.References
import Inlay.Proofs.Command.Rooted
import Inlay.Proofs.Command.Route
import Inlay.Proofs.CommandLine.Output
import Inlay.Proofs.Files.Caching
import Inlay.Proofs.Files.Places
import Inlay.Proofs.Files.Recall
import Inlay.Proofs.Files.Transcoding
import Inlay.Proofs.Inserts.Delivery
import Inlay.Proofs.Inserts.Isolation
import Inlay.Proofs.Inserts.Order
import Inlay.Proofs.Markup.Acceptance
import Inlay.Proofs.Markup.Decoding
import Inlay.Proofs.Markup.Grammar
import Inlay.Proofs.Markup.Offsets
import Inlay.Proofs.Markup.Quotation
import Inlay.Proofs.Markup.TagEnd
import Inlay.Proofs.Number.Nearest
import Inlay.Proofs.Session.ByHand
import Inlay.Proofs.Session.Calls
import Inlay.Proofs.Session.Cancellation
import Inlay.Proofs.Session.Completion
import Inlay.Proofs.Session.Draining
import Inlay.Proofs.Session.Failure
import Inlay.Proofs.Session.Handles
import Inlay.Proofs.Session.Inclusion
import Inlay.Proofs.Session.Nesting
import Inlay.Proofs.Session.Passage
import Inlay.Proofs.Session.Passthrough
import Inlay.Proofs.Session.Progress
import Inlay.Proofs.Session.Revision
import Inlay.Proofs.Session.Termination
import Inlay.Proofs.Session.Turns
import Inlay.Proofs.Settings.Discovery
import Inlay.Proofs.Settings.Lookup
import Inlay.Proofs.Settings.Markers
import Inlay.Proofs.Settings.Precedence
import Inlay.Proofs.Source.Kept
import Inlay.Proofs.Source.Keys
import Inlay.Proofs.Source.Leftover
import Inlay.Proofs.Source.Outline
import Inlay.Proofs.Source.Page
import Inlay.Proofs.Source.Partition
import Inlay.Proofs.Source.Search
import Inlay.Proofs.Source.Template
import Inlay.Session.Basic
import Inlay.Session.Drive
import Inlay.Settings.Basic
import Inlay.Settings.Constant
import Inlay.Settings.Expansion
import Inlay.Settings.Reading
import Inlay.Text.Alphanumeric
import Inlay.Text.Blank
import Inlay.Text.Printable
import Inlay.Text.Quoted
import Inlay.Toml.Digit
import Inlay.Toml.Moment
import Inlay.Toml.Reader
import Inlay.Toml.Scalar
import Inlay.Toml.Text
import Inlay.Toml.Tree
import Inlay.Toml.Value
