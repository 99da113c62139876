import HeadlessEditor.Change.Merge
import HeadlessEditor.Document.Edit
import HeadlessEditor.Document.Uri
import HeadlessEditor.Inspect
import HeadlessEditor.Markup.NormalForm
import HeadlessEditor.Snippet.Template
import HeadlessEditor.Proofs.Change.Normal
import HeadlessEditor.Proofs.Change.Merge
import HeadlessEditor.Proofs.Change.Mapping
import HeadlessEditor.Proofs.Change.Order
import HeadlessEditor.Proofs.Position.Conversion
import HeadlessEditor.Proofs.Document.Synchrony
import HeadlessEditor.Proofs.Document.Revision
import HeadlessEditor.Proofs.Document.Version
import HeadlessEditor.Proofs.Document.Batch
import HeadlessEditor.Proofs.State.Installation
import HeadlessEditor.Proofs.Assist.Staleness
import HeadlessEditor.Proofs.Assist.Freshness
import HeadlessEditor.Proofs.Protocol.RoundTrip
import HeadlessEditor.Proofs.Snippet.Reading
import HeadlessEditor.Proofs.Snippet.Placeholder
import HeadlessEditor.Proofs.Snippet.Weight
import HeadlessEditor.Proofs.Snippet.Bracing
import HeadlessEditor.Proofs.Snippet.BraceableTree
import HeadlessEditor.Proofs.State.Session
import HeadlessEditor.Proofs.Document.Content
import HeadlessEditor.Proofs.Assist.Extent
import HeadlessEditor.Proofs.State.History
import HeadlessEditor.Proofs.Markup.Html
import HeadlessEditor.Proofs.Change.Canonical
import HeadlessEditor.Proofs.Snippet.Following
import HeadlessEditor.Proofs.State.Navigation
import HeadlessEditor.Proofs.Assist.Policy
import HeadlessEditor.Proofs.Document.LineBreak
import HeadlessEditor.Proofs.Assist.Acceptance
import HeadlessEditor.Proofs.State.Effects
import HeadlessEditor.Proofs.Change.Rebase
import HeadlessEditor.Proofs.Protocol.Rereading
import HeadlessEditor.Proofs.Snippet.Nesting
import HeadlessEditor.Proofs.Assist.Options
import HeadlessEditor.Proofs.Markup.Render
import HeadlessEditor.Proofs.Document.Lines
import HeadlessEditor.Proofs.Snippet.Normalization
