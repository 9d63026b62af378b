import TypedClient.Main
import TypedClient.Workspace
import TypedClient.Proofs.Synthesis.Order
import TypedClient.Proofs.Termination
import TypedClient.Proofs.Extraction.Environment
import TypedClient.Proofs.TypeExpr.Same
import TypedClient.Proofs.Client.Conflict
import TypedClient.Proofs.Json.Members
import TypedClient.Proofs.Merge
import TypedClient.Proofs.Naming
import TypedClient.Proofs.Naming.Identifiers
import TypedClient.Proofs.Client.Exports
import TypedClient.Proofs.Synthesis.Undocumented
import TypedClient.Proofs.Client.Undocumented
import TypedClient.Proofs.TypeExpr.Comments
import TypedClient.Proofs.Client.Comments
import TypedClient.Proofs.Loading
import TypedClient.Proofs.Extraction.Components
import TypedClient.Proofs.Synthesis.Failure
import TypedClient.Proofs.Document.Order
import TypedClient.Proofs.Document.Reordered
import TypedClient.Proofs.Extraction.Lookup
import TypedClient.Proofs.Synthesis.Independence
import TypedClient.Proofs.Extraction.Written
import TypedClient.Proofs.Extraction.PathOrder
import TypedClient.Proofs.Text
import TypedClient.Proofs.Pointer
import TypedClient.Proofs.Document.References
import TypedClient.Proofs.Extraction.Unresolved
import TypedClient.Proofs.Extraction.SchemaNames
import TypedClient.Proofs.Merge.Grouping
import TypedClient.Proofs.Client.Reserved
import TypedClient.Proofs.Registry.History
import TypedClient.Proofs.TypeExpr.Alias
import TypedClient.Proofs.Extraction.Alias
import TypedClient.Proofs.TypeExpr.Reader
import TypedClient.Proofs.Synthesis.Discriminator
import TypedClient.Proofs.Client.Address
import TypedClient.Proofs.Synthesis.Fields
import TypedClient.Proofs.Client.Fields
import TypedClient.Proofs.Distinct
import TypedClient.Proofs.Reference.Chain
import TypedClient.Proofs.Extraction.Parameters
import TypedClient.Proofs.Synthesis.Object
import TypedClient.Proofs.Schema.Annotation
import TypedClient.Proofs.Extraction.Authentication
import TypedClient.Proofs.Text.Joined
import TypedClient.Proofs.Text.Comment.Lines
import TypedClient.Proofs.Markup
import TypedClient.Proofs.Client.Templates
import TypedClient.Proofs.Client.Sections
import TypedClient.Proofs.Media
import TypedClient.Proofs.Client.Encoding
import TypedClient.Proofs.Yaml.Conversion
import TypedClient.Proofs.Yaml.Reading
