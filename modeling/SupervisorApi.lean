import SupervisorApi.Client.Roster
import SupervisorApi.Client.Run
import SupervisorApi.Endpoint.Catalog
import SupervisorApi.Envelope.Reader
import SupervisorApi.Error.Template
import SupervisorApi.Main
import SupervisorApi.Model.Catalog
import SupervisorApi.Model.Wire
import SupervisorApi.Proofs.Body.Frames
import SupervisorApi.Proofs.Body.Head
import SupervisorApi.Proofs.Body.Size
import SupervisorApi.Proofs.Body.Stream
import SupervisorApi.Proofs.Body.Upload
import SupervisorApi.Proofs.Client.Classification
import SupervisorApi.Proofs.Client.Deadline
import SupervisorApi.Proofs.Client.Headers
import SupervisorApi.Proofs.Client.Ownership
import SupervisorApi.Proofs.Client.Secrecy
import SupervisorApi.Proofs.Client.Sending
import SupervisorApi.Proofs.Client.Target
import SupervisorApi.Proofs.Client.Trace
import SupervisorApi.Proofs.Endpoint.Calls
import SupervisorApi.Proofs.Endpoint.Changes
import SupervisorApi.Proofs.Endpoint.Containment
import SupervisorApi.Proofs.Endpoint.Jobs
import SupervisorApi.Proofs.Endpoint.Payload
import SupervisorApi.Proofs.Envelope.Layout
import SupervisorApi.Proofs.Envelope.Reader
import SupervisorApi.Proofs.Envelope.RoundTrip
import SupervisorApi.Proofs.Error.Agreement
import SupervisorApi.Proofs.Error.Lookup
import SupervisorApi.Proofs.Error.Mapping
import SupervisorApi.Proofs.Error.Template
import SupervisorApi.Proofs.Http.Query
import SupervisorApi.Proofs.Json.Printed
import SupervisorApi.Proofs.Json.Taken
import SupervisorApi.Proofs.Json.Token
import SupervisorApi.Proofs.Json.Value
import SupervisorApi.Proofs.Model.Amend
import SupervisorApi.Proofs.Model.Compatible
import SupervisorApi.Proofs.Model.Forms
import SupervisorApi.Proofs.Model.Leaf
import SupervisorApi.Proofs.Model.Reading
import SupervisorApi.Proofs.Model.Requests
import SupervisorApi.Proofs.Model.Revised
import SupervisorApi.Proofs.Model.RoundTrip
import SupervisorApi.Proofs.Model.Selection
import SupervisorApi.Proofs.Model.Shows
import SupervisorApi.Proofs.Model.Sound
import SupervisorApi.Proofs.Net.Address
import SupervisorApi.Proofs.Path.Normal
import SupervisorApi.Proofs.Path.Segments
import SupervisorApi.Proofs.Program.Download
import SupervisorApi.Proofs.Program.Upload
import SupervisorApi.Proofs.Text.Digits
import SupervisorApi.Proofs.Text.Percent
import SupervisorApi.Proofs.Text.Utf8
import SupervisorApi.Proofs.Timestamp.Canonical
import SupervisorApi.Proofs.Timestamp.Printed
import SupervisorApi.Proofs.Uri.Parts
