import GraphGateway.Server
import GraphGateway.Settings.Sources
import GraphGateway.Proofs.Graph.WellFormed
import GraphGateway.Proofs.Graph.Walk
import GraphGateway.Proofs.Json
import GraphGateway.Proofs.Evaluation.Logic
import GraphGateway.Proofs.Evaluation.Effects
import GraphGateway.Proofs.Evaluation.Invariant
import GraphGateway.Proofs.Evaluation.Compose
import GraphGateway.Proofs.Evaluation.Reachable
import GraphGateway.Proofs.Filter.Fields
import GraphGateway.Proofs.Filter.Compile
import GraphGateway.Proofs.Invocation.Window
import GraphGateway.Proofs.Resolver.Pages
import GraphGateway.Proofs.Resolver.PlainLists
import GraphGateway.Proofs.Evaluation.Listing
import GraphGateway.Proofs.Script.Literals
import GraphGateway.Proofs.Script.Calls
import GraphGateway.Proofs.Evaluation.EdgeOrder
import GraphGateway.Proofs.Evaluation.ReadOnly
import GraphGateway.Proofs.Evaluation.Tests
import GraphGateway.Proofs.Filter.Reordering
import GraphGateway.Proofs.Filter.Acceptance
import GraphGateway.Proofs.Filter.Fragments
import GraphGateway.Proofs.Filter.FieldOrder
import GraphGateway.Proofs.Resolver.Submissions
import GraphGateway.Proofs.Dispatch.Batch
import GraphGateway.Proofs.Dispatch.Accounting
import GraphGateway.Proofs.Value.GraphSON
import GraphGateway.Proofs.Value.Identifiers
import GraphGateway.Proofs.Graph.Chronicle
import GraphGateway.Proofs.Graph.Growth
import GraphGateway.Proofs.Graph.IndexOrder
import GraphGateway.Proofs.Graph.Ledger
import GraphGateway.Proofs.Graph.Lookup
import GraphGateway.Proofs.Evaluation.IndexOrder
import GraphGateway.Proofs.Evaluation.Selection
import GraphGateway.Proofs.Filter.Identifiers
import GraphGateway.Proofs.Dispatch.Runs
import GraphGateway.Proofs.Evaluation.Writing
import GraphGateway.Proofs.Evaluation.Emission
import GraphGateway.Proofs.Resolver.NotFound
import GraphGateway.Proofs.Resolver.Reading
import GraphGateway.Proofs.Social.Requests
import GraphGateway.Proofs.Social.State
import GraphGateway.Proofs.Social.Events
import GraphGateway.Proofs.Social.Reachable
import GraphGateway.Proofs.Social.Followers
import GraphGateway.Proofs.Social.Users
import GraphGateway.Proofs.Filter.Registration
import GraphGateway.Proofs.Filter.Faults
import GraphGateway.Proofs.Resolver.Identity
import GraphGateway.Proofs.Social.Ends
import GraphGateway.Proofs.Filter.Agreement
import GraphGateway.Proofs.Evaluation.Hops
import GraphGateway.Proofs.Graph.Renaming
import GraphGateway.Proofs.Evaluation.Renaming
import GraphGateway.Proofs.Graph.Removal
import GraphGateway.Proofs.Evaluation.Removal
import GraphGateway.Proofs.Evaluation.FirstResult
import GraphGateway.Proofs.Script.Strings
import GraphGateway.Proofs.Timestamp.Calendar
import GraphGateway.Proofs.Timestamp.Reading
import GraphGateway.Proofs.Filter.Timestamps
import GraphGateway.Proofs.Value.Untyped
import GraphGateway.Proofs.Value.Containers
import GraphGateway.Proofs.Value.Plain
import GraphGateway.Proofs.Invocation.Presentation
import GraphGateway.Proofs.Invocation.Pagination
import GraphGateway.Proofs.OrderedMap.History
import GraphGateway.Proofs.Value.Order
