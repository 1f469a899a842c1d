import ClusterMesh.Cluster.Group
import ClusterMesh.Cluster.Node
import ClusterMesh.Collection.KeyedList
import ClusterMesh.Config.Ini
import ClusterMesh.Config.Library
import ClusterMesh.Config.MeshConfig
import ClusterMesh.Config.Path
import ClusterMesh.Config.Setting
import ClusterMesh.Config.Source
import ClusterMesh.Config.Toml.Document
import ClusterMesh.Config.Toml.Value
import ClusterMesh.Config.Typed
import ClusterMesh.Config.Variable
import ClusterMesh.Config.Yaml.Document
import ClusterMesh.Config.Yaml.Scalar
import ClusterMesh.Dispatch.Dispatcher
import ClusterMesh.Error
import ClusterMesh.Execution.Outcome
import ClusterMesh.Execution.Pending
import ClusterMesh.Execution.Results
import ClusterMesh.Execution.Store
import ClusterMesh.Handler.Basic
import ClusterMesh.Handler.Registry
import ClusterMesh.Json.Basic
import ClusterMesh.Json.Parser
import ClusterMesh.Json.Printer
import ClusterMesh.Json.Record
import ClusterMesh.Log.Record
import ClusterMesh.Merge.Replicated
import ClusterMesh.Mesh.Basic
import ClusterMesh.Mesh.Calling
import ClusterMesh.Mesh.Control
import ClusterMesh.Mesh.Describe
import ClusterMesh.Mesh.Dispatching
import ClusterMesh.Mesh.Handling
import ClusterMesh.Mesh.Run
import ClusterMesh.Mesh.Setup
import ClusterMesh.Mesh.Station
import ClusterMesh.Message.Basic
import ClusterMesh.Message.Identifier
import ClusterMesh.Message.Timestamp
import ClusterMesh.Number.Binary64
import ClusterMesh.Number.DecimalText
import ClusterMesh.Number.Digits
import ClusterMesh.Policy.Access
import ClusterMesh.Policy.Expression
import ClusterMesh.Policy.Wildcard
import ClusterMesh.Properties
import ClusterMesh.Schedule.Agenda
import ClusterMesh.Schedule.Machine
import ClusterMesh.Switch
import ClusterMesh.Sync.Round
import ClusterMesh.Sync.Runner
import ClusterMesh.Text.Blank
import ClusterMesh.Text.LetterCase
import ClusterMesh.Text.Pieces
import ClusterMesh.Text.Quoted
import ClusterMesh.Transport.Bus
import ClusterMesh.Wire.Cluster
import ClusterMesh.Wire.Config
import ClusterMesh.Wire.Message
import ClusterMesh.Wire.Replicated
import ClusterMesh.Proofs.Cluster.Membership
import ClusterMesh.Proofs.Cluster.Roster
import ClusterMesh.Proofs.Config.Entries
import ClusterMesh.Proofs.Config.Layers
import ClusterMesh.Proofs.Config.Library
import ClusterMesh.Proofs.Config.Loading
import ClusterMesh.Proofs.Config.Overriding
import ClusterMesh.Proofs.Config.Paths
import ClusterMesh.Proofs.Config.Properties
import ClusterMesh.Proofs.Config.Spelling
import ClusterMesh.Proofs.Config.Trees
import ClusterMesh.Proofs.Delivery.Awaited
import ClusterMesh.Proofs.Delivery.Errand
import ClusterMesh.Proofs.Delivery.Hearing
import ClusterMesh.Proofs.Delivery.Inbox
import ClusterMesh.Proofs.Delivery.Listening
import ClusterMesh.Proofs.Delivery.Replying
import ClusterMesh.Proofs.Delivery.Schedule
import ClusterMesh.Proofs.Delivery.Sparing
import ClusterMesh.Proofs.Delivery.Waiting
import ClusterMesh.Proofs.Dispatch.Attained
import ClusterMesh.Proofs.Dispatch.Balance
import ClusterMesh.Proofs.Dispatch.Custody
import ClusterMesh.Proofs.Dispatch.Docket
import ClusterMesh.Proofs.Dispatch.Duty
import ClusterMesh.Proofs.Dispatch.Ending
import ClusterMesh.Proofs.Dispatch.Fates
import ClusterMesh.Proofs.Dispatch.Frames
import ClusterMesh.Proofs.Dispatch.Gates
import ClusterMesh.Proofs.Dispatch.Loops
import ClusterMesh.Proofs.Dispatch.Order
import ClusterMesh.Proofs.Dispatch.Passage
import ClusterMesh.Proofs.Dispatch.Polling
import ClusterMesh.Proofs.Dispatch.Queueing
import ClusterMesh.Proofs.Dispatch.Reading
import ClusterMesh.Proofs.Dispatch.Rounds
import ClusterMesh.Proofs.Dispatch.Seeking
import ClusterMesh.Proofs.Dispatch.Shifts
import ClusterMesh.Proofs.Dispatch.Solitary
import ClusterMesh.Proofs.Dispatch.Standing
import ClusterMesh.Proofs.Dispatch.Tally
import ClusterMesh.Proofs.Dispatch.Tending
import ClusterMesh.Proofs.Dispatch.Timing
import ClusterMesh.Proofs.Dispatch.Trail
import ClusterMesh.Proofs.Execution.Accounts
import ClusterMesh.Proofs.Execution.Collected
import ClusterMesh.Proofs.Execution.Completion
import ClusterMesh.Proofs.Execution.Entries
import ClusterMesh.Proofs.Execution.Independence
import ClusterMesh.Proofs.Execution.Transactions
import ClusterMesh.Proofs.Handler.Binding
import ClusterMesh.Proofs.Handler.Managing
import ClusterMesh.Proofs.Handler.Statuses
import ClusterMesh.Proofs.Json.Settled
import ClusterMesh.Proofs.Merge.Convergence
import ClusterMesh.Proofs.Merge.Encoding
import ClusterMesh.Proofs.Merge.Monoid
import ClusterMesh.Proofs.Merge.Redelivery
import ClusterMesh.Proofs.Merge.Tagged
import ClusterMesh.Proofs.Merge.Texts
import ClusterMesh.Proofs.Mesh.Answered
import ClusterMesh.Proofs.Mesh.Completing
import ClusterMesh.Proofs.Mesh.Enrolment
import ClusterMesh.Proofs.Mesh.Failing
import ClusterMesh.Proofs.Mesh.Ledger
import ClusterMesh.Proofs.Mesh.Lifecycle
import ClusterMesh.Proofs.Mesh.Moves
import ClusterMesh.Proofs.Mesh.Outcomes
import ClusterMesh.Proofs.Mesh.Preservation
import ClusterMesh.Proofs.Mesh.Reached
import ClusterMesh.Proofs.Mesh.Return
import ClusterMesh.Proofs.Mesh.Serving
import ClusterMesh.Proofs.Mesh.Step
import ClusterMesh.Proofs.Mesh.Turns
import ClusterMesh.Proofs.Mesh.Upkeep
import ClusterMesh.Proofs.Mesh.Views
import ClusterMesh.Proofs.Message.Times
import ClusterMesh.Proofs.Policy.Chain
import ClusterMesh.Proofs.Policy.Decision
import ClusterMesh.Proofs.Policy.Expressions
import ClusterMesh.Proofs.Policy.Inheritance
import ClusterMesh.Proofs.Policy.Matching
import ClusterMesh.Proofs.Policy.Separation
import ClusterMesh.Proofs.Policy.Switching
import ClusterMesh.Proofs.Policy.Toggling
import ClusterMesh.Proofs.Sync.Settling
import ClusterMesh.Proofs.Sync.Tasks
import ClusterMesh.Proofs.Text.Listed
import ClusterMesh.Proofs.Text.SmallLetters
import ClusterMesh.Proofs.Traffic.Calm
import ClusterMesh.Proofs.Traffic.Flow
import ClusterMesh.Proofs.Traffic.Origin
import ClusterMesh.Proofs.Traffic.Permits
import ClusterMesh.Proofs.Wire.Records
import ClusterMesh.Proofs.Wire.RoundTrip
