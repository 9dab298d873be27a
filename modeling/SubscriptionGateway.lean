import SubscriptionGateway.Administration.Invocation
import SubscriptionGateway.Administration.Run
import SubscriptionGateway.Settings.Basic
import SubscriptionGateway.Broker.Connection
import SubscriptionGateway.Broker.Error
import SubscriptionGateway.Broker.Hub
import SubscriptionGateway.Broker.Receiver
import SubscriptionGateway.Broker.Retry
import SubscriptionGateway.Broker.Server
import SubscriptionGateway.Broker.StreamName
import SubscriptionGateway.Broker.Timeline
import SubscriptionGateway.CommandLine.Options
import SubscriptionGateway.Engine.Action
import SubscriptionGateway.Engine.Counters
import SubscriptionGateway.Engine.Machine
import SubscriptionGateway.Engine.State
import SubscriptionGateway.Entity.Resolver
import SubscriptionGateway.Entity.Source
import SubscriptionGateway.Event.Field
import SubscriptionGateway.Event.SourceKey
import SubscriptionGateway.Event.Topic
import SubscriptionGateway.Fault
import SubscriptionGateway.GraphQL.Document
import SubscriptionGateway.GraphQL.Flattening
import SubscriptionGateway.GraphQL.Grammar
import SubscriptionGateway.GraphQL.Lexical
import SubscriptionGateway.GraphQL.Selection
import SubscriptionGateway.GraphQL.Variables
import SubscriptionGateway.Json.Basic
import SubscriptionGateway.Json.Numeral
import SubscriptionGateway.Json.Reader
import SubscriptionGateway.Json.Record
import SubscriptionGateway.Json.Writer
import SubscriptionGateway.Log.Filter
import SubscriptionGateway.Log.Line
import SubscriptionGateway.Main
import SubscriptionGateway.Number.Binary64
import SubscriptionGateway.Number.Double
import SubscriptionGateway.Reply.Frame
import SubscriptionGateway.Resolution.Event
import SubscriptionGateway.Resolution.Projection
import SubscriptionGateway.Scheduling.Machine
import SubscriptionGateway.Server.Action
import SubscriptionGateway.Server.Address
import SubscriptionGateway.Server.Calls
import SubscriptionGateway.Server.Construction
import SubscriptionGateway.Server.EventStream
import SubscriptionGateway.Server.Program
import SubscriptionGateway.Server.State
import SubscriptionGateway.Server.Target
import SubscriptionGateway.Server.Wire
import SubscriptionGateway.Settings.EnvironmentFile
import SubscriptionGateway.Settings.Loading
import SubscriptionGateway.Settings.Layer
import SubscriptionGateway.Settings.Setting
import SubscriptionGateway.Settings.Shape
import SubscriptionGateway.Subscription.Catalog
import SubscriptionGateway.Subscription.Lifecycle
import SubscriptionGateway.Subscription.Operation
import SubscriptionGateway.Subscription.Request
import SubscriptionGateway.Text.Blank
import SubscriptionGateway.Text.CharacterClass
import SubscriptionGateway.Text.LetterCase
import SubscriptionGateway.Text.Utf8
import SubscriptionGateway.WebSocket.Message
import SubscriptionGateway.WebSocket.Readiness
import SubscriptionGateway.WebSocket.Session
import SubscriptionGateway.Yaml.Block
import SubscriptionGateway.Yaml.Cursor
import SubscriptionGateway.Yaml.Document
import SubscriptionGateway.Yaml.Plain
import SubscriptionGateway.Yaml.Quoted
import SubscriptionGateway.Yaml.Scalar
import SubscriptionGateway.Yaml.Token
import SubscriptionGateway.Yaml.Tokens
import SubscriptionGateway.Proofs.Engine.Consumers
import SubscriptionGateway.Proofs.Engine.Delivery
import SubscriptionGateway.Proofs.GraphQL.Kept
import SubscriptionGateway.Proofs.Resolution.NonNull
import SubscriptionGateway.Proofs.Engine.Calls
import SubscriptionGateway.Proofs.Engine.Tally
import SubscriptionGateway.Proofs.Engine.Order
import SubscriptionGateway.Proofs.Engine.Shutdown
import SubscriptionGateway.Proofs.Engine.Records
import SubscriptionGateway.Proofs.Engine.Chains
import SubscriptionGateway.Proofs.Engine.LastWords
import SubscriptionGateway.Proofs.Engine.Attempts
import SubscriptionGateway.Proofs.Engine.Denial
import SubscriptionGateway.Proofs.Engine.Alone
import SubscriptionGateway.Proofs.Engine.Reckoning
import SubscriptionGateway.Proofs.Engine.Routing
import SubscriptionGateway.Proofs.Engine.Reuse
import SubscriptionGateway.Proofs.Server.Play
import SubscriptionGateway.Proofs.Server.Within
import SubscriptionGateway.Proofs.Engine.Owners
import SubscriptionGateway.Proofs.Server.Clients
import SubscriptionGateway.Proofs.Server.Readers
import SubscriptionGateway.Proofs.Engine.Queues
import SubscriptionGateway.Proofs.Server.Writers
import SubscriptionGateway.Proofs.Server.Closing
import SubscriptionGateway.Proofs.Server.Grammar
import SubscriptionGateway.Proofs.Engine.InFlight
import SubscriptionGateway.Proofs.Engine.Isolation
import SubscriptionGateway.Proofs.Resolution.Unseen
import SubscriptionGateway.Proofs.Resolution.Completion
import SubscriptionGateway.Proofs.Resolution.Interchange
import SubscriptionGateway.Proofs.Broker.Coverage
import SubscriptionGateway.Proofs.Broker.Delivery
import SubscriptionGateway.Proofs.Broker.Streams
import SubscriptionGateway.Proofs.WebSocket.Waiting
import SubscriptionGateway.Proofs.Broker.Hearing
import SubscriptionGateway.Proofs.Broker.Subjects
import SubscriptionGateway.Proofs.Subscription.Topics
import SubscriptionGateway.Proofs.WebSocket.Codec
import SubscriptionGateway.Proofs.Server.Concealment
import SubscriptionGateway.Proofs.Server.EventStreams
import SubscriptionGateway.Proofs.Event.Templates
import SubscriptionGateway.Proofs.Subscription.Arguments
import SubscriptionGateway.Proofs.Subscription.Rendering
import SubscriptionGateway.Proofs.Text.Order
import SubscriptionGateway.Proofs.Subscription.Sharing
import SubscriptionGateway.Proofs.Resolution.Fetching
import SubscriptionGateway.Proofs.Engine.Rolls
import SubscriptionGateway.Proofs.Server.Turns
import SubscriptionGateway.Proofs.Engine.Locks
import SubscriptionGateway.Proofs.Server.Places
import SubscriptionGateway.Proofs.Server.Progress
import SubscriptionGateway.Proofs.Server.Subscribing
import SubscriptionGateway.Proofs.Engine.Permits
import SubscriptionGateway.Proofs.Engine.Summons
import SubscriptionGateway.Proofs.Engine.Breakdowns
import SubscriptionGateway.Proofs.Server.Dropped
import SubscriptionGateway.Proofs.Server.Reasons
import SubscriptionGateway.Proofs.Server.Sockets
import SubscriptionGateway.Proofs.Server.Accepted
import SubscriptionGateway.Proofs.Broker.Laps
import SubscriptionGateway.Proofs.Broker.Retries
import SubscriptionGateway.Proofs.Broker.Subscriptions
import SubscriptionGateway.Proofs.Engine.Clock
import SubscriptionGateway.Proofs.Engine.Handover
import SubscriptionGateway.Proofs.Engine.Grace
import SubscriptionGateway.Proofs.Server.Construction
