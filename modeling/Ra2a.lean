import Ra2a.Types.Alternatives
import Ra2a.Types.Artifacts
import Ra2a.Client.Chunks
import Ra2a.Client.JsonRpc
import Ra2a.Client.Streams
import Ra2a.Client.RestRequests
import Ra2a.Client.Relay
import Ra2a.Client.RpcRelay
import Ra2a.Client.Sessions
import Ra2a.Client.Factory
import Ra2a.Client.Runs
import Ra2a.Client.Transports
import Ra2a.Client.Discovery
import Ra2a.Client.ServiceParams
import Ra2a.Ext.Activator
import Ra2a.Ext.Chains
import Ra2a.Grpc.Hops
import Ra2a.Grpc.Events
import Ra2a.Grpc.Forwarding
import Ra2a.Grpc.Shape
import Ra2a.Server.Dispatch
import Ra2a.Server.Queues
import Ra2a.Server.Linear
import Ra2a.Server.ListQueries
import Ra2a.Server.Handler.Identity
import Ra2a.Server.Handler.Contexts
import Ra2a.Server.Handler.PushConfigs
import Ra2a.Server.Handler.PushListing
import Ra2a.Server.Handler.Losses
import Ra2a.Server.Handler.Canceled
import Ra2a.Server.Handler.Notices
import Ra2a.Server.Handler.Deliveries
import Ra2a.Server.Handler.Leftovers
import Ra2a.Server.Handler.Delivery
import Ra2a.Server.Handler.Progress
import Ra2a.Server.Handler.Isolation
import Ra2a.Server.Tenancy
import Ra2a.Server.Envelope
import Ra2a.Server.Handler.Modes
import Ra2a.Server.Handler.Configuration
import Ra2a.Server.Handler.Record
import Ra2a.Server.Handler.Answer
import Ra2a.Server.Handler.Aborting
import Ra2a.Server.Handler.Routing
import Ra2a.Server.Handler.Updates
import Ra2a.Server.Handler.Origin
import Ra2a.Server.Handler.Streaming
import Ra2a.Server.Handler.Settled
import Ra2a.Server.Handler.ListTasks
import Ra2a.Server.TaskStore.Versions
import Ra2a.Server.TaskStore.Sql
import Ra2a.Server.TaskStore.Equal
