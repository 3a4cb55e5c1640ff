import RaftInMotion.Library.Execution
import RaftInMotion.Library.TermLog
import RaftInMotion.Library.Protocol
import RaftInMotion.Library.Agreement
import RaftInMotion.Library.Commitment
import RaftInMotion.Library.Linearization
import RaftInMotion.Library.Ring
import RaftInMotion.Library.Slices
import RaftInMotion.Model.Cluster
import RaftInMotion.Model.Hazards
import RaftInMotion.Model.Turns
import RaftInMotion.Model.Memory
import RaftInMotion.Model.Logs
import RaftInMotion.Model.Incarnations
import RaftInMotion.Model.Instance
import RaftInMotion.Handlers.Insertion
import RaftInMotion.Handlers.Requests
import RaftInMotion.Handlers.Commit
import RaftInMotion.Handlers.Hints
import RaftInMotion.Refinement.Merge
import RaftInMotion.Refinement.Server
import RaftInMotion.Refinement.Replicate
import RaftInMotion.Refinement.Tally
import RaftInMotion.Refinement.Simulation
import RaftInMotion.Refinement.Actions
import RaftInMotion.Refinement.Machine
import RaftInMotion.Safety.Elections
import RaftInMotion.Safety.Replication
import RaftInMotion.Safety.Delivery
import RaftInMotion.Safety.Prefix
import RaftInMotion.Safety.Terms
import RaftInMotion.Safety.Votes
import RaftInMotion.Safety.Recovery
import RaftInMotion.Safety.Bounds
import RaftInMotion.Safety.Roles
import RaftInMotion.Safety.Sorted
import RaftInMotion.Safety.Sharing
import RaftInMotion.Safety.Acknowledgements
import RaftInMotion.Safety.Logging
import RaftInMotion.Safety.Incarnations
import RaftInMotion.Liveness.Convergence
import RaftInMotion.Liveness.Majority
import RaftInMotion.Instance.Moves
import RaftInMotion.Instance.Blocking
import RaftInMotion.Instance.Death
import RaftInMotion.Instance.Channels
import RaftInMotion.Instance.Batches
import RaftInMotion.Instance.Drivers
import RaftInMotion.Service.KVService
import RaftInMotion.Service.Sources
import RaftInMotion.Service.Explanation
import RaftInMotion.Service.Progress
import RaftInMotion.Service.Linearizability
import RaftInMotion.Service.Subscriptions
import RaftInMotion.Service.Answers
import RaftInMotion.Service.Application
import RaftInMotion.Service.Shutdown
import RaftInMotion.Service.Replicas
import RaftInMotion.Service.Sharing
import RaftInMotion.Client.KVClient
import RaftInMotion.Client.Retries
import RaftInMotion.Websocket.Clients
import RaftInMotion.Websocket.Sessions
import RaftInMotion.Logger.MemoryLogger
import RaftInMotion.Frontend.LogsContext
import RaftInMotion.Frontend.Status
import RaftInMotion.Frontend.Queue
import RaftInMotion.Frontend.Stream
import RaftInMotion.Frontend.Display
import RaftInMotion.Frontend.Bars
import RaftInMotion.Frontend.LogsDispatcher
import RaftInMotion.Frontend.Header
import RaftInMotion.Harness.Harness
import RaftInMotion.Harness.Links
import RaftInMotion.Harness.Ports
import RaftInMotion.Harness.SingleLeader
import RaftInMotion.Model.Network
import RaftInMotion.Model.Goroutines
import RaftInMotion.Safety.Isolation
import RaftInMotion.Safety.Leading
import RaftInMotion.Safety.Minority
import RaftInMotion.Safety.Integrity
import RaftInMotion.Model.TimedCluster
import RaftInMotion.Liveness.Reign
import RaftInMotion.Liveness.Timeouts
import RaftInMotion.Liveness.Heartbeats
