import RdmaPlatform.Library.Table
import RdmaPlatform.Library.Bytes
import RdmaPlatform.Library.Decimal
import RdmaPlatform.Library.Counter
import RdmaPlatform.Library.Split
import RdmaPlatform.Library.SortedMap
import RdmaPlatform.Library.Utf8
import RdmaPlatform.Library.Json
import RdmaPlatform.Library.JsonText
import RdmaPlatform.Library.Http
import RdmaPlatform.Library.Transition
import RdmaPlatform.Library.Wakeups
import RdmaPlatform.Library.BoundedQueue
import RdmaPlatform.Library.DropOldest
import RdmaPlatform.Library.Leasing
import RdmaPlatform.Library.Trim
import RdmaPlatform.Library.NumeralOrder
import RdmaPlatform.Library.Positions
import RdmaPlatform.Library.ServedQueue
import RdmaPlatform.Library.Sorting
import RdmaPlatform.Library.ArgMin
import RdmaPlatform.Scheduler.Model
import RdmaPlatform.Scheduler.Dispatch
import RdmaPlatform.Scheduler.Service
import RdmaPlatform.Scheduler.Change
import RdmaPlatform.Scheduler.WellFormed
import RdmaPlatform.Scheduler.Run
import RdmaPlatform.Scheduler.Accounting
import RdmaPlatform.Scheduler.Placement
import RdmaPlatform.Scheduler.Strategy
import RdmaPlatform.Scheduler.Selection
import RdmaPlatform.Scheduler.Balance
import RdmaPlatform.Scheduler.Batching
import RdmaPlatform.Scheduler.Stream
import RdmaPlatform.Scheduler.Lifecycle
import RdmaPlatform.Scheduler.Tables
import RdmaPlatform.Scheduler.Calls
import RdmaPlatform.Scheduler.Observers
import RdmaPlatform.Scheduler.Grpc
import RdmaPlatform.Scheduler.FrontEnds
import RdmaPlatform.Scheduler.Deliverer
import RdmaPlatform.Scheduler.Iteration
import RdmaPlatform.Scheduler.Redelivery
import RdmaPlatform.Scheduler.Concurrent
import RdmaPlatform.Scheduler.Timestamps
import RdmaPlatform.Scheduler.Decode
import RdmaPlatform.Scheduler.Narrowing
import RdmaPlatform.Scheduler.SubmissionOrder
import RdmaPlatform.Scheduler.Router
import RdmaPlatform.Scheduler.Intake
import RdmaPlatform.Scheduler.Submissions
import RdmaPlatform.Rdma.Message
import RdmaPlatform.Rdma.Transport
import RdmaPlatform.Rdma.Delivery
import RdmaPlatform.Rdma.Fifo
import RdmaPlatform.Rdma.Registry
import RdmaPlatform.Rdma.AccessKeys
import RdmaPlatform.Rdma.BufferPool
import RdmaPlatform.Rdma.Withdrawal
import RdmaPlatform.Rdma.Session
import RdmaPlatform.Rdma.ClientServer
import RdmaPlatform.Rdma.Poller
import RdmaPlatform.Worker.Transport
import RdmaPlatform.Worker.SchedulerClient
import RdmaPlatform.Worker.Node
import RdmaPlatform.Worker.Custody
import RdmaPlatform.Worker.Receivers
import RdmaPlatform.Worker.Heartbeats
import RdmaPlatform.Worker.Reception
import RdmaPlatform.Worker.TaskQueue
import RdmaPlatform.Worker.Timer
import RdmaPlatform.Worker.Shutdown
import RdmaPlatform.Worker.Process
import RdmaPlatform.Worker.ThreadPool
import RdmaPlatform.Worker.Draining
import RdmaPlatform.Worker.Config
import RdmaPlatform.Worker.ConfigLayout
import RdmaPlatform.Worker.HttpClient
import RdmaPlatform.Worker.Tensor
import RdmaPlatform.Cluster.System
import RdmaPlatform.Cluster.Capacity
import RdmaPlatform.Cluster.Acceptance
import RdmaPlatform.Cluster.Results
import RdmaPlatform.Cluster.Progress
import RdmaPlatform.Cluster.Rpc
