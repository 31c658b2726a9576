import DdsAbstract.Lib.Transition
import DdsAbstract.Lib.Locks
import DdsAbstract.Transport.Message
import DdsAbstract.Zenoh.Transport
import DdsAbstract.Zenoh.Steps
import DdsAbstract.Zenoh.Invariant
import DdsAbstract.Zenoh.Locks
import DdsAbstract.Zenoh.LockOrder
import DdsAbstract.Zenoh.Queue
import DdsAbstract.Zenoh.Abandonment
import DdsAbstract.Zenoh.Correlation
import DdsAbstract.ZeroMq.Dealer
import DdsAbstract.ZeroMq.LateReply
import DdsAbstract.Node.Address
import DdsAbstract.Node.Thread
import DdsAbstract.Node.Transport
import DdsAbstract.Node.Core
import DdsAbstract.Node.Lifecycle
import DdsAbstract.Node.Endpoints
import DdsAbstract.Node.Stop
import DdsAbstract.Node.StopSafety
import DdsAbstract.ZeroMq.FrameAlignment
import DdsAbstract.ZeroMq.Node
import DdsAbstract.ZeroMq.Barrier
import DdsAbstract.ZeroMq.Restart
import DdsAbstract.Zenoh.Lifecycle
import DdsAbstract.Zenoh.Restart
import DdsAbstract.Node.Isolation
import DdsAbstract.ZeroMq.ExactlyOnce
import DdsAbstract.Broadcast.System
import DdsAbstract.ZeroMq.Inbox
import DdsAbstract.Zenoh.Running
import DdsAbstract.Zenoh.Drain
import DdsAbstract.Broadcast.Order
import DdsAbstract.Broadcast.Delivery
import DdsAbstract.Python.Binding
import DdsAbstract.Python.Steps
import DdsAbstract.Python.GilSafety
import DdsAbstract.Node.Containment
import DdsAbstract.Zenoh.PendingTable
import DdsAbstract.Transport.Timeout
import DdsAbstract.ZeroMq.HighWaterMark
import DdsAbstract.Lib.Split
import DdsAbstract.Node.AddressGrammar
import DdsAbstract.Node.AddressRules
import DdsAbstract.Zenoh.ClientRequest
import DdsAbstract.Zenoh.FirstEvent
import DdsAbstract.Zenoh.DataRaces
import DdsAbstract.Zenoh.Wakeups
import DdsAbstract.Zenoh.Release
import DdsAbstract.Zenoh.Progress
import DdsAbstract.Lib.Service
import DdsAbstract.Rpc.System
import DdsAbstract.Zenoh.Answers
import DdsAbstract.Rpc.Refinement
import DdsAbstract.Zenoh.Shutdown
import DdsAbstract.ZeroMq.Exchange
import DdsAbstract.ZeroMq.EndToEnd
import DdsAbstract.Node.LoopRefinement
import DdsAbstract.ZeroMq.Shutdown
import DdsAbstract.Zenoh.Worker
import DdsAbstract.ZeroMq.Worker
