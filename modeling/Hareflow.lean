import Hareflow.Foundations.Machine
import Hareflow.Foundations.GreedyCut
import Hareflow.Foundations.Ledger
import Hareflow.Foundations.Dedup
import Hareflow.Foundations.Scan
import Hareflow.Foundations.Pool
import Hareflow.Foundations.Effect
import Hareflow.Foundations.BoundedQueue
import Hareflow.Foundations.Checkpoint
import Hareflow.Foundations.Monitor
import Hareflow.Foundations.Watchdog
import Hareflow.Foundations.Once
import Hareflow.Exceptions
import Hareflow.Wire.BinaryBuffer
import Hareflow.Wire.PublishCommand
import Hareflow.Wire.Commands
import Hareflow.Wire.StringMap
import Hareflow.Wire.ServerCommands
import Hareflow.Wire.Peer
import Hareflow.Wire.ServerFrame
import Hareflow.Wire.Shape
import Hareflow.Wire.Chunks
import Hareflow.Wire.Decoders
import Hareflow.Task.Reschedulable
import Hareflow.Task.Invocations
import Hareflow.Task.Scheduler
import Hareflow.Task.Quitting
import Hareflow.Task.Reconnection
import Hareflow.Connection.IoContext
import Hareflow.Connection.Reader
import Hareflow.Connection.Outbox
import Hareflow.Connection.Idle
import Hareflow.Client.Publish
import Hareflow.Client.Framing
import Hareflow.Client.Outbound
import Hareflow.Client.Requests
import Hareflow.Client.Lifecycle
import Hareflow.Client.Shutdown
import Hareflow.Client.Heartbeat
import Hareflow.Client.FrameHandlers
import Hareflow.Client.ServerFrames
import Hareflow.Client.Versions
import Hareflow.Client.Handshake
import Hareflow.Client.FrameThread
import Hareflow.Client.Inbound
import Hareflow.Client.Deliver
import Hareflow.Client.Passage
import Hareflow.Client.Refinement
import Hareflow.Environment.Operation
import Hareflow.Environment.Locator
import Hareflow.Environment.SharedScheduler
import Hareflow.Environment.Retry
import Hareflow.Environment.Routing
import Hareflow.Producer.Accumulator
import Hareflow.Producer.Recovery
import Hareflow.Producer.FrameLimit
import Hareflow.Producer.Unconfirmed
import Hareflow.Producer.Machine
import Hareflow.Producer.Refinement
import Hareflow.Producer.Stop
import Hareflow.Producer.Tickets
import Hareflow.Producer.Resolution
import Hareflow.Producer.ExactlyOnce
import Hareflow.Producer.Order
import Hareflow.Producer.Timeout
import Hareflow.Producer.Repeated
import Hareflow.Producer.Permits
import Hareflow.Producer.Buffering
import Hareflow.Producer.Waiting
import Hareflow.Producer.Periodic
import Hareflow.Producer.Restart
import Hareflow.Consumer.Machine
import Hareflow.Consumer.Delivery
import Hareflow.Consumer.Engaged
import Hareflow.Consumer.Persistence
import Hareflow.Consumer.Recovery
import Hareflow.Consumer.Optionals
import Hareflow.Consumer.AutoCursor
import Hareflow.Consumer.Credit
import Hareflow.Consumer.Restart
