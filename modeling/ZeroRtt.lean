import ZeroRtt.Lib.Panics
import ZeroRtt.Lib.Interface
import ZeroRtt.Lib.Containers
import ZeroRtt.Lib.Runs
import ZeroRtt.Lib.TwoPhase
import ZeroRtt.Lib.Queues
import ZeroRtt.Lib.SpinLock
import ZeroRtt.Lib.Rings
import ZeroRtt.Lib.Counters
import ZeroRtt.Lib.Ledgers
import ZeroRtt.Api.Types
import ZeroRtt.Api.Quiche
import ZeroRtt.Api.RetryToken
import ZeroRtt.Api.Handshakes
import ZeroRtt.Api.Echo
import ZeroRtt.Poll.Schedule
import ZeroRtt.Poll.Admission
import ZeroRtt.Poll.Agenda
import ZeroRtt.Poll.Conn
import ZeroRtt.Poll.Unlock
import ZeroRtt.Poll.Locking
import ZeroRtt.Poll.LockProtocol
import ZeroRtt.Poll.RetryProtocol
import ZeroRtt.Poll.DeferredClose
import ZeroRtt.Poll.StreamAccept
import ZeroRtt.Poll.Group
import ZeroRtt.Poll.Pacing
import ZeroRtt.Poll.Interleaving
import ZeroRtt.Poll.GuardLifetime
import ZeroRtt.Poll.Covering
import ZeroRtt.Poll.Walks
import ZeroRtt.Poll.Tables
import ZeroRtt.Poll.Operations
import ZeroRtt.Poll.Routing
import ZeroRtt.Poll.ClosedOnce
import ZeroRtt.Poll.Minding
import ZeroRtt.Poll.Chronicle
import ZeroRtt.Poll.Accepting
import ZeroRtt.Poll.Serving
import ZeroRtt.Poll.Recording
import ZeroRtt.Poll.Sequential
import ZeroRtt.Poll.Announcing
import ZeroRtt.Poll.Deliveries
import ZeroRtt.Poll.Faultless
import ZeroRtt.Poll.Steps
import ZeroRtt.Poll.Atomicity
import ZeroRtt.Poll.Reporting
import ZeroRtt.Poll.Noting
import ZeroRtt.Poll.Returning
import ZeroRtt.Poll.Opening
import ZeroRtt.Poll.StreamIds
import ZeroRtt.Ringbuff.RingBuf
import ZeroRtt.Ringbuff.Delivery
import ZeroRtt.Ringbuff.Wakeups
import ZeroRtt.Ringbuff.ZeroCopy
import ZeroRtt.Ringbuff.Guards
import ZeroRtt.Ringbuff.ZeroLength
import ZeroRtt.Futures.Entries
import ZeroRtt.Futures.Waiters
import ZeroRtt.Futures.Stopping
import ZeroRtt.Futures.Residue
import ZeroRtt.Futures.Closing
import ZeroRtt.Futures.Handover
import ZeroRtt.Futures.Layers
import ZeroRtt.Futures.Contention
import ZeroRtt.Futures.Projection
import ZeroRtt.Futures.Shutdown
import ZeroRtt.Mio.Timeouts
import ZeroRtt.Mio.Parking
import ZeroRtt.Mio.Socket
import ZeroRtt.Mio.SendQueue
import ZeroRtt.Mio.Receiving
import ZeroRtt.Mio.Addressing
import ZeroRtt.Mio.Outgoing
import ZeroRtt.Mio.Intake
import ZeroRtt.Mio.Waking
import ZeroRtt.Mio.Admission
import ZeroRtt.Mio.Polling
import ZeroRtt.Mio.Sequential
import ZeroRtt.Mio.Loop
import ZeroRtt.Mio.Staleness
import ZeroRtt.Futures.Arrivals
import ZeroRtt.Futures.Dispatching
import ZeroRtt.Futures.Establishment
import ZeroRtt.Ringbuff.Sharing
import ZeroRtt.Poll.Planning
import ZeroRtt.Mio.Timers
