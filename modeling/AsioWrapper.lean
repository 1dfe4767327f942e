import AsioWrapper.Udp.ClientEffect
import AsioWrapper.Udp.ServerEffect
import AsioWrapper.Udp.CallbackProtocol
import AsioWrapper.Udp.SendBuffer
import AsioWrapper.Udp.Isolation
import AsioWrapper.Udp.ReceiveBuffer
import AsioWrapper.Udp.TimedCalls
import AsioWrapper.Udp.TimedStop
import AsioWrapper.Udp.TimedFrame
import AsioWrapper.Udp.TimedRace
import AsioWrapper.Asio.IoService
import AsioWrapper.Service.Model
import AsioWrapper.Service.Transitions
import AsioWrapper.Service.Lifecycle
import AsioWrapper.Service.Attendance
import AsioWrapper.Service.Workers
import AsioWrapper.Service.Starting
import AsioWrapper.Udp.Ledger
import AsioWrapper.Utils.Uuid
import AsioWrapper.Udp.LedgerRuns
import AsioWrapper.Udp.Statistics
import AsioWrapper.Udp.ServerProtocol
import AsioWrapper.Udp.ResolverConnect
import AsioWrapper.Udp.Neutral
import AsioWrapper.Udp.Resolving
import AsioWrapper.Service.Endpoints
import AsioWrapper.Service.Shutdown
import AsioWrapper.Foundation.Outline
import AsioWrapper.Foundation.Derived
import AsioWrapper.Udp.MulticastClient
import AsioWrapper.Udp.MulticastReceive
import AsioWrapper.Udp.MulticastStop
import AsioWrapper.Asio.HandlerStorage
import AsioWrapper.Foundation.Rotation
import AsioWrapper.Service.RoundRobin
import AsioWrapper.Utils.Memory
import AsioWrapper.Utils.UuidOrder
import AsioWrapper.Utils.UuidParsing
import AsioWrapper.Udp.Watch
import AsioWrapper.Udp.MulticastStart
import AsioWrapper.Udp.ReceiveGrowth
import AsioWrapper.Foundation.Attribution
import AsioWrapper.Udp.SendNotice
import AsioWrapper.Udp.BytesPending
import AsioWrapper.Foundation.Variant
import AsioWrapper.Service.Callbacks
import AsioWrapper.Service.Joining
import AsioWrapper.Service.Returning
import AsioWrapper.Foundation.Blocking
import AsioWrapper.Udp.NestedCalls
import AsioWrapper.Udp.Flags
import AsioWrapper.Udp.HandlerMemory
import AsioWrapper.Foundation.Simulation
import AsioWrapper.Service.Adopted
import AsioWrapper.Service.AdoptedWaits
import AsioWrapper.Service.Deserted
import AsioWrapper.Foundation.Folding
import AsioWrapper.Utils.Sleeping
import AsioWrapper.Utils.UuidHash
import AsioWrapper.Apps.ServerProgram
import AsioWrapper.Apps.ServerRuns
