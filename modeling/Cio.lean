import Cio.ReactorCancel
import Cio.ReactorReadPath
import Cio.ProcessOutput
import Cio.TlsPump
import Cio.TlsTransfer
import Cio.SchedulerWakeup
import Cio.ChannelSystem
import Cio.FrameConservation
import Cio.DnsResolve
import Cio.DnsRetry
import Cio.SlotEdges
import Cio.SlabSafety
import Cio.LeaseSafety
import Cio.OperationIncarnation
import Cio.DialCancel
import Cio.ElapsedOperation
import Cio.MutexSafety
import Cio.RWMutexOrder
import Cio.WaitGroupMisuse
import Cio.Once
import Cio.TaskGroupSafety
import Cio.TaskGroupSpawn
import Cio.BufioChunks
import Cio.ScopedTimeout
import Cio.DeadlineExpiry
import Cio.BlockingPoolSafety
import Cio.TimerNode
import Cio.TimerStop
import Cio.TickerReset
import Cio.CancelErr
import Cio.GracefulShutdown
import Cio.TimerPark
import Cio.BufioWriter
import Cio.CompletionEndpoint
import Cio.TlsRole
import Cio.UnixListener
import Cio.TlsOutput
import Cio.NetAddress
import Cio.DeadlineArithmetic
import Cio.ProcessRedirect
import Cio.WorkerBitmap
import Cio.GlobalQueue
import Cio.GlobalFairness
import Cio.TickerDrift
