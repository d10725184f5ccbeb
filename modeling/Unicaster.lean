import Unicaster.Lib.Lists
import Unicaster.Lib.Lts
import Unicaster.Lib.Refcount
import Unicaster.Lib.CString
import Unicaster.Settings
import Unicaster.PodList
import Unicaster.PodCache
import Unicaster.CacheLedger
import Unicaster.CacheMoves
import Unicaster.CacheRefs
import Unicaster.CacheSteps
import Unicaster.CacheHistory
import Unicaster.Namespace
import Unicaster.Announce
import Unicaster.PodParse
import Unicaster.Lib.CBuffer
import Unicaster.ReadTrimmed
import Unicaster.Lib.Doubling
import Unicaster.Response
import Unicaster.Patterns
import Unicaster.Message
import Unicaster.CacheAge
import Unicaster.Module
import Unicaster.CacheLife
import Unicaster.ModuleSteps
import Unicaster.LifeCycle
import Unicaster.Senders
import Unicaster.Shutdown
import Unicaster.Cleanup
import Unicaster.Port
import Unicaster.Refused
import Unicaster.Interfaces
import Unicaster.Reload
import Unicaster.Lib.Reminder
import Unicaster.Reports
import Unicaster.Retry
import Unicaster.Lib.Monitor
import Unicaster.Closing
import Unicaster.Listed
import Unicaster.Drain
import Unicaster.CacheLock
import Unicaster.CacheAtomic
import Unicaster.Lib.Edges
import Unicaster.SendReports
import Unicaster.ClosingFlag
import Unicaster.Lib.Pace
import Unicaster.Pace
import Unicaster.Pass
import Unicaster.CacheCopy
import Unicaster.Memory
import Unicaster.Recovery
import Unicaster.CacheTwins
import Unicaster.Twins
import Unicaster.TwinRuns
import Unicaster.Datagrams
import Unicaster.LogTruth
import Unicaster.Heartbeat
