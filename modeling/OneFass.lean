import OneFass.Shared.OrderedMap
import OneFass.Shared.Handles
import OneFass.Shared.OwnedMap
import OneFass.Shared.Machine
import OneFass.Shared.BinaryRounding
import OneFass.Shared.ExactPower
import OneFass.Shared.FloatFormat
import OneFass.Shared.Search
import OneFass.Shared.Runtime
import OneFass.Shared.Decimal
import OneFass.Shared.FloatText
import OneFass.Shared.Delimited
import OneFass.Shared.LineProtocol
import OneFass.Xml.Node
import OneFass.Xml.VMObject
import OneFass.Client.XmlRpc
import OneFass.Rpcm.Request
import OneFass.Rpcm.OneProxy
import OneFass.Rpcm.Transparency
import OneFass.Xml.Splice
import OneFass.Xml.Markup
import OneFass.Xml.VMPool
import OneFass.Pm.User
import OneFass.Xml.AcctPool
import OneFass.Xml.ObjectXML
import OneFass.Xml.EvalUsage
import OneFass.Xml.Integral
import OneFass.Xml.Grouping
import OneFass.Xml.FloatUsage
import OneFass.Xml.Fetch
import OneFass.Pm.BasicPlugin
import OneFass.Pm.PriorityManager
import OneFass.Pm.Queue
import OneFass.Pm.Cycle
import OneFass.Pm.HalfLife
import OneFass.Pm.FloatHalfLife
import OneFass.Pm.TotalUsage
import OneFass.Pm.Normalisation
import OneFass.Pm.Defined
import OneFass.Pm.Complete
import OneFass.Pm.Dummy
import OneFass.Pm.Window
import OneFass.Database.InfluxDb
import OneFass.Database.UsageLines
import OneFass.Database.HttpQuery
import OneFass.Pm.FailedFetch
import OneFass.Terminator.Kill
import OneFass.Terminator.Threads
import OneFass.Terminator.Snapshot
import OneFass.Terminator.Lock
import OneFass.Terminator.Calls
import OneFass.Terminator.Sequential
import OneFass.Terminator.Running
import OneFass.Terminator.Pending
import OneFass.Terminator.Expiry
import OneFass.Xml.Priorities
import OneFass.Xml.PriorityEdit
import OneFass.Xml.PriorityPlaces
import OneFass.Xml.Reread
import OneFass.Xml.Ownership
import OneFass.Config.Shares
import OneFass.Rpcm.Failures
import OneFass.Rpcm.Registry
import OneFass.Rpcm.Server
import OneFass.Rpcm.CallLog
import OneFass.Config.Records
import OneFass.Config.InitialShares
import OneFass.Config.Loading
import OneFass.Pm.Precedence
import OneFass.Pm.LessUsage
import OneFass.Pm.Periods
import OneFass.Manager.Loop
import OneFass.Manager.Stop
import OneFass.Fass.Start
import OneFass.Fass.Existence
import OneFass.Pm.Republished
import OneFass.Pm.Restart
import OneFass.Fass.Daemon
import OneFass.Fass.Service
import OneFass.Logger.FileLog
import OneFass.Database.Requests
import OneFass.Database.Verdict
import OneFass.Config.Recorded
import OneFass.Terminator.Atomic
import OneFass.Terminator.Monitoring
import OneFass.Shared.Http
import OneFass.Pm.Accounted
