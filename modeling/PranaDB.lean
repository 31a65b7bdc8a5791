import PranaDB.Lib.Lex
import PranaDB.Lib.BigEndian
import PranaDB.Lib.KVStore
import PranaDB.Lib.ExceptRun
import PranaDB.Lib.Dedup
import PranaDB.Lib.BinaryHeap
import PranaDB.Common.MyDecimal
import PranaDB.Common.Types
import PranaDB.Common.TimePacking
import PranaDB.Common.Encoding
import PranaDB.Common.StringKeyEncoding
import PranaDB.Common.StringKeyOrder
import PranaDB.Common.KeyEncoding
import PranaDB.Common.KeyOrder
import PranaDB.Common.KeyDecoding
import PranaDB.Table.Keys
import PranaDB.Pull.ScanRanges
import PranaDB.Lib.RangeScan
import PranaDB.Pull.TableScan
import PranaDB.Cluster.WriteBatch
import PranaDB.Cluster.LocalWrite
import PranaDB.Cluster.ShardStateMachine
import PranaDB.Cluster.Locks
import PranaDB.Common.RowEncoding
import PranaDB.Cluster.Sequences
import PranaDB.Push.Reaper
import PranaDB.Push.Codec
import PranaDB.Cluster.ShardLeader
import PranaDB.Cluster.Proposals
import PranaDB.Cluster.ForwardDedup
import PranaDB.Cluster.ShardRuns
import PranaDB.Push.Scheduler
import PranaDB.Cluster.Coalesce
import PranaDB.Push.SchedulerRuns
import PranaDB.Push.SchedulerDrain
import PranaDB.Push.ReaperRun
import PranaDB.Push.InitialState
import PranaDB.Lib.StableSort
import PranaDB.Pull.Sort
import PranaDB.Command.Selector
import PranaDB.Lib.Strconv
import PranaDB.Push.TypeCoercer
import PranaDB.Pull.RemoteExecutor
import PranaDB.Push.ReceiveBatch
import PranaDB.Push.TableExec
import PranaDB.Push.Aggregator
import PranaDB.Push.Sink
import PranaDB.Push.Operators
import PranaDB.Lib.UndoLog
import PranaDB.Shardlb.Rebalancer
import PranaDB.Shardlb.RebalancerRuns
import PranaDB.Lib.Reassembly
import PranaDB.Remoting.ClusterMessage
import PranaDB.Remoting.Framing
import PranaDB.Remoting.Connection
import PranaDB.Lib.Chan
import PranaDB.Remoting.Client
