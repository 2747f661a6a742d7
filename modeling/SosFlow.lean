import SosFlow.Guid.Cluster
import SosFlow.Msg.Framing
import SosFlow.Msg.Cloud
import SosFlow.Pub.Agreement
import SosFlow.Pub.Interleaving
import SosFlow.Pub.LockDiscipline
import SosFlow.Pub.NameMap
import SosFlow.Pub.LatestValue
import SosFlow.Daemon.SnapSharing
import SosFlow.Daemon.AnnounceBuffer
import SosFlow.Daemon.SnapBuffer
import SosFlow.Daemon.Definitions
import SosFlow.Daemon.Delivery
import SosFlow.Daemon.CacheDepth
import SosFlow.Daemon.Replica
import SosFlow.Daemon.FanOut
import SosFlow.Daemon.Trigger
import SosFlow.Daemon.Registry
import SosFlow.Daemon.Topology
import SosFlow.Daemon.SelfSend
import SosFlow.Daemon.QueueCounters
import SosFlow.Database.Snaps
import SosFlow.Database.HandOff
import SosFlow.Database.LatestFrame
import SosFlow.Database.Flush
import SosFlow.Analytics.Results
import SosFlow.Simple.ResultPool
import SosFlow.Guid.Refresh
import SosFlow.Guid.Separators
import SosFlow.Pub.CacheResize
import SosFlow.Daemon.Sensitivity
import SosFlow.Daemon.Registration
import SosFlow.Daemon.CacheRing
import SosFlow.Daemon.PackCopy
import SosFlow.Daemon.PayloadBytes
import SosFlow.Daemon.Malformed
import SosFlow.Buffer.WriteBounds
import SosFlow.Analytics.TableRuns
import SosFlow.Analytics.Manifest
import SosFlow.Analytics.CacheQuery
import SosFlow.Database.StatementTable
import SosFlow.Socket.Send
import SosFlow.Socket.Receive
import SosFlow.Socket.Listen
import SosFlow.Socket.SendLock
import SosFlow.Daemon.LocalSync
import SosFlow.Simple.QueryExec
import SosFlow.Buffer.Pack754
import SosFlow.Pub.PackEnds
import SosFlow.Analytics.OutputJson
import SosFlow.Pipe.Guarantees
import SosFlow.Pipe.Wakeup
import SosFlow.Table.Users
import SosFlow.Daemon.QueryShutdown
