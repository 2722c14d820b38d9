import NetworkMonitoring.Foundations.CText
import NetworkMonitoring.Foundations.ErrorLoops
import NetworkMonitoring.Foundations.FilledTable
import NetworkMonitoring.Foundations.FueledLoops
import NetworkMonitoring.Foundations.InetText
import NetworkMonitoring.Foundations.LittleEndian
import NetworkMonitoring.Foundations.OrderedSet
import NetworkMonitoring.Softflowd.Runs
import NetworkMonitoring.Softflowd.MonitorTables
import NetworkMonitoring.Softflowd.MonitorAccounts
import NetworkMonitoring.Softflowd.MonitorBounds
import NetworkMonitoring.Softflowd.MonitorExport
import NetworkMonitoring.Flowd.NetFlow5
import NetworkMonitoring.Flowd.NetFlow7
import NetworkMonitoring.Pipeline.CaptureAgreement
import NetworkMonitoring.Pipeline.NetFlow5
import NetworkMonitoring.Nsp.Packet
import NetworkMonitoring.Pipeline.EmulatorMessage
import NetworkMonitoring.Foundations.ByteBuffer
import NetworkMonitoring.Softflowd.NetFlow9
import NetworkMonitoring.Softflowd.NetFlow9Packets
import NetworkMonitoring.Softflowd.NetFlow9Export
import NetworkMonitoring.Flowd.NetFlow9
import NetworkMonitoring.Flowd.NetFlow9Decode
import NetworkMonitoring.Flowd.NetFlow9Loops
import NetworkMonitoring.Flowd.TemplateStore
import NetworkMonitoring.Flowd.NetFlow9Calls
import NetworkMonitoring.Flowd.PeerTable
import NetworkMonitoring.Flowd.Receive
import NetworkMonitoring.Flowd.Authorisation
import NetworkMonitoring.Flowd.Formats
import NetworkMonitoring.Flowd.Decoders
import NetworkMonitoring.Foundations.OptionalFields
import NetworkMonitoring.Flowd.Crc32
import NetworkMonitoring.Flowd.StoreFields
import NetworkMonitoring.Flowd.StoreLog
import NetworkMonitoring.Flowd.StoreRecords
import NetworkMonitoring.Flowd.StoreReaders
import NetworkMonitoring.Flowd.StoreReadBack
import NetworkMonitoring.Flowd.StoreBounds
import NetworkMonitoring.Flowd.StoreVersions
import NetworkMonitoring.Flowd.StoreAgreement
import NetworkMonitoring.Flowd.OutputQueue
import NetworkMonitoring.Flowd.NetFlow9Reads
import NetworkMonitoring.Pipeline.NetFlow9
import NetworkMonitoring.Softflowd.NetFlow1
import NetworkMonitoring.Softflowd.NetFlow1Batches
import NetworkMonitoring.Softflowd.Dialects
import NetworkMonitoring.Flowd.NetFlow1
import NetworkMonitoring.Pipeline.NetFlow1
import NetworkMonitoring.Foundations.Chains
import NetworkMonitoring.Foundations.ShortestPaths
import NetworkMonitoring.Nsp.TransitNetwork
import NetworkMonitoring.Nsp.Exploration
import NetworkMonitoring.Nsp.Dijkstra
import NetworkMonitoring.Nsp.NextHops
import NetworkMonitoring.Nsp.Predecessors
import NetworkMonitoring.Nsp.VisitMarks
import NetworkMonitoring.Nsp.Forwarding
import NetworkMonitoring.Nsp.Trips
import NetworkMonitoring.Sampling.Node
import NetworkMonitoring.Sampling.Periods
import NetworkMonitoring.Sampling.RateChanges
import NetworkMonitoring.Sampling.ControlMessages
import NetworkMonitoring.Sampling.BadControlMessages
import NetworkMonitoring.Nsp.PacketQueues
import NetworkMonitoring.Nsp.LoaderSender
import NetworkMonitoring.Foundations.Counters
import NetworkMonitoring.Softflowd.Statistics
import NetworkMonitoring.Softflowd.Conservation
import NetworkMonitoring.Softflowd.FlowCounts
import NetworkMonitoring.Softflowd.FirstReports
import NetworkMonitoring.Foundations.RecencyList
import NetworkMonitoring.Foundations.SplayTree
import NetworkMonitoring.Flowd.TemplateQueues
import NetworkMonitoring.Flowd.PeerStore
import NetworkMonitoring.Flowd.TemplateUses
import NetworkMonitoring.Flowd.Eviction
import NetworkMonitoring.Softflowd.Directions
import NetworkMonitoring.Estimation.Paths
import NetworkMonitoring.Pipeline.PathMessage
import NetworkMonitoring.Foundations.Assignments
import NetworkMonitoring.Nsp.As
import NetworkMonitoring.Nsp.Dispatching
import NetworkMonitoring.Flowd.StoreV2
import NetworkMonitoring.Foundations.Receivers
import NetworkMonitoring.Flowd.Privsep
import NetworkMonitoring.Flowd.PrivsepTransfer
import NetworkMonitoring.Estimation.Monitors
import NetworkMonitoring.Estimation.Reconfigurer
import NetworkMonitoring.Foundations.Groups
import NetworkMonitoring.Estimation.Grouping
import NetworkMonitoring.Foundations.LinkedLists
import NetworkMonitoring.Estimation.FlowLists
import NetworkMonitoring.Estimation.Rounds
import NetworkMonitoring.Estimation.RoundRuns
import NetworkMonitoring.Softflowd.NetFlow9Progress
import NetworkMonitoring.Softflowd.ForceExpire
import NetworkMonitoring.Softflowd.ExpiryLoop
import NetworkMonitoring.Softflowd.Calls
import NetworkMonitoring.Softflowd.NextExpire
import NetworkMonitoring.Softflowd.Scheduling
import NetworkMonitoring.Softflowd.FailedPackets
import NetworkMonitoring.Softflowd.TruncatedPackets
import NetworkMonitoring.Softflowd.UninitialisedRecords
import NetworkMonitoring.Pipeline.MessageSize
import NetworkMonitoring.Foundations.SeparatedFields
import NetworkMonitoring.Pipeline.PartReaders
import NetworkMonitoring.Foundations.NetworkBits
import NetworkMonitoring.Flowd.AddrPrefixes
import NetworkMonitoring.Flowd.Filter
import NetworkMonitoring.Pipeline.FlowReports
import NetworkMonitoring.Flowd.StoreBuffer
import NetworkMonitoring.Foundations.MaskedBytes
import NetworkMonitoring.Flowd.SwabFlow
import NetworkMonitoring.Foundations.OpenFile
import NetworkMonitoring.Flowd.StorePutBuf
import NetworkMonitoring.Estimation.Lookups
import NetworkMonitoring.Estimation.Sensitivities
import NetworkMonitoring.Softflowd.ExportFailures
import NetworkMonitoring.Pipeline.Comparators
import NetworkMonitoring.Nsp.TimeStamps
import NetworkMonitoring.Foundations.Numerals
import NetworkMonitoring.Softflowd.Timeouts
import NetworkMonitoring.Softflowd.HeaderWalk
import NetworkMonitoring.Foundations.Refinement
import NetworkMonitoring.Foundations.RedBlackTree
import NetworkMonitoring.Foundations.RedBlackBalance
import NetworkMonitoring.Softflowd.Trees
import NetworkMonitoring.Softflowd.TreeRefinement
import NetworkMonitoring.Softflowd.TreeLoops
import NetworkMonitoring.Softflowd.TreeRuns
import NetworkMonitoring.Softflowd.EmulatorThread
import NetworkMonitoring.Flowd.Mainloop
import NetworkMonitoring.Flowd.MainloopRuns
import NetworkMonitoring.Foundations.FairRuns
import NetworkMonitoring.Nsp.InterfaceThread
import NetworkMonitoring.Pipeline.Emulation
import NetworkMonitoring.Flowd.PrivsepAnswers
