import V2nLte.Apps.Flooding
import V2nLte.Apps.MultihopD2D
import V2nLte.Epc.FilterTable
import V2nLte.Epc.LabelSwitching
import V2nLte.Epc.Tunnel
import V2nLte.Graph.Dijkstra
import V2nLte.Graph.ShortestPath
import V2nLte.Lte.Abort
import V2nLte.Lte.AfterHandover
import V2nLte.Lte.Binder
import V2nLte.Lte.CaptureEffect
import V2nLte.Lte.CellSelection
import V2nLte.Lte.Common
import V2nLte.Lte.Comp
import V2nLte.Lte.D2DModes
import V2nLte.Lte.Handover
import V2nLte.Lte.HandoverRounds
import V2nLte.Lte.Ip2lte
import V2nLte.Lte.Network
import V2nLte.Lte.NodeIds
import V2nLte.Lte.Serving
import V2nLte.Lte.Target
import V2nLte.Lte.Unregister
import V2nLte.Lte.UserFlows
import V2nLte.Lte.UserPlane
import V2nLte.Lte.X2
import V2nLte.Lte.X2Messages
import V2nLte.Mac.Accounting
import V2nLte.Mac.Amc
import V2nLte.Mac.BandReuse
import V2nLte.Mac.BestFit
import V2nLte.Mac.BsrBuffers
import V2nLte.Mac.Circular
import V2nLte.Mac.CircularRuns
import V2nLte.Mac.ConflictGraph
import V2nLte.Mac.D2DBsr
import V2nLte.Mac.DlHarq
import V2nLte.Mac.DlRequests
import V2nLte.Mac.Drr
import V2nLte.Mac.DrrAccounts
import V2nLte.Mac.DrrMirror
import V2nLte.Mac.Grant
import V2nLte.Mac.GrantBytes
import V2nLte.Mac.GrantRecords
import V2nLte.Mac.Harq
import V2nLte.Mac.HarqBufferTx
import V2nLte.Mac.HarqClasses
import V2nLte.Mac.HarqCodewords
import V2nLte.Mac.HarqCounters
import V2nLte.Mac.HarqMirror
import V2nLte.Mac.HarqSync
import V2nLte.Mac.LcgShares
import V2nLte.Mac.MacQueue
import V2nLte.Mac.Rac
import V2nLte.Mac.RtxBands
import V2nLte.Mac.RtxLoops
import V2nLte.Mac.ScoreSchedulers
import V2nLte.Mac.SendGrants
import V2nLte.Mac.Tbs
import V2nLte.Mac.UeTables
import V2nLte.Mac.UeUplink
import V2nLte.Mac.UeView
import V2nLte.Mac.UlGrants
import V2nLte.Mac.WideBand
import V2nLte.Mac.WorkConservation
import V2nLte.Machine.Basic
import V2nLte.Machine.BubbleSort
import V2nLte.Machine.ByteStream
import V2nLte.Machine.Change
import V2nLte.Machine.Collections
import V2nLte.Machine.Ensures
import V2nLte.Machine.Handler
import V2nLte.Machine.Heap
import V2nLte.Machine.LinearProbing
import V2nLte.Machine.Multimap
import V2nLte.Machine.OrderedMap
import V2nLte.Machine.PairMap
import V2nLte.Machine.Passes
import V2nLte.Machine.Rounding
import V2nLte.Machine.Shift
import V2nLte.Machine.Walk
import V2nLte.Machine.Word
import V2nLte.Pdcp.ConnectionsTable
import V2nLte.Rlc.AmFlight
import V2nLte.Rlc.AmLink
import V2nLte.Rlc.AmPlacing
import V2nLte.Rlc.AmReassembly
import V2nLte.Rlc.AmReports
import V2nLte.Rlc.AmRetries
import V2nLte.Rlc.AmTx
import V2nLte.Rlc.AmTxWindow
import V2nLte.Rlc.MultiTimer
import V2nLte.Rlc.UmLayer
import V2nLte.Rlc.UmLink
import V2nLte.Rlc.UmReassembly
import V2nLte.Rlc.UmRx
import V2nLte.Rlc.UmShift
import V2nLte.Rlc.UmSwitch
import V2nLte.Rlc.UmTx
import V2nLte.Rlc.UmTxSwitch
import V2nLte.Rlc.UmWindow
import V2nLte.Traffic.AppLife
import V2nLte.Traffic.Cars
import V2nLte.Traffic.Departure
import V2nLte.Traffic.Fleet
import V2nLte.Traffic.NetXml
import V2nLte.Traffic.Records
import V2nLte.Traffic.Reroute
import V2nLte.Traffic.Rerouting
import V2nLte.Traffic.RoadGraph
import V2nLte.Traffic.ScenarioManager
import V2nLte.Traffic.Server
import V2nLte.Traffic.Throttle
import V2nLte.Traffic.Vehicle
import V2nLte.Traffic.Weights
import V2nLte.Traffic.Wire
import V2nLte.World.ChannelControl
