import Strfry.Lib.Table
import Strfry.Bytes
import Strfry.Json
import Strfry.Lib.Order
import Strfry.PackedEvent
import Strfry.Events
import Strfry.PackedEventCodec
import Strfry.Filters
import Strfry.DBScan
import Strfry.DBScanCollect
import Strfry.DBScanPlan
import Strfry.Lib.Merge
import Strfry.DBScanMerge
import Strfry.DBQuery
import Strfry.DBQueryLoop
import Strfry.DBQuerySpec
import Strfry.DBQueryBudget
import Strfry.Lib.LineReader
import Strfry.PluginEventSifter
import Strfry.CmdSync
import Strfry.CmdSyncSpec
import Strfry.Lib.Buffer
import Strfry.Lib.JsonText
import Strfry.Subscription
import Strfry.EventFrames
import Strfry.ActiveMonitors
import Strfry.ActiveMonitorsInv
import Strfry.ActiveMonitorsOps
import Strfry.ActiveMonitorsProcess
import Strfry.ActiveMonitorsRun
import Strfry.Ingester
import Strfry.Protected
import Strfry.Lib.Exposition
import Strfry.PrometheusMetrics
import Strfry.RelayIngester
import Strfry.DBScanEnumerate
import Strfry.FilterSetSearch
import Strfry.EphemeralSubs
import Strfry.EventsWrite
import Strfry.EventsWriteSpec
import Strfry.Dict
import Strfry.Store
import Strfry.Lib.Dominance
import Strfry.StoreConverge
import Strfry.NegentropyTrees
import Strfry.Lib.Nested
import Strfry.QueryScheduler
import Strfry.QuerySchedulerInv
import Strfry.RelayNegentropy
import Strfry.RelayNegentropySpec
import Strfry.NegentropyOpen
import Strfry.LevIds
import Strfry.RelayWriter
import Strfry.Fried
import Strfry.WriterPipeline
import Strfry.Router
import Strfry.RouterSpec
import Strfry.Compression
import Strfry.FriedExport
import Strfry.FriedImport
import Strfry.Genuine
import Strfry.GenuineRuns
import Strfry.DTag
import Strfry.RelayReq
import Strfry.Nip01
import Strfry.QuerySchedulerRun
import Strfry.Cron
import Strfry.EventsWriteFrame
import Strfry.NegentropyAdd
import Strfry.DBScanCandidates
import Strfry.DBScanCover
import Strfry.DBQueryCover
import Strfry.QuerySchedulerSlices
import Strfry.RelayCount
import Strfry.HandOff
import Strfry.HandOffDelivery
import Strfry.HandOffLifecycle
import Strfry.RelayReqView
import Strfry.RelayReqSpec
import Strfry.NegentropyMemory
import Strfry.Lib.Pool
import Strfry.RelayWebsocket
import Strfry.RelayWebsocketSpec
import Strfry.RelayServer
import Strfry.RelayServerSpec
import Strfry.Lib.Cursor
import Strfry.WSConnection
import Strfry.CmdStream
import Strfry.Decompressor
import Strfry.RouterEvents
import Strfry.CmdScan
import Strfry.DBQueryProgress
import Strfry.QuerySchedulerProgress
import Strfry.RelayReqLiveness
import Strfry.JsonExport
import Strfry.JsonImport
