import Sharegres.Foundation.ByteText
import Sharegres.Foundation.JsonText
import Sharegres.Parser.JsonUtil
import Sharegres.Parser.JsonNavigation
import Sharegres.Parser.QueryParser
import Sharegres.Router.Router
import Sharegres.Parser.PgQueryJson
import Sharegres.Parser.PrintedNodes
import Sharegres.Router.KeyedRoutes
import Sharegres.Router.WhereRouting
import Sharegres.Router.InsertRouting
import Sharegres.Foundation.LeaseLog
import Sharegres.Foundation.Transition
import Sharegres.Pool.ConnPool
import Sharegres.Protocol.Message
import Sharegres.Session.State
import Sharegres.Protocol.FeProtocol
import Sharegres.Session.Callbacks
import Sharegres.System.Proxy
import Sharegres.Protocol.QueryFraming
import Sharegres.Session.Operations
import Sharegres.Protocol.Rounds
import Sharegres.Session.Refinement
import Sharegres.System.Ledger
import Sharegres.System.Isolation
import Sharegres.Session.Control
import Sharegres.Session.Outcomes
import Sharegres.System.ScatterCounting
import Sharegres.System.PoolAccounting
import Sharegres.System.ReadyForQuery
import Sharegres.System.TransactionBinding
import Sharegres.Session.ScatterFailures
import Sharegres.Foundation.SlotArray
import Sharegres.Pool.IdleArray
import Sharegres.Router.ReadBack
import Sharegres.Session.ResponseStream
import Sharegres.Session.CopyOut
import Sharegres.Foundation.Framing
import Sharegres.Protocol.Frames
import Sharegres.Session.FrameProgress
import Sharegres.System.Backlog
import Sharegres.Foundation.GrowBuffer
import Sharegres.Protocol.MessageBuffer
import Sharegres.Session.SendQueue
import Sharegres.System.Dispatch
import Sharegres.Parser.StatementTree
import Sharegres.Parser.TreeParsing
import Sharegres.Protocol.MultiStatement
import Sharegres.System.PooledIdle
import Sharegres.System.StatusReports
import Sharegres.System.TransactionStatus
import Sharegres.Router.ConjunctOrder
import Sharegres.Router.KeySpelling
import Sharegres.Protocol.MessageReading
import Sharegres.Config.ConfigFile
import Sharegres.Config.ConfigLoad
import Sharegres.Config.LoadedMap
import Sharegres.Config.RouteTargets
import Sharegres.Config.Completeness
import Sharegres.Config.Usable
import Sharegres.Protocol.Startup
import Sharegres.Session.AfterStartup
import Sharegres.System.Handshake
import Sharegres.Session.CopyIn
import Sharegres.System.Flushing
import Sharegres.Config.KeyRanges
import Sharegres.Router.DisjointRanges
import Sharegres.Router.DdlRoutes
import Sharegres.Router.KeyUpdate
import Sharegres.Router.OwnLiteral
import Sharegres.Session.ScatterDrain
import Sharegres.Session.ScatterTags
import Sharegres.System.ExtendedBatch
import Sharegres.Protocol.StartupReach
import Sharegres.Foundation.Decoder
import Sharegres.Session.RowEncoding
import Sharegres.Parser.WhereLeaves
import Sharegres.Router.PrintedNames
import Sharegres.Foundation.JsonPath
import Sharegres.Parser.JsonScan
import Sharegres.Event.Timer
import Sharegres.Event.TimerAccuracy
import Sharegres.Foundation.Fuel
import Sharegres.Parser.SearchWalk
import Sharegres.Parser.LooseObjects
import Sharegres.Foundation.Partition
import Sharegres.Router.ShardedTable
import Sharegres.System.Placement
import Sharegres.System.ScatterRound
import Sharegres.System.SingleRound
import Sharegres.System.ShardedSelect
import Sharegres.Session.Emission
import Sharegres.Session.ReadAhead
import Sharegres.System.Cluster
