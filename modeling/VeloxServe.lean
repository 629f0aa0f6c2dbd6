import VeloxServe.Framework.System
import VeloxServe.Framework.StdString
import VeloxServe.Framework.Message
import VeloxServe.Framework.UnorderedMap
import VeloxServe.Framework.LexicalPath
import VeloxServe.Framework.Recency
import VeloxServe.Http.HttpParser
import VeloxServe.Http.HttpResponse
import VeloxServe.Http.RequestFraming
import VeloxServe.Http.MimeTypes
import VeloxServe.Middleware.Cache
import VeloxServe.Middleware.CacheInvariant
import VeloxServe.Middleware.CacheRefinement
import VeloxServe.Middleware.CacheContents
import VeloxServe.Core.Connection
import VeloxServe.Core.ConnectionSystem
import VeloxServe.Core.ConnectionSerial
import VeloxServe.Core.RequestStream
import VeloxServe.Core.EpollWrapper
import VeloxServe.Core.EventLoop
import VeloxServe.Core.EventLoopSafety
import VeloxServe.Modules.StaticHandler
import VeloxServe.Modules.StaticPaths
import VeloxServe.Modules.ProxyHandler
import VeloxServe.Modules.StaticHeaders
import VeloxServe.Http.ParsedRequest
import VeloxServe.Http.WrittenRequest
import VeloxServe.Modules.ProxyForwarding
import VeloxServe.Config.ServerConfig
import VeloxServe.Core.Server
import VeloxServe.Http.ResponseFraming
import VeloxServe.Modules.ProxyRelay
import VeloxServe.Modules.RedirectFraming
import VeloxServe.Core.ServerFraming
import VeloxServe.Http.Chunking
import VeloxServe.Http.RequestText
import VeloxServe.Modules.ResponseRoundTrip
import VeloxServe.Core.BackendHealth
import VeloxServe.Framework.TokenBucket
import VeloxServe.Middleware.RateWindows
import VeloxServe.Modules.StaticFreshness
import VeloxServe.Config.ConfigParser
import VeloxServe.Config.ConfigGrammar
import VeloxServe.Http.HeaderBlock
import VeloxServe.Modules.ForwardedHeaders
import VeloxServe.Http.ConnectionHeader
import VeloxServe.Modules.Persistence
import VeloxServe.Core.ServerPersistence
import VeloxServe.Core.ConnectionPersistence
import VeloxServe.Modules.RoundRobin
import VeloxServe.Modules.HealthChecks
import VeloxServe.Core.BackendAddresses
import VeloxServe.Core.BalancedRequests
import VeloxServe.Core.ThreadPool
import VeloxServe.Framework.LongestMatch
import VeloxServe.Http.RouteSelection
import VeloxServe.Middleware.CacheHistory
import VeloxServe.Modules.PathRouting
import VeloxServe.Modules.ReadThrough
import VeloxServe.Core.HeadRequests
import VeloxServe.Framework.Cancellation
import VeloxServe.Modules.PathNormalisation
import VeloxServe.Framework.Rotation
import VeloxServe.Modules.FairSelection
import VeloxServe.Core.ResponseWriting
import VeloxServe.Core.IdleConnections
import VeloxServe.Modules.ProbeReplies
import VeloxServe.Modules.RedirectTargets
import VeloxServe.Config.ConfigLayout
import VeloxServe.Config.ConfigNumbers
import VeloxServe.Config.ConfigErrors
import VeloxServe.Core.AccessLog
import VeloxServe.Core.InternalRoutes
import VeloxServe.Framework.Traced
import VeloxServe.Modules.ProxyOffsets
import VeloxServe.Core.ConnectionTables
import VeloxServe.Core.Metrics
import VeloxServe.Core.ProxyChain
import VeloxServe.Core.ServerStop
import VeloxServe.Core.WorkerWakeups
import VeloxServe.Framework.ReuseDistance
import VeloxServe.Modules.CacheReuse
import VeloxServe.Modules.ConcurrentFiles
import VeloxServe.Core.ClientStream
import VeloxServe.Modules.LockedBalancer
import VeloxServe.Modules.StoppedChecks
import VeloxServe.Config.AcceptedConfigs
import VeloxServe.Core.AttendedConnections
import VeloxServe.Core.PublishedFiles
import VeloxServe.Modules.AtomicBalancer
