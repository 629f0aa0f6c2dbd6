import VeloxServe.Config.ServerConfig
import VeloxServe.Core.Connection
import VeloxServe.Http.Router
import VeloxServe.Middleware.RateLimiter
import VeloxServe.Modules.LoadBalancer
import VeloxServe.Modules.ProxyHandler
import VeloxServe.Modules.StaticHeaders

/-! # The Server's Request Processing

    `Server::setup_routes` and the parts of a server `process_request` works
    with: rate limiter, router, handlers, cache and error pages. The closures
    `setup_routes` registers are the values of an enumeration. Clock readings,
    file systems and the sockets to the backends are arguments.
-/

namespace VeloxServe

open StdString

/-! ## State and Surroundings -/

/-- The cache of a server is filled by its static handler alone. -/
structure ServerState where
  rateLimiter : RateLimiter := {}
  cache : LRUCache
  filled : StaticHandler.Filled cache
  /-- By upstream name, in the order of a `std::map`. -/
  loadBalancers : List (Bytes × LoadBalancer) := []

/-- What one call of `process_request` meets outside the server. -/
structure Surroundings where
  headerOrder : HeaderOrder
  /-- The clock when the rate limiter reads it. -/
  arrivalTime : Time
  /-- The clock and the file system when the request is handled. -/
  getTime : Time
  putTime : Time
  fs : FileSystem
  /-- The same when the error page is fetched. -/
  pageGetTime : Time
  pagePutTime : Time
  pageFs : FileSystem
  /-- The connection to a backend. -/
  socket : BackendSocket

/-- The route handlers `setup_routes` registers. -/
inductive Endpoint where
  | health
  | metrics
  | balanced (upstreamName : Bytes)
  | proxied (proxyTarget : Bytes)
  | files (root indexFile : Bytes)
  deriving DecidableEq

namespace Server

/-! ## Handlers -/

/-- The text of `/metrics`. -/
def metricsText (s : ServerState) : Bytes :=
  let limiter := s.rateLimiter.getStats
  let cache := s.cache.getStats
  let line := fun (name : Bytes) (value : Nat) => name ++ bytes " " ++ decimal value ++ bytes "\n"
  bytes "# VeloxServe Metrics\n" ++
  line (bytes "rate_limit_total_requests") limiter.total ++
  line (bytes "rate_limit_blocked_requests") limiter.blocked ++
  line (bytes "rate_limit_active_ips") limiter.activeIps ++
  line (bytes "cache_hits") cache.hits ++
  line (bytes "cache_misses") cache.misses ++
  line (bytes "cache_entries") cache.entries ++
  line (bytes "cache_memory_bytes") cache.memory ++
  s.loadBalancers.flatMap fun (name, lb) =>
    line (bytes "upstream_" ++ name ++ bytes "_healthy") lb.healthyCount ++
    line (bytes "upstream_" ++ name ++ bytes "_total") lb.backendCount

/-- The load balancer of an upstream, which exists for every registered route. -/
def loadBalancer (s : ServerState) (upstreamName : Bytes) : LoadBalancer :=
  (s.loadBalancers.lookup upstreamName).getD {}

def setLoadBalancer (s : ServerState) (upstreamName : Bytes) (lb : LoadBalancer) : ServerState :=
  { s with loadBalancers := s.loadBalancers.map fun kv =>
      if kv.1 = upstreamName then (kv.1, lb) else kv }

/-- `"http://" + host + ":" + port`. -/
def targetUrl (backend : Backend) : Bytes :=
  bytes "http://" ++ backend.host ++ bytes ":" ++ intDecimal backend.port

def handleBalanced (env : Surroundings) (upstreamName : Bytes) (req : HttpRequest)
    (s : ServerState) : HttpResponse × ServerState :=
  match (loadBalancer s upstreamName).getNext with
  | (none, lb) =>
    (HttpResponse.internalError (bytes "503 Service Unavailable: No healthy backends"),
      setLoadBalancer s upstreamName lb)
  | (some (i, backend), lb) =>
    let resp := ProxyHandler.handle env.headerOrder env.socket req (targetUrl backend) req.clientIp
    let lb := if resp.statusCode = 502 then lb.markDown i else lb
    (resp, setLoadBalancer s upstreamName (lb.release i))

/-- `static_handler_.handle` with the server's cache. -/
def serveStatic (fs : FileSystem) (getTime putTime : Time) (req : HttpRequest)
    (root indexFile : Bytes) (s : ServerState) : HttpResponse × ServerState :=
  let handled := StaticHandler.handle fs getTime putTime req root indexFile (some s.cache)
  (handled.response, { s with cache := handled.cache.getD s.cache, filled := s.filled.served })

def handleEndpoint (env : Surroundings) (endpoint : Endpoint) (req : HttpRequest)
    (s : ServerState) : HttpResponse × ServerState :=
  match endpoint with
  | .health => (HttpResponse.ok (bytes "OK\n") (bytes "text/plain"), s)
  | .metrics => (HttpResponse.ok (metricsText s) (bytes "text/plain"), s)
  | .balanced upstreamName => handleBalanced env upstreamName req s
  | .proxied proxyTarget =>
    (ProxyHandler.handle env.headerOrder env.socket req proxyTarget req.clientIp, s)
  | .files root indexFile => serveStatic env.fs env.getTime env.putTime req root indexFile s

/-! ## Routes -/

/-- The handler of a location. -/
def locationEndpoint (config : ServerConfig) (upstreams : List Bytes) (loc : LocationConfig) :
    Endpoint :=
  if loc.isProxy then
    let upstreamName :=
      if find (bytes "http://") loc.proxyPass = some 0 then loc.proxyPass.drop 7
      else loc.proxyPass
    if upstreamName ∈ upstreams then .balanced upstreamName else .proxied loc.proxyPass
  else .files (if loc.root = [] then config.root else loc.root) loc.indexFile

/-- `setup_routes`, with the names of the upstreams that have a load balancer. -/
def setupRoutes (srt : RouteSort Endpoint) (config : ServerConfig) (upstreams : List Bytes) :
    Router Endpoint :=
  let router : Router Endpoint := {}
  let router := router.addRoute srt (bytes "/health") .health [bytes "GET"]
  let router := router.addRoute srt (bytes "/metrics") .metrics [bytes "GET"]
  if config.locations ≠ [] then
    config.locations.foldl
      (fun router loc =>
        router.addRoute srt loc.path (locationEndpoint config upstreams loc) loc.methods)
      router
  else
    router.addRoute srt (bytes "/") (.files (bytes "./www") (bytes "index.html"))
      [bytes "GET", bytes "HEAD"]

/-! ## The Service -/

/-- What `process_request` calls, with the router it was given. -/
def service (router : Router Endpoint) (config : ServerConfig) (env : Surroundings) :
    Service ServerState where
  isAllowed := fun clientIp s =>
    let r := s.rateLimiter.isAllowed clientIp env.arrivalTime
    (r.1, { s with rateLimiter := r.2 })
  route := fun request s => router.route (handleEndpoint env) request s
  root := config.root
  errorPages := config.errorPages
  serveStatic := serveStatic env.pageFs env.pageGetTime env.pagePutTime
  -- the log file is not part of the state
  logAccess := fun _ _ _ s => s
  headerOrder := env.headerOrder

end Server

end VeloxServe
