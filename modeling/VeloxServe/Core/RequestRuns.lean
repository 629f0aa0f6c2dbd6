import VeloxServe.Core.HeadRequests
import VeloxServe.Middleware.RateWindows

/-! # Runs of a Whole Server

    A server with its rate limiter, cache, router and load balancers, as requests
    come in from any clients, the event loop cleans up the limiter, and the
    health checks go on. Requests are taken in the order in which they reach the
    rate limiter.

    * **Frame**: of all that `process_request` calls, only the first call of
      the rate limiter changes the limiter.
    * **Rate**: so no client gets more than its share of the server, whatever
      else goes on; a client that is turned away costs the server nothing else.
      The limiter counts in exact rationals here. The access log is a file, not a
      part of the state, so the line about a request that is turned away is left out.
-/

namespace VeloxServe

open StdString LTS

universe u

/-! ## Section 1: What Processing a Request Keeps -/

section

variable {σ : Type u} {svc : Service σ} {Q : σ → Prop}

/-- The service with a limiter that lets everyone in. -/
def Service.unlimited (svc : Service σ) : Service σ := { svc with isAllowed := fun _ s => (true, s) }

/-- **Frame rule**: what the limiter leaves and the rest keeps holds after the request. -/
theorem Service.Keeps.afterLimiter (h : svc.unlimited.Keeps Q) {clientIp : Bytes} {s : σ}
    (hs : Q (svc.isAllowed clientIp s).2) (conn : Connection) :
    Q (VeloxServe.processRequest svc clientIp conn s).2 := by
  have hanswer : Q (svc.answer clientIp conn.readBuffer conn.keepAlive s).2 := by
    unfold Service.answer
    dsimp only
    split
    · exact hs
    · split
      · exact hs
      · exact h.respond _ hs
  exact h.logAccess _ _ _ _ hanswer

end

namespace Server

/-- The parts of a server keep what the handlers keep. -/
theorem service_keeps {Q : ServerState → Prop}
    (hcache : ∀ s c filled, Q s → Q { s with cache := c, filled := filled })
    (hbalancers : ∀ env upstreamName req s, Q s → Q (handleBalanced env upstreamName req s).2)
    (router : Router Endpoint) (config : ServerConfig) (env : Surroundings) :
    (service router config env).unlimited.Keeps Q where
  isAllowed := fun _ _ hs => hs
  route := by
    intro request s hs
    show Q (router.route (handleEndpoint env) request s).2
    unfold Router.route
    split
    · next endpoint _ =>
      cases endpoint with
      | health => exact hs
      | metrics => exact hs
      | balanced upstreamName => exact hbalancers env upstreamName request s hs
      | proxied proxyTarget => exact hs
      | files root indexFile => exact hcache s _ _ hs
    · exact hs
    · exact hs
  serveStatic := fun _ _ _ s hs => hcache s _ _ hs
  logAccess := fun _ _ _ _ hs => hs

/-! ## Section 2: Model -/

/-- What happens to a server. -/
inductive ServerEvent where
  /-- A worker runs `process_request`. -/
  | request (env : Surroundings) (clientIp : Bytes) (conn : Connection)
  /-- `rate_limiter_.cleanup_expired` in `cleanup_inactive_connections`. -/
  | cleanup (now : Time)
  /-- One backend of a round of health checks. -/
  | check (upstreamName : Bytes) (backend : Nat) (alive : Bool)

/-- A request that has been processed. -/
structure Exchange where
  clientIp : Bytes
  time : Time
  headerOrder : HeaderOrder
  /-- What was put into the write buffer. -/
  response : Bytes

/-- The response is the one of a client that is turned away. -/
def Exchange.refused (x : Exchange) : Bool :=
  x.response = Service.tooManyRequests.build x.headerOrder

/-- A server under these events, with the requests it processes. -/
def machine (router : Router Endpoint) (config : ServerConfig) :
    Machine ServerState ServerEvent (Option Exchange) where
  step := fun s event =>
    match event with
    | .request env clientIp conn =>
      let r := processRequest (service router config env) clientIp conn s
      (some { clientIp := clientIp
              time := env.arrivalTime
              headerOrder := env.headerOrder
              response := r.1.writeBuffer }, r.2)
    | .cleanup now => (none, { s with rateLimiter := s.rateLimiter.cleanupExpired now })
    | .check upstreamName backend alive =>
      (none, setLoadBalancer s upstreamName ((loadBalancer s upstreamName).check backend alive))

/-- The requests of a run, with their responses. -/
def exchanges (router : Router Endpoint) (config : ServerConfig) (s : ServerState)
    (events : List ServerEvent) : List Exchange :=
  ((machine router config).run s events).1.reduceOption

/-- The call of the rate limiter an event makes. -/
def ServerEvent.limiterCall : ServerEvent → Option (Time × LimiterCall)
  | .request env clientIp _ => some (env.arrivalTime, .isAllowed clientIp)
  | .cleanup now => some (now, .cleanupExpired)
  | .check _ _ _ => none

/-! ## Section 3: The Limiter -/

section

variable (router : Router Endpoint) (config : ServerConfig)

theorem handleBalanced_rateLimiter (env : Surroundings) (upstreamName : Bytes) (req : HttpRequest)
    (s : ServerState) : (handleBalanced env upstreamName req s).2.rateLimiter = s.rateLimiter := by
  unfold handleBalanced
  split <;> rfl

/-- **Frame**: a request calls the limiter once. -/
theorem processRequest_rateLimiter (env : Surroundings) (clientIp : Bytes) (conn : Connection)
    (s : ServerState) :
    (processRequest (service router config env) clientIp conn s).2.rateLimiter =
      (s.rateLimiter.isAllowed clientIp env.arrivalTime).2 := by
  have hkeeps := service_keeps (Q := fun s' =>
      s'.rateLimiter = (s.rateLimiter.isAllowed clientIp env.arrivalTime).2)
    (fun _ _ _ hs => hs)
    (fun env' upstreamName req s' hs => (handleBalanced_rateLimiter env' upstreamName req s').trans hs)
    router config env
  exact hkeeps.afterLimiter rfl conn

/-- A client that is turned away gets the refusal and changes nothing but the limiter. -/
theorem processRequest_turnedAway (env : Surroundings) (clientIp : Bytes) (conn : Connection)
    (s : ServerState) (h : (s.rateLimiter.isAllowed clientIp env.arrivalTime).1 = false) :
    (processRequest (service router config env) clientIp conn s).1.writeBuffer =
        Service.tooManyRequests.build env.headerOrder ∧
      (processRequest (service router config env) clientIp conn s).2 =
        { s with rateLimiter := (s.rateLimiter.isAllowed clientIp env.arrivalTime).2 } := by
  have hdenied : ((service router config env).isAllowed clientIp s).1 = false := h
  constructor
  · exact (processRequest_refused (service router config env) (by simp [hdenied]) conn).1
  · unfold processRequest Service.answer
    dsimp only
    rw [hdenied]
    rfl

/-- A response that was given as the limiter said. -/
structure Matches (x : Exchange) (d : Decision) : Prop where
  clientIp : x.clientIp = d.clientIp
  time : x.time = d.time
  refused : d.allowed = false → x.refused = true

/-- **Run lemma**: the limiter sees the requests and cleanups, and what it says to a request
    is what happens. -/
theorem run_limiter (events : List ServerEvent) (s : ServerState) (log : List Decision) :
    ∃ newer,
      (events.filterMap ServerEvent.limiterCall).foldl LimiterRun.step ⟨s.rateLimiter, log⟩ =
        ⟨((machine router config).run s events).2.rateLimiter, newer ++ log⟩ ∧
      List.Forall₂ Matches (exchanges router config s events) newer.reverse := by
  induction events generalizing s log with
  | nil => exact ⟨[], rfl, List.Forall₂.nil⟩
  | cons event events ih =>
    unfold exchanges at ih ⊢
    cases event with
    | request env clientIp conn =>
      generalize hd : (⟨clientIp, env.arrivalTime,
        (s.rateLimiter.isAllowed clientIp env.arrivalTime).1⟩ : Decision) = d
      obtain ⟨newer, hfold, hmatch⟩ :=
        ih (processRequest (service router config env) clientIp conn s).2 (d :: log)
      refine ⟨newer ++ [d], ?_, ?_⟩
      · rw [List.append_assoc]
        show List.foldl LimiterRun.step
          (LimiterRun.step ⟨s.rateLimiter, log⟩ (env.arrivalTime, .isAllowed clientIp)) _ = _
        have hstep : LimiterRun.step ⟨s.rateLimiter, log⟩ (env.arrivalTime, .isAllowed clientIp) =
            ⟨(processRequest (service router config env) clientIp conn s).2.rateLimiter,
              d :: log⟩ := by
          rw [processRequest_rateLimiter, ← hd]
          rfl
        rw [hstep]
        exact hfold
      · rw [List.reverse_append]
        refine List.Forall₂.cons ⟨by rw [← hd], by rw [← hd], fun hdenied => ?_⟩ hmatch
        have hturned : (s.rateLimiter.isAllowed clientIp env.arrivalTime).1 = false := by
          rw [← hd] at hdenied
          exact hdenied
        exact decide_eq_true
          (processRequest_turnedAway router config env clientIp conn s
            hturned).1
    | cleanup now => exact ih { s with rateLimiter := s.rateLimiter.cleanupExpired now } log
    | check upstreamName backend alive =>
      exact ih (setLoadBalancer s upstreamName
        ((loadBalancer s upstreamName).check backend alive)) log

/-- A client is served no more often than the limiter says yes. -/
theorem served_le_admitted {xs : List Exchange} {log : List Decision}
    (h : List.Forall₂ Matches xs log.reverse) (clientIp : Bytes) (first last : Time) :
    (xs.filter fun x => x.clientIp = clientIp ∧ first ≤ x.time ∧ x.time ≤ last ∧
        x.refused = false).length ≤
      ((admitted clientIp log).filter fun t => first ≤ t ∧ t ≤ last).length := by
  have hforward : ∀ ds : List Decision, List.Forall₂ Matches xs ds →
      (xs.filter fun x => x.clientIp = clientIp ∧ first ≤ x.time ∧ x.time ≤ last ∧
          x.refused = false).length ≤
        (ds.filter fun d => (d.clientIp = clientIp ∧ d.allowed = true) ∧ first ≤ d.time ∧
          d.time ≤ last).length := by
    intro ds hds
    clear h
    induction hds with
    | nil => exact Nat.le_refl 0
    | @cons x d xs ds hxd _ ih =>
      rw [List.filter_cons, List.filter_cons]
      by_cases hserved : x.clientIp = clientIp ∧ first ≤ x.time ∧ x.time ≤ last ∧ x.refused = false
      · have hallowed : (d.clientIp = clientIp ∧ d.allowed = true) ∧ first ≤ d.time ∧
            d.time ≤ last := by
          obtain ⟨hip, hfirst, hlast, hnot⟩ := hserved
          rw [hxd.clientIp] at hip
          rw [hxd.time] at hfirst hlast
          refine ⟨⟨hip, ?_⟩, hfirst, hlast⟩
          cases hd : d.allowed with
          | true => rfl
          | false =>
            rw [hxd.refused hd] at hnot
            cases hnot
        rw [if_pos (decide_eq_true hserved), if_pos (decide_eq_true hallowed)]
        simpa using ih
      · rw [if_neg (by simpa using hserved)]
        split
        · exact Nat.le_succ_of_le ih
        · exact ih
  have hle := hforward log.reverse h
  rw [List.filter_reverse, List.length_reverse] at hle
  refine Nat.le_trans hle (Nat.le_of_eq ?_)
  unfold admitted
  rw [List.filter_map, List.length_map, List.filter_filter]
  congr 1
  refine List.filter_congr fun d _ => ?_
  simp [Bool.and_comm, Bool.and_assoc]

/-! ## Section 4: The Rate -/

/-- The allowed requests of one client in a window. -/
theorem admitted_in_window {rateLimit : Int} (hrate : 1 ≤ rateLimit) (start : Time)
    {calls : List (Time × LimiterCall)} (hordered : (calls.map (·.1)).Pairwise (· ≤ ·))
    (clientIp : Bytes) {first last : Time} (hle : first ≤ last) :
    (((admitted clientIp (LimiterRun.of (.configured rateLimit start) calls).log).filter fun t =>
        first ≤ t ∧ t ≤ last).length : Rat) ≤
      2 * rateLimit + rateLimit * RateLimiter.elapsed last first := by
  have hone := RateLimiter.one_le_cast hrate
  have hcap : (1 : Rat) ≤ 2 * rateLimit := by linarith
  have hdecided : ∀ after d before,
      (LimiterRun.of (.configured rateLimit start) calls).log = after ++ d :: before →
        d.allowed = RateLimiter.fits hone (admitted d.clientIp before) d.time := by
    intro after d before h
    rw [RateLimiter.log_configured hrate start hordered] at h
    refine record_allowed _ (fun after d before hnil => ?_) h
    cases after <;> cases hnil
  have hwindow := (RateLimiter.allFit_admitted hrate clientIp hdecided).window hcap
    (RateLimiter.admitted_sorted start hrate hordered clientIp) hle
  rw [mul_comm (rateLimit : Rat) (RateLimiter.elapsed last first)]
  exact hwindow

/-- **Rate**: whatever requests come from whomever, of those of one client that arrive within
    `T` seconds no more than `2 * rate_limit + rate_limit * T` get past the limiter, and a
    request that does not is answered with the refusal and changes nothing but the limiter,
    the log apart. -/
theorem served_within_rate {rateLimit : Int} (hrate : 1 ≤ rateLimit) (start : Time)
    (router : Router Endpoint) (config : ServerConfig) {s₀ : ServerState}
    (hinit : s₀.rateLimiter = .configured rateLimit start) (events : List ServerEvent)
    (hordered : ((events.filterMap ServerEvent.limiterCall).map (·.1)).Pairwise (· ≤ ·)) :
    (∀ clientIp first last, first ≤ last →
      (((exchanges router config s₀ events).filter fun x => x.clientIp = clientIp ∧
          first ≤ x.time ∧ x.time ≤ last ∧ x.refused = false).length : Rat) ≤
        2 * rateLimit + rateLimit * RateLimiter.elapsed last first) ∧
    (∀ before env clientIp conn after, events = before ++ .request env clientIp conn :: after →
      let s := ((machine router config).run s₀ before).2
      let r := processRequest (service router config env) clientIp conn s
      (s.rateLimiter.isAllowed clientIp env.arrivalTime).1 = false →
        r.1.writeBuffer = Service.tooManyRequests.build env.headerOrder ∧
        r.2 = { s with rateLimiter := (s.rateLimiter.isAllowed clientIp env.arrivalTime).2 }) := by
  constructor
  · intro clientIp first last hle
    obtain ⟨newer, hfold, hmatch⟩ := run_limiter router config events s₀ []
    have hlog : (LimiterRun.of (.configured rateLimit start)
        (events.filterMap ServerEvent.limiterCall)).log = newer := by
      unfold LimiterRun.of
      rw [← hinit, hfold, List.append_nil]
    have hserved := served_le_admitted hmatch clientIp first last
    have hwindow := admitted_in_window hrate start hordered clientIp hle
    rw [hlog] at hwindow
    have hcast : (((exchanges router config s₀ events).filter fun x => x.clientIp = clientIp ∧
        first ≤ x.time ∧ x.time ≤ last ∧ x.refused = false).length : Rat) ≤
        ((admitted clientIp newer).filter fun t => first ≤ t ∧ t ≤ last).length := by
      exact_mod_cast hserved
    exact hcast.trans hwindow
  · intro before env clientIp conn after _ s r hdenied
    exact processRequest_turnedAway router config env clientIp conn s hdenied

/-- No files and no backends. -/
def quietSurroundings : Surroundings where
  headerOrder := UnorderedMap.IterOrder.listed
  arrivalTime := 0
  getTime := 0
  putTime := 0
  fs := ⟨fun _ => none, fun _ => none⟩
  pageGetTime := 0
  pagePutTime := 0
  pageFs := ⟨fun _ => none, fun _ => none⟩
  socket :=
    { opened := true
      inetPton := fun _ => none
      connects := fun _ _ => false
      sends := []
      recvs := [] }

theorem filled_slowServer : StaticHandler.Filled (LRUCache.create 1024 60) :=
  LRUCache.FilledBy.create 1024 60

/-- A server that allows one request a second. -/
def slowServer : ServerState where
  rateLimiter := .configured 1 0
  cache := LRUCache.create 1024 60
  filled := filled_slowServer

/-- A client in a hurry: the third request is one too many. -/
def threeAtOnce : List ServerEvent :=
  List.replicate 3 (.request quietSurroundings (bytes "10.0.0.9")
    { fd := 5, readBuffer := bytes "GET /health HTTP/1.1\r\nHost: a\r\n\r\n", lastActivity := 0 })

theorem served_within_rate_hurry :
    (∀ clientIp first last, first ≤ last →
      (((exchanges (setupRoutes RouteSort.insertion {} []) {} slowServer threeAtOnce).filter
          fun x => x.clientIp = clientIp ∧ first ≤ x.time ∧ x.time ≤ last ∧
            x.refused = false).length : Rat) ≤
        2 * (1 : Int) + (1 : Int) * RateLimiter.elapsed last first) ∧
    (∀ before env clientIp conn after,
      threeAtOnce = before ++ .request env clientIp conn :: after →
      let s := ((machine (setupRoutes RouteSort.insertion {} []) {}).run slowServer before).2
      let r := processRequest (service (setupRoutes RouteSort.insertion {} []) {} env) clientIp
        conn s
      (s.rateLimiter.isAllowed clientIp env.arrivalTime).1 = false →
        r.1.writeBuffer = Service.tooManyRequests.build env.headerOrder ∧
        r.2 = { s with rateLimiter := (s.rateLimiter.isAllowed clientIp env.arrivalTime).2 }) :=
  served_within_rate (by decide) 0 (setupRoutes RouteSort.insertion {} []) {} rfl threeAtOnce
    (by decide)

end

end Server

end VeloxServe
