import VeloxServe.Core.ConnectionPersistence
import VeloxServe.Core.ServerFraming
import VeloxServe.Modules.Persistence

/-! # What the Server Says about the Connection

    Every response has a `Connection` line; `conn->keep_alive` decides what
    `handle_write` does after the last byte. The two are set in different places:
    an error response of `process_request` says `close` and leaves the flag as the
    request before has set it, and a relayed header or a redirect can say anything.

    Here the response to one request, then the runs of a connection.
-/

namespace VeloxServe

open StdString Message HttpResponse LTS

namespace Server

variable (router : Router Endpoint) (config : ServerConfig) (env : Surroundings)

/-! ## The Responses of the Handlers -/

theorem tells_withKeepAlive_iff {r : HttpResponse} (hplain : r.Plain) (keepAlive : Bool)
    (ord : HeaderOrder) :
    TellsPersistence ((withKeepAlive keepAlive r).build ord) keepAlive ↔
      r.ConnectionFits keepAlive :=
  tellsPersistence_iff rfl (withKeepAlive_plain hplain keepAlive) ord

/-- **A handler's response tells what becomes of the connection when its headers fit.** -/
theorem tells_written_iff {r : HttpResponse} (hplain : r.Plain) (s : ServerState)
    (keepAlive : Bool) :
    TellsPersistence (written router config env s keepAlive r) keepAlive ↔
      r.ConnectionFits keepAlive := by
  have hname : ¬ crlf <:+: bytes "Content-Type" ∧ (58 : UInt8) ∉ bytes "Content-Type" := by decide
  have hother : toLower (bytes "Content-Type") ≠ bytes "connection" := by decide
  obtain ⟨contentType, htype, happly⟩ := applyErrorPage_eq router config env r s
  unfold written
  rw [happly]
  cases errorPage config env s r.statusCode with
  | none => exact tells_withKeepAlive_iff hplain keepAlive env.headerOrder
  | some page =>
    have hpaged := (hplain.setBody page).setHeader hname htype
    have hbody : (r.setBody page).ConnectionFits keepAlive ↔ r.ConnectionFits keepAlive :=
      ⟨fun h => ⟨h.1, h.2⟩, fun h => ⟨h.1, h.2⟩⟩
    dsimp only
    rw [tells_withKeepAlive_iff hpaged, connectionFits_setHeader _ _ hother, hbody]

/-- What the server answers by itself. -/
theorem tells_written_own {r : HttpResponse} (hplain : r.Plain)
    (hlacks : r.Lacks (bytes "connection")) (s : ServerState) (keepAlive : Bool) :
    TellsPersistence (written router config env s keepAlive r) keepAlive :=
  (tells_written_iff router config env hplain s keepAlive).mpr (hlacks.connectionFits keepAlive)

/-- The body is left out for HEAD. -/
def headless (request : HttpRequest) (r : HttpResponse) : HttpResponse :=
  if request.method = bytes "HEAD" then r.setBody [] else r

theorem headless_plain (request : HttpRequest) {r : HttpResponse} (h : r.Plain) :
    (headless request r).Plain := by
  unfold headless
  split
  · exact h.setBody []
  · exact h

theorem headless_lacks (request : HttpRequest) {name : Bytes} {r : HttpResponse}
    (h : r.Lacks name) : (headless request r).Lacks name := by
  unfold headless
  split
  · exact h.setBody []
  · exact h

theorem connectionFits_headless (request : HttpRequest) (keepAlive : Bool) (r : HttpResponse) :
    (headless request r).ConnectionFits keepAlive ↔ r.ConnectionFits keepAlive := by
  unfold headless
  split
  · exact ⟨fun h => ⟨h.1, h.2⟩, fun h => ⟨h.1, h.2⟩⟩
  · exact Iff.rfl

/-- The response of an endpoint that serves no files. -/
theorem tells_endpoint_iff {endpoint : Endpoint}
    (hfiles : ∀ root indexFile, endpoint ≠ .files root indexFile) (request : HttpRequest)
    (s s' : ServerState) (keepAlive : Bool) :
    TellsPersistence (written router config env s' keepAlive
        (headless request (handleEndpoint env endpoint request s).1)) keepAlive ↔
      ∀ raw, relayedReply env endpoint request s = some raw → blankLine <:+: raw →
        ProxyHandler.RelaysConnection raw keepAlive := by
  -- a relayed reply brings its own headers, the server's own responses none
  obtain ⟨-, ⟨raw, hreply, hresp⟩ | ⟨hreply, text, hown⟩⟩ :=
    handleEndpoint_cases env hfiles request s
  · have hname : ¬ crlf <:+: bytes "X-Proxy" ∧ (58 : UInt8) ∉ bytes "X-Proxy" := by decide
    have hvalue : ¬ crlf <:+: bytes "VeloxServe" := by decide
    have hother : toLower (bytes "X-Proxy") ≠ bytes "connection" := by decide
    have hplain := (ProxyHandler.parseBackendResponse_plain raw).setHeader hname hvalue
    rw [hresp, tells_written_iff router config env (headless_plain request hplain),
      connectionFits_headless, connectionFits_setHeader _ _ hother,
      ProxyHandler.connectionFits_parsed, hreply]
    constructor
    · rintro h _ ⟨rfl⟩
      exact h
    · exact fun h => h raw rfl
  · have htype : ¬ crlf <:+: bytes "text/plain" := by decide
    rw [hreply]
    refine iff_of_true ?_ (by rintro raw ⟨⟩)
    rcases hown with hown | hown
    · rw [hown]
      exact tells_written_own router config env (headless_plain request (own_ok text htype).plain)
        (headless_lacks request (lacks_ok text _)) s' keepAlive
    · rw [hown]
      exact tells_written_own router config env
        (headless_plain request (own_internalError text).plain)
        (headless_lacks request (lacks_internalError text)) s' keepAlive

/-- What the static handler says when it does not redirect. -/
theorem plain_lacks_of_case {fs : FileSystem} {root path : Bytes} {r : HttpResponse}
    (h : StaticHandler.ResponseCase fs root path r)
    (hredirects : ¬ StaticHandler.Redirects fs root path) :
    r.Plain ∧ r.Lacks (bytes "connection") := by
  have hhit : ¬ crlf <:+: bytes "HIT" := by decide
  have hmiss : ¬ crlf <:+: bytes "MISS" := by decide
  have hlength : toLower (bytes "Content-Length") ≠ bytes "connection" := by decide
  have hcache : toLower (bytes "X-Cache") ≠ bytes "connection" := by decide
  cases h with
  | forbidden => exact ⟨(own_forbidden _).plain, lacks_forbidden _⟩
  | redirect h => exact absurd h hredirects
  | file fsPath hx content =>
    refine ⟨?_, (((lacks_typed 200 (bytes "OK") _ []).setHeader hlength _).setHeader hcache
      _).setBody content⟩
    rcases hx with rfl | rfl
    · exact fileResponse_plain fsPath hhit content
    · exact fileResponse_plain fsPath hmiss content
  | notFound => exact ⟨(own_notFound _).plain, lacks_notFound _⟩
  | internalError => exact ⟨(own_internalError _).plain, lacks_internalError _⟩

/-- The response of the static handler. -/
theorem tells_files_iff (root indexFile : Bytes) (request : HttpRequest) (s s' : ServerState)
    (keepAlive : Bool) :
    TellsPersistence (written router config env s' keepAlive
        (headless request (handleEndpoint env (.files root indexFile) request s).1)) keepAlive ↔
      (StaticHandler.Redirects env.fs root request.path →
        LocationTells env.headerOrder keepAlive (request.path ++ bytes "/")) := by
  have hcache : ∀ c ∈ some s.cache, StaticHandler.Filled c := fun c hc =>
    Option.some.inj hc ▸ s.filled
  have hcase : StaticHandler.ResponseCase env.fs root request.path
      (handleEndpoint env (.files root indexFile) request s).1 := StaticHandler.handle_cases hcache
  by_cases hredirects : StaticHandler.Redirects env.fs root request.path
  · have hresp : (handleEndpoint env (.files root indexFile) request s).1 =
        redirect (request.path ++ bytes "/") := StaticHandler.handle_redirect hredirects
    -- a redirect has no body to leave out
    have hheadless : headless request (redirect (request.path ++ bytes "/")) =
        redirect (request.path ++ bytes "/") := by
      unfold headless
      split <;> rfl
    rw [hresp, hheadless, written_redirect, tellsPersistence_redirected_iff]
    constructor
    · exact fun h _ => h
    · exact fun h => h hredirects
  · obtain ⟨hplain, hlacks⟩ := plain_lacks_of_case hcase hredirects
    refine iff_of_true ?_ fun h => absurd h hredirects
    exact tells_written_own router config env (headless_plain request hplain)
      (headless_lacks request hlacks) s' keepAlive

/-! ## One Request -/

/-- When the response to a parsed request tells what becomes of the connection. -/
def RequestKeepsWord (request : HttpRequest) (s : ServerState) : Prop :=
  match router.decision request with
  | .invoke (.files root _) =>
    StaticHandler.Redirects env.fs root request.path →
      LocationTells env.headerOrder request.wantsKeepAlive (request.path ++ bytes "/")
  | .invoke endpoint =>
    ∀ raw, relayedReply env endpoint request s = some raw → blankLine <:+: raw →
      ProxyHandler.RelaysConnection raw request.wantsKeepAlive
  | _ => True

theorem tells_respond_iff (hwords : Worded router) (request : HttpRequest) (s : ServerState) :
    TellsPersistence (((service router config env).respond request s).1.build env.headerOrder)
        request.wantsKeepAlive ↔ RequestKeepsWord router env request s := by
  have hrespond : ((service router config env).respond request s).1.build env.headerOrder =
      written router config env (router.route (handleEndpoint env) request s).2
        request.wantsKeepAlive
        (headless request (router.route (handleEndpoint env) request s).1) := by
    unfold Service.respond written withKeepAlive headless
    dsimp only
    split <;> split <;> rfl
  rw [hrespond]
  unfold Router.route RequestKeepsWord
  -- the answers of the router itself have no connection header of their own
  cases hdecision : router.decision request with
  | invoke endpoint =>
    cases endpoint with
    | files root indexFile => exact tells_files_iff router config env root indexFile request s _ _
    | health => exact tells_endpoint_iff router config env (fun _ _ => Endpoint.noConfusion) _ _ _ _
    | metrics => exact tells_endpoint_iff router config env (fun _ _ => Endpoint.noConfusion) _ _ _ _
    | balanced upstreamName =>
      exact tells_endpoint_iff router config env (fun _ _ => Endpoint.noConfusion) _ _ _ _
    | proxied proxyTarget =>
      exact tells_endpoint_iff router config env (fun _ _ => Endpoint.noConfusion) _ _ _ _
  | methodNotAllowed allowed =>
    have hown := own_methodNotAllowed (not_infix_allowed hwords hdecision)
    exact iff_of_true (tells_written_own router config env (headless_plain request hown.plain)
      (headless_lacks request (lacks_methodNotAllowed allowed)) s _) trivial
  | notFound =>
    exact iff_of_true (tells_written_own router config env
      (headless_plain request (own_notFound []).plain)
      (headless_lacks request (lacks_notFound [])) s _) trivial

/-- When what `process_request` queues tells what becomes of the connection: an accepted
    request keeps the word of its response, and any other one finds the flag cleared. -/
def KeepsWord (clientIp : Bytes) (conn : Connection) (s : ServerState) : Prop :=
  let (done, _, request) := ({} : HttpParser).parse conn.readBuffer { clientIp := clientIp }
  if (s.rateLimiter.isAllowed clientIp env.arrivalTime).1 ∧ done ∧ request.isValid then
    RequestKeepsWord router env request s
  else conn.keepAlive = false

/-- An error response of `process_request` itself says `close`. -/
theorem tells_close_iff {r : HttpResponse} (hplain : r.Plain) (hlacks : r.Lacks (bytes "connection"))
    (ord : HeaderOrder) (keepAlive : Bool) :
    TellsPersistence (r.build ord) keepAlive ↔ keepAlive = false := by
  have hclose : TellsPersistence (r.build ord) false :=
    (tells_withKeepAlive_iff hplain false ord).mpr (hlacks.connectionFits false)
  constructor
  · rintro ⟨line, hline, hvalue⟩
    obtain ⟨line', hline', hvalue'⟩ := hclose
    rw [hline] at hline'
    obtain rfl := (List.cons.inj hline').1
    exact hvalue.symm.trans hvalue'
  · rintro rfl
    exact hclose

theorem lacks_tooManyRequests : Service.tooManyRequests.Lacks (bytes "connection") := by
  have hname : toLower (bytes "Retry-After") ≠ bytes "connection" := by decide
  exact Lacks.setHeader (lacks_ok (bytes "429 Too Many Requests") (bytes "text/plain")) hname _

theorem badRequest_plain (body : Bytes) : (badRequest body).Plain := by
  have hreason : ¬ crlf <:+: bytes "Bad Request" := by decide
  have htype : ¬ crlf <:+: bytes "text/plain" := by decide
  exact (((Own.fresh hreason).typed htype).setBody body).plain

/-- **Step lemma**: the bytes `process_request` queues tell what `keep_alive` is then,
    exactly when the request, or the one before, lets them. -/
theorem processRequest_tells_iff (hwords : Worded router) (s : ServerState) (clientIp : Bytes)
    (conn : Connection) :
    TellsPersistence (processRequest (service router config env) clientIp conn s).1.writeBuffer
        (processRequest (service router config env) clientIp conn s).1.keepAlive ↔
      KeepsWord router env clientIp conn s := by
  unfold KeepsWord
  generalize hparsed : ({} : HttpParser).parse conn.readBuffer { clientIp := clientIp } = parsed
  obtain ⟨done, parser, request⟩ := parsed
  dsimp only
  by_cases hallowed : (s.rateLimiter.isAllowed clientIp env.arrivalTime).1 = true
  · by_cases haccepted : done = true ∧ request.isValid = true
    · obtain ⟨rfl, hvalid⟩ := haccepted
      obtain ⟨hbuffer, hflag⟩ := processRequest_accepted (service router config env) hallowed
        hparsed hvalid
      rw [if_pos ⟨hallowed, rfl, hvalid⟩, hbuffer, hflag]
      exact tells_respond_iff router config env hwords _ _
    · obtain ⟨hbuffer, hflag⟩ := processRequest_rejected (service router config env) hallowed
        hparsed haccepted
      rw [if_neg fun h => haccepted h.2, hbuffer, hflag]
      exact tells_close_iff (badRequest_plain _) (lacks_badRequest _) _ _
  · obtain ⟨hbuffer, hflag⟩ := processRequest_refused (service router config env) hallowed
      conn
    rw [if_neg fun h => hallowed h.1, hbuffer, hflag]
    exact tells_close_iff own_tooManyRequests.plain lacks_tooManyRequests _ _

/-! ## Whole Runs -/

/-- The server as a service whose surroundings change from request to request; the library
    iterates in one way throughout. -/
def live (ord : HeaderOrder) : Service (ServerState × Surroundings) where
  isAllowed := fun clientIp w =>
    let r := (service router config { w.2 with headerOrder := ord }).isAllowed clientIp w.1
    (r.1, r.2, w.2)
  route := fun request w =>
    let r := (service router config { w.2 with headerOrder := ord }).route request w.1
    (r.1, r.2, w.2)
  root := config.root
  errorPages := config.errorPages
  serveStatic := fun request root indexFile w =>
    let r := (service router config { w.2 with headerOrder := ord }).serveStatic request root
      indexFile w.1
    (r.1, r.2, w.2)
  logAccess := fun _ _ _ w => w
  headerOrder := ord

theorem applyErrorPage_live (ord : HeaderOrder) (r : HttpResponse) (s : ServerState) :
    (live router config ord).applyErrorPage r (s, env) =
      (((service router config { env with headerOrder := ord }).applyErrorPage r s).1,
        ((service router config { env with headerOrder := ord }).applyErrorPage r s).2, env) := by
  have hserve : ∀ page, (live router config ord).serveStatic { path := page }
      (live router config ord).root (bytes "index.html") (s, env) =
        (((service router config { env with headerOrder := ord }).serveStatic { path := page }
            config.root (bytes "index.html") s).1,
          ((service router config { env with headerOrder := ord }).serveStatic { path := page }
            config.root (bytes "index.html") s).2, env) := fun _ => rfl
  have hpages : (live router config ord).errorPages = config.errorPages := rfl
  have hpages' : (service router config { env with headerOrder := ord }).errorPages =
      config.errorPages := rfl
  have hroot : (service router config { env with headerOrder := ord }).root = config.root := rfl
  unfold Service.applyErrorPage
  rw [hpages, hpages', hroot]
  by_cases hstatus : r.statusCode ≥ 400
  · rw [if_pos hstatus, if_pos hstatus]
    cases config.errorPages r.statusCode with
    | none => rfl
    | some page =>
      rcases hserved : (service router config { env with headerOrder := ord }).serveStatic
        { path := page } config.root (bytes "index.html") s with ⟨errResp, s'⟩
      have hserve' := hserve page
      rw [hserved] at hserve'
      simp only [hserve', hserved]
      split <;> rfl
  · rw [if_neg hstatus, if_neg hstatus]

theorem respond_live (ord : HeaderOrder) (request : HttpRequest) (s : ServerState) :
    (live router config ord).respond request (s, env) =
      (((service router config { env with headerOrder := ord }).respond request s).1,
        ((service router config { env with headerOrder := ord }).respond request s).2, env) := by
  have hroute : (live router config ord).route request (s, env) =
      (((service router config { env with headerOrder := ord }).route request s).1,
        ((service router config { env with headerOrder := ord }).route request s).2, env) := rfl
  unfold Service.respond
  rw [hroute]
  dsimp only
  rw [applyErrorPage_live]
  split <;> rfl

/-- A request is processed in the surroundings of the moment. -/
theorem processRequest_live (ord : HeaderOrder) (clientIp : Bytes) (conn : Connection)
    (s : ServerState) :
    (processRequest (live router config ord) clientIp conn (s, env)).1 =
      (processRequest (service router config { env with headerOrder := ord }) clientIp conn s).1 := by
  have hallowed : (live router config ord).isAllowed clientIp (s, env) =
      (((service router config { env with headerOrder := ord }).isAllowed clientIp s).1,
        ((service router config { env with headerOrder := ord }).isAllowed clientIp s).2, env) := rfl
  have hanswer : ((live router config ord).answer clientIp conn.readBuffer conn.keepAlive
      (s, env)).1 = ((service router config { env with headerOrder := ord }).answer clientIp
        conn.readBuffer conn.keepAlive s).1 := by
    unfold Service.answer
    rw [hallowed]
    dsimp only
    split
    · rfl
    · split
      · rfl
      · rw [respond_live]
  unfold processRequest
  generalize (live router config ord).answer clientIp conn.readBuffer conn.keepAlive (s, env) =
    answer at hanswer ⊢
  generalize (service router config { env with headerOrder := ord }).answer clientIp
    conn.readBuffer conn.keepAlive s = answer' at hanswer ⊢
  obtain ⟨⟨request, response, keepAlive⟩, w⟩ := answer
  obtain ⟨⟨request', response', keepAlive'⟩, s'⟩ := answer'
  obtain ⟨rfl, hrest⟩ := Prod.mk.inj hanswer
  obtain ⟨rfl, rfl⟩ := Prod.mk.inj hrest
  rfl

/-- The condition on a step of a connection: a task keeps its word. -/
def StepKeepsWord (ord : HeaderOrder) (s : ConnState (ServerState × Surroundings))
    (label : ConnLabel (ServerState × Surroundings))
    (_ : ConnState (ServerState × Surroundings)) : Prop :=
  ∀ clientIp, label = .work clientIp →
    KeepsWord router { s.world.2 with headerOrder := ord } clientIp s.conn s.world.1

theorem workTells_iff (hwords : Worded router) (ord : HeaderOrder)
    (s s' : ConnState (ServerState × Surroundings))
    (label : ConnLabel (ServerState × Surroundings)) :
    ConnState.WorkTells (live router config ord) s label ↔ StepKeepsWord router ord s label s' := by
  have hone : ∀ clientIp,
      TellsPersistence (processRequest (live router config ord) clientIp s.conn s.world).1.writeBuffer
        (processRequest (live router config ord) clientIp s.conn s.world).1.keepAlive ↔
      KeepsWord router { s.world.2 with headerOrder := ord } clientIp s.conn s.world.1 := by
    intro clientIp
    rw [processRequest_live]
    exact processRequest_tells_iff router config _ hwords s.world.1 clientIp s.conn
  constructor
  · intro h clientIp hlabel
    exact (hone clientIp).mp (h clientIp hlabel)
  · intro h clientIp hlabel
    exact (hone clientIp).mpr (h clientIp hlabel)

/-- **On every connection the responses tell what becomes of it, after every step of a run,
    exactly when every task of the run keeps its word**: a request that is answered without
    its handler finds `keep_alive` cleared, a relayed reply has its own `Connection` lines in
    the spelling of `build` and promises nothing on a connection that is closed, and the
    location of a redirect injects no such line. -/
theorem tellsFates_iff (srt : RouteSort Endpoint) (config : ServerConfig) (upstreams : List Bytes)
    (ord : HeaderOrder) (peer : Bytes) {s₀ s : ConnState (ServerState × Surroundings)}
    {ls : List (ConnLabel (ServerState × Surroundings))}
    (h₀ : (connSystem (live (setupRoutes srt config upstreams) config ord) peer).init s₀) :
    Run ((connSystem (live (setupRoutes srt config upstreams) config ord) peer).restrict
        (StepKeepsWord (setupRoutes srt config upstreams) ord)) s₀ ls s ↔
      Run ((connSystem (live (setupRoutes srt config upstreams) config ord) peer).restrict
        fun _ _ s' => s'.TellsFates) s₀ ls s := by
  have hsame : (fun (s : ConnState (ServerState × Surroundings))
      (label : ConnLabel (ServerState × Surroundings))
      (_ : ConnState (ServerState × Surroundings)) =>
        ConnState.WorkTells (live (setupRoutes srt config upstreams) config ord) s label) =
      StepKeepsWord (setupRoutes srt config upstreams) ord := by
    funext s label s'
    exact propext (workTells_iff _ config (setupRoutes_worded srt config upstreams) ord s s' label)
  rw [← hsame]
  exact tellsFates_run_iff _ peer h₀

/-- A run with one request for a file that is not there. -/
theorem tellsFates_missing :
    let svc := live (setupRoutes RouteSort.insertion {} []) {} UnorderedMap.IterOrder.listed
    let s₀ : ConnState (ServerState × Surroundings) := ConnState.accepted 5 0 (started, oneReply [])
    let s := (s₀.read [.received (bytes "GET /a HTTP/1.1\r\n\r\n") 0]).work svc (bytes "10.0.0.9")
    Run ((connSystem svc (bytes "10.0.0.9")).restrict
        (StepKeepsWord (setupRoutes RouteSort.insertion {} []) UnorderedMap.IterOrder.listed)) s₀
        [.read [.received (bytes "GET /a HTTP/1.1\r\n\r\n") 0], .work (bytes "10.0.0.9")] s ↔
      Run ((connSystem svc (bytes "10.0.0.9")).restrict fun _ _ s' => s'.TellsFates) s₀
        [.read [.received (bytes "GET /a HTTP/1.1\r\n\r\n") 0], .work (bytes "10.0.0.9")] s :=
  tellsFates_iff RouteSort.insertion {} [] UnorderedMap.IterOrder.listed (bytes "10.0.0.9")
    ⟨5, 0, (started, oneReply []), rfl⟩

/-- A good request, and a broken one after its answer has been sent. -/
def brokenSecond : List (ConnLabel (ServerState × Surroundings)) :=
  [.read [.received (bytes "GET /health HTTP/1.1\r\n\r\n") 0], .work (bytes "10.0.0.9"),
    .write [.sent 1000], .read [.received (bytes "BROKEN\r\n\r\n") 1], .work (bytes "10.0.0.9")]

/-- The answer to the broken one says `close`, and the connection stays open. -/
theorem tellsFates_brokenSecond :
    ¬ ∀ (srt : RouteSort Endpoint) (config : ServerConfig) (upstreams : List Bytes)
      (ord : HeaderOrder) (peer : Bytes) (s₀ s : ConnState (ServerState × Surroundings))
      (ls : List (ConnLabel (ServerState × Surroundings))),
      (connSystem (live (setupRoutes srt config upstreams) config ord) peer).init s₀ →
      Run (connSystem (live (setupRoutes srt config upstreams) config ord) peer) s₀ ls s →
      s.TellsFates := by
  intro hall
  have hfacts : (LTS.replay (ConnState.step
      (live (setupRoutes RouteSort.insertion {} []) {} UnorderedMap.IterOrder.listed)
      (bytes "10.0.0.9")) (ConnState.accepted 5 0 (started, oneReply [])) brokenSecond).any (fun s =>
        decide (s.conn.writeBuffer ≠ [] ∧ s.conn.keepAlive = true ∧
          ((fields (bytes "connection") s.conn.writeBuffer).map fieldValue).any
            announcesKeepAlive = false)) = true := by
    decide +kernel
  obtain ⟨s, hs, hfact⟩ := (Option.any_eq_true _ _).mp hfacts
  obtain ⟨hne, hkeep, hsilent⟩ := of_decide_eq_true hfact
  have htells := hall RouteSort.insertion {} [] UnorderedMap.IterOrder.listed (bytes "10.0.0.9")
    _ s brokenSecond ⟨5, 0, (started, oneReply []), rfl⟩ (Run.of_replay hs)
  obtain ⟨line, hline, hvalue⟩ := (tellsFate_iff hne).mp (htells.queued hne).2
  rw [hkeep] at hvalue
  rw [hline] at hsilent
  simp [hvalue] at hsilent

end Server

end VeloxServe
