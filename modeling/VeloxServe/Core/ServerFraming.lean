import VeloxServe.Core.Server
import VeloxServe.Modules.ProxyRelay
import VeloxServe.Modules.RedirectFraming

/-! # The Framing of the Server's Responses

    Whatever handler a request reaches, the bytes that are queued are framed
    by their content length, with two exceptions. A backend's own header lines
    are relayed as they are, in front of a body that may be cut off or replaced
    by an error page; and the location of a redirect may bring header lines
    with it.
-/

namespace VeloxServe

open StdString Message HttpResponse

namespace Server

/-! ## Error Pages -/

/-- The file that replaces the body of a response with this status. -/
def errorPage (config : ServerConfig) (env : Surroundings) (s : ServerState) (status : Int) :
    Option Bytes :=
  if status ≥ 400 then
    (config.errorPages status).bind
      (StaticHandler.servedContent env.pageFs env.pageGetTime config.root (bytes "index.html")
        (some s.cache))
  else none

variable (router : Router Endpoint) (config : ServerConfig) (env : Surroundings)

/-- The response to the request for an error page. -/
def pageResponse (s : ServerState) (page : Bytes) : HttpResponse :=
  (StaticHandler.handle env.pageFs env.pageGetTime env.pagePutTime { path := page } config.root
    (bytes "index.html") (some s.cache)).response

/-- The name that is looked up is not spelt like the one the handler sets. -/
theorem pageResponse_getHeader {s : ServerState} {page : Bytes}
    (h : (pageResponse config env s page).statusCode = 200) (defaultVal : Bytes) :
    (pageResponse config env s page).getHeader (bytes "content-type") defaultVal = defaultVal := by
  have hcache : ∀ c ∈ some s.cache, StaticHandler.Filled c := fun c hc =>
    Option.some.inj hc ▸ s.filled
  have hcase : StaticHandler.ResponseCase env.pageFs config.root ({ path := page } : HttpRequest).path
      (pageResponse config env s page) := StaticHandler.handle_cases hcache
  generalize pageResponse config env s page = r at h hcase ⊢
  -- only a file has status 200
  cases hcase with
  | forbidden => exact absurd h (by decide : (403 : Int) ≠ 200)
  | redirect _ => exact absurd h (by decide : (301 : Int) ≠ 200)
  | notFound => exact absurd h (by decide : (404 : Int) ≠ 200)
  | internalError => exact absurd h (by decide : (500 : Int) ≠ 200)
  | @file fsPath xCache _ content =>
    have hnone : (StaticHandler.fileResponse (getMimeType fsPath) xCache content).headers.lookup
        (bytes "content-type") = none := by
      have htype : bytes "content-type" ≠ bytes "Content-Type" := by decide
      have hlength : bytes "content-type" ≠ bytes "Content-Length" := by decide
      have hx : bytes "content-type" ≠ bytes "X-Cache" := by decide
      unfold StaticHandler.fileResponse
      rw [setBody_headers, setHeader_headers, UnorderedMap.lookup_set_ne _ _ hx,
        setHeader_headers, UnorderedMap.lookup_set_ne _ _ hlength,
        setHeader_headers, UnorderedMap.lookup_set_ne _ _ htype]
      rfl
    unfold getHeader
    rw [hnone]
    rfl

/-- **An error page** replaces the body, and is always said to be HTML. -/
theorem applyErrorPage_html (r : HttpResponse) (s : ServerState) :
    ((service router config env).applyErrorPage r s).1 =
      match errorPage config env s r.statusCode with
      | some page => (r.setBody page).setHeader (bytes "Content-Type") (bytes "text/html")
      | none => r := by
  unfold Service.applyErrorPage errorPage
  split
  · next hstatus =>
    cases hpage : config.errorPages r.statusCode with
    | none => simp [service, hpage]
    | some page =>
      -- the page replaces the body when the handler serves it with 200
      have hserves : StaticHandler.Serves _ (pageResponse config env s page) :=
        StaticHandler.handle_serves env.pageFs env.pageGetTime env.pagePutTime { path := page }
          config.root (bytes "index.html") (some s.cache)
      have hresp : (serveStatic env.pageFs env.pageGetTime env.pagePutTime { path := page }
          config.root (bytes "index.html") s).1 = pageResponse config env s page := rfl
      simp only [service, hpage, Option.bind_some, hresp]
      dsimp only at hserves
      cases hcontent : StaticHandler.servedContent env.pageFs env.pageGetTime config.root
          (bytes "index.html") (some s.cache) page with
      | none =>
        rw [hcontent] at hserves
        rw [if_neg hserves]
      | some data =>
        rw [hcontent] at hserves
        obtain ⟨hok, hbody⟩ := hserves
        rw [if_pos hok, hbody, pageResponse_getHeader config env hok]
  · rfl

theorem applyErrorPage_eq (r : HttpResponse) (s : ServerState) :
    ∃ contentType, ¬ crlf <:+: contentType ∧
      ((service router config env).applyErrorPage r s).1 =
        match errorPage config env s r.statusCode with
        | some page => (r.setBody page).setHeader (bytes "Content-Type") contentType
        | none => r :=
  ⟨bytes "text/html", by decide, applyErrorPage_html router config env r s⟩

/-! ## From the Handler to the Wire -/

/-- The last step before a response is written. -/
def withKeepAlive (keepAlive : Bool) (r : HttpResponse) : HttpResponse :=
  if keepAlive then r.setHeader (bytes "Connection") (bytes "keep-alive") else r

theorem withKeepAlive_plain {r : HttpResponse} (h : r.Plain) (keepAlive : Bool) :
    (withKeepAlive keepAlive r).Plain := by
  have hname : ¬ crlf <:+: bytes "Connection" ∧ (58 : UInt8) ∉ bytes "Connection" := by decide
  have hvalue : ¬ crlf <:+: bytes "keep-alive" := by decide
  unfold withKeepAlive
  split
  · exact h.setHeader hname hvalue
  · exact h

theorem lengthFits_withKeepAlive (keepAlive : Bool) (r : HttpResponse) :
    (withKeepAlive keepAlive r).LengthFits ↔ r.LengthFits := by
  unfold withKeepAlive
  split
  · exact lengthFits_setHeader r (by decide) _
  · exact Iff.rfl

/-- What a handler's response becomes: error page, keep-alive, bytes. -/
def written (s : ServerState) (keepAlive : Bool) (r : HttpResponse) : Bytes :=
  (withKeepAlive keepAlive ((service router config env).applyErrorPage r s).1).build
    env.headerOrder

/-- **A handler's response is framed when its headers fit the body that is sent**,
    which is its own or the error page's. -/
theorem framed_written_iff {r : HttpResponse} (hplain : r.Plain) (s : ServerState)
    (keepAlive : Bool) :
    Framed (written router config env s keepAlive r) ↔
      (r.setBody ((errorPage config env s r.statusCode).getD r.body)).LengthFits := by
  have hname : ¬ crlf <:+: bytes "Content-Type" ∧ (58 : UInt8) ∉ bytes "Content-Type" := by decide
  obtain ⟨contentType, htype, happly⟩ := applyErrorPage_eq router config env r s
  unfold written
  rw [happly]
  cases errorPage config env s r.statusCode with
  | none =>
    rw [(withKeepAlive_plain hplain keepAlive).framed_build_iff, lengthFits_withKeepAlive]
    exact Iff.rfl
  | some page =>
    have hpaged := (hplain.setBody page).setHeader hname htype
    rw [(withKeepAlive_plain hpaged keepAlive).framed_build_iff, lengthFits_withKeepAlive,
      lengthFits_setHeader _ (by decide)]
    exact Iff.rfl

/-- What the server answers by itself is framed. -/
theorem framed_written_own {r : HttpResponse} (h : r.Own) (s : ServerState) (keepAlive : Bool) :
    Framed (written router config env s keepAlive r) :=
  (framed_written_iff router config env h.plain s keepAlive).mpr (h.unframed.setBody _).lengthFits

/-! ## Static Files -/

theorem fileResponse_plain (fsPath : Bytes) {xCache : Bytes} (hx : ¬ crlf <:+: xCache)
    (data : Bytes) : (StaticHandler.fileResponse (getMimeType fsPath) xCache data).Plain := by
  have hreason : ¬ crlf <:+: bytes "OK" := by decide
  have hlength : ¬ crlf <:+: bytes "Content-Length" ∧ (58 : UInt8) ∉ bytes "Content-Length" := by
    decide
  have hxname : ¬ crlf <:+: bytes "X-Cache" ∧ (58 : UInt8) ∉ bytes "X-Cache" := by decide
  have hfresh : ({ statusCode := 200, statusText := bytes "OK" } : HttpResponse).Own :=
    Own.fresh hreason
  have htyped := hfresh.typed (not_infix_getMimeType fsPath)
  exact ((htyped.plain.setHeader hlength (not_infix_decimal data.length)).setHeader hxname
    hx).setBody data

/-- The handler announces the length of what it serves. -/
theorem framed_written_file (fsPath : Bytes) {xCache : Bytes} (hx : ¬ crlf <:+: xCache)
    (data : Bytes) (s : ServerState) (keepAlive : Bool) :
    Framed (written router config env s keepAlive
      (StaticHandler.fileResponse (getMimeType fsPath) xCache data)) := by
  have hreason : ¬ crlf <:+: bytes "OK" := by decide
  have hother : ¬ IsFramingName (bytes "X-Cache") := by decide
  have hfresh : ({ statusCode := 200, statusText := bytes "OK" } : HttpResponse).Own :=
    Own.fresh hreason
  have htyped := hfresh.typed (not_infix_getMimeType fsPath)
  have hsized := (lengthFits_setHeader _ hother xCache).mpr
    (htyped.unframed.lengthFits_announced data)
  have hnoPage : errorPage config env s 200 = none := rfl
  refine (framed_written_iff router config env (fileResponse_plain fsPath hx data) s keepAlive).mpr ?_
  show (HttpResponse.setBody ((errorPage config env s 200).getD data) _).LengthFits
  rw [hnoPage, Option.getD_none]
  unfold StaticHandler.fileResponse
  rw [setBody_setBody, setBody_setHeader]
  exact hsized

/-! ## Relayed Replies -/

/-- The address a request is forwarded to. -/
def target (endpoint : Endpoint) (s : ServerState) : Option Bytes :=
  match endpoint with
  | .balanced upstreamName =>
    (loadBalancer s upstreamName).getNext.1.map fun chosen => targetUrl chosen.2
  | .proxied proxyTarget => some proxyTarget
  | _ => none

/-- The bytes received from the backend, when a request is forwarded to one. -/
def relayedReply (endpoint : Endpoint) (request : HttpRequest) (s : ServerState) : Option Bytes :=
  (target endpoint s).bind fun url =>
    ProxyHandler.reply env.headerOrder env.socket request url request.clientIp

/-- The body a reply is delivered with: its content, or the page for its status. -/
def deliveredBody (s : ServerState) (raw : Bytes) : Bytes :=
  (errorPage config env s (ProxyHandler.parseBackendResponse raw).statusCode).getD (content raw)

/-- A reply is framed after the relay when its own header lines are right about the
    body that is delivered. -/
theorem framed_written_relayed (raw : Bytes) (s : ServerState) (keepAlive : Bool) :
    Framed (written router config env s keepAlive
        ((ProxyHandler.parseBackendResponse raw).setHeader (bytes "X-Proxy")
          (bytes "VeloxServe"))) ↔
      (blankLine <:+: raw →
        ProxyHandler.RelaysFraming raw (deliveredBody config env s raw).length) := by
  have hname : ¬ crlf <:+: bytes "X-Proxy" ∧ (58 : UInt8) ∉ bytes "X-Proxy" := by decide
  have hvalue : ¬ crlf <:+: bytes "VeloxServe" := by decide
  have hother : ¬ IsFramingName (bytes "X-Proxy") := by decide
  have hplain := (ProxyHandler.parseBackendResponse_plain raw).setHeader hname hvalue
  rw [framed_written_iff router config env hplain s keepAlive, setHeader_statusCode,
    setHeader_body, setBody_setHeader, lengthFits_setHeader _ hother,
    ProxyHandler.lengthFits_parsed]
  have hbody : blankLine <:+: raw →
      (errorPage config env s (ProxyHandler.parseBackendResponse raw).statusCode).getD
        (ProxyHandler.parseBackendResponse raw).body = deliveredBody config env s raw := by
    intro hin
    rw [ProxyHandler.parseBackendResponse_body hin]
    rfl
  constructor
  · exact fun h hin => hbody hin ▸ h hin
  · exact fun h hin => (hbody hin).symm ▸ h hin

/-! ## Endpoints -/

theorem errorPage_congr {s s' : ServerState} (h : s'.cache = s.cache) (status : Int) :
    errorPage config env s' status = errorPage config env s status := by
  unfold errorPage
  rw [h]

/-- Away from the static handler, a response is a relayed reply or a text of the server's own. -/
theorem handleEndpoint_cases {endpoint : Endpoint}
    (hfiles : ∀ root indexFile, endpoint ≠ .files root indexFile) (request : HttpRequest)
    (s : ServerState) :
    (handleEndpoint env endpoint request s).2.cache = s.cache ∧
      ((∃ raw, relayedReply env endpoint request s = some raw ∧
          (handleEndpoint env endpoint request s).1 =
            (ProxyHandler.parseBackendResponse raw).setHeader (bytes "X-Proxy")
              (bytes "VeloxServe")) ∨
        (relayedReply env endpoint request s = none ∧
          ∃ text, (handleEndpoint env endpoint request s).1 = ok text (bytes "text/plain") ∨
            (handleEndpoint env endpoint request s).1 = internalError text)) := by
  -- both proxying endpoints end in `ProxyHandler::handle`
  have hproxied : ∀ url, (∃ raw,
      ProxyHandler.reply env.headerOrder env.socket request url request.clientIp = some raw ∧
        ProxyHandler.handle env.headerOrder env.socket request url request.clientIp =
          (ProxyHandler.parseBackendResponse raw).setHeader (bytes "X-Proxy")
            (bytes "VeloxServe")) ∨
      (ProxyHandler.reply env.headerOrder env.socket request url request.clientIp = none ∧
        ∃ text, ProxyHandler.handle env.headerOrder env.socket request url request.clientIp =
            ok text (bytes "text/plain") ∨
          ProxyHandler.handle env.headerOrder env.socket request url request.clientIp =
            internalError text) := by
    intro url
    rcases ProxyHandler.handle_cases env.headerOrder env.socket request url request.clientIp with
      hrelayed | ⟨text, hnone, hown⟩
    · exact .inl hrelayed
    · exact .inr ⟨hnone, text, .inr hown⟩
  cases endpoint with
  | health => exact ⟨rfl, .inr ⟨rfl, _, .inl rfl⟩⟩
  | metrics => exact ⟨rfl, .inr ⟨rfl, _, .inl rfl⟩⟩
  | balanced upstreamName =>
    simp only [handleEndpoint, handleBalanced, relayedReply, target]
    generalize (loadBalancer s upstreamName).getNext = next
    obtain ⟨_ | ⟨i, backend⟩, lb⟩ := next
    · exact ⟨rfl, .inr ⟨rfl, _, .inr rfl⟩⟩
    · exact ⟨rfl, hproxied (targetUrl backend)⟩
  | proxied proxyTarget => exact ⟨rfl, hproxied proxyTarget⟩
  | files root indexFile => exact absurd rfl (hfiles root indexFile)

/-- The response of an endpoint that serves no files. -/
theorem framed_endpoint_iff {endpoint : Endpoint}
    (hfiles : ∀ root indexFile, endpoint ≠ .files root indexFile) (request : HttpRequest)
    (s : ServerState) (keepAlive : Bool) :
    Framed (written router config env (handleEndpoint env endpoint request s).2 keepAlive
        (handleEndpoint env endpoint request s).1) ↔
      ∀ raw, relayedReply env endpoint request s = some raw → blankLine <:+: raw →
        ProxyHandler.RelaysFraming raw (deliveredBody config env s raw).length := by
  obtain ⟨hcache, ⟨raw, hreply, hresp⟩ | ⟨hreply, text, hown⟩⟩ :=
    handleEndpoint_cases env hfiles request s
  · -- proxying leaves the cache alone, so the error page is the same
    have hbody : deliveredBody config env (handleEndpoint env endpoint request s).2 raw =
        deliveredBody config env s raw := by
      unfold deliveredBody
      rw [errorPage_congr config env hcache]
    rw [hresp, framed_written_relayed, hbody, hreply]
    constructor
    · rintro h _ ⟨rfl⟩
      exact h
    · exact fun h => h raw rfl
  · rw [hreply]
    constructor
    · rintro - raw ⟨⟩
    · intro _
      have htype : ¬ crlf <:+: bytes "text/plain" := by decide
      rcases hown with hown | hown
      · rw [hown]
        exact framed_written_own router config env (own_ok text htype) _ keepAlive
      · rw [hown]
        exact framed_written_own router config env (own_internalError text) _ keepAlive

/-- A redirect has no error page. -/
theorem written_redirect (s : ServerState) (keepAlive : Bool) (location : Bytes) :
    written router config env s keepAlive (redirect location) =
      (redirected keepAlive location).build env.headerOrder := by
  have hnoPage : errorPage config env s (redirect location).statusCode = none := rfl
  obtain ⟨_, -, happly⟩ := applyErrorPage_eq router config env (redirect location) s
  rw [hnoPage] at happly
  unfold written
  rw [happly]
  rfl

/-- The response of the static handler. -/
theorem framed_files_iff (root indexFile : Bytes) (request : HttpRequest) (s s' : ServerState)
    (keepAlive : Bool) :
    Framed (written router config env s' keepAlive
        (handleEndpoint env (.files root indexFile) request s).1) ↔
      (StaticHandler.Redirects env.fs root request.path →
        LocationFramed env.headerOrder keepAlive (request.path ++ bytes "/")) := by
  have hcache : ∀ c ∈ some s.cache, StaticHandler.Filled c := fun c hc =>
    Option.some.inj hc ▸ s.filled
  have hcase : StaticHandler.ResponseCase env.fs root request.path
      (handleEndpoint env (.files root indexFile) request s).1 := StaticHandler.handle_cases hcache
  have hhit : ¬ crlf <:+: bytes "HIT" := by decide
  have hmiss : ¬ crlf <:+: bytes "MISS" := by decide
  by_cases hredirects : StaticHandler.Redirects env.fs root request.path
  · have hresp : (handleEndpoint env (.files root indexFile) request s).1 =
        redirect (request.path ++ bytes "/") := StaticHandler.handle_redirect hredirects
    rw [hresp, written_redirect, framed_redirected_iff]
    constructor
    · exact fun h _ => h
    · exact fun h => h hredirects
  · -- everything else announces its own length
    have hframed : Framed (written router config env s' keepAlive
        (handleEndpoint env (.files root indexFile) request s).1) := by
      generalize (handleEndpoint env (.files root indexFile) request s).1 = r at hcase
      cases hcase with
      | forbidden => exact framed_written_own router config env (own_forbidden _) s' keepAlive
      | redirect h => exact absurd h hredirects
      | file fsPath hx content =>
        rcases hx with rfl | rfl
        · exact framed_written_file router config env fsPath hhit content s' keepAlive
        · exact framed_written_file router config env fsPath hmiss content s' keepAlive
      | notFound => exact framed_written_own router config env (own_notFound _) s' keepAlive
      | internalError =>
        exact framed_written_own router config env (own_internalError _) s' keepAlive
    constructor
    · exact fun _ h => absurd h hredirects
    · exact fun _ => hframed

/-! ## Routes -/

/-- All methods of the routes are words. -/
def Worded (router : Router Endpoint) : Prop :=
  ∀ route ∈ router.routes, ∀ m ∈ route.allowedMethods, IsWord m

theorem Worded.addRoute {router : Router Endpoint} (h : Worded router) (srt : RouteSort Endpoint)
    (pathPrefix : Bytes) (endpoint : Endpoint) {methods : List Bytes}
    (hmethods : ∀ m ∈ methods, IsWord m) :
    Worded (router.addRoute srt pathPrefix endpoint methods) := by
  intro route hroute
  have hmem := (srt.perm _).mem_iff.mp hroute
  rcases List.mem_append.mp hmem with hmem | hmem
  · exact h route hmem
  · rw [List.mem_singleton.mp hmem]
    exact hmethods

theorem isWord_get : IsWord (bytes "GET") := ⟨by decide, by decide +kernel⟩

theorem isWord_head : IsWord (bytes "HEAD") := ⟨by decide, by decide +kernel⟩

theorem setupRoutes_worded (srt : RouteSort Endpoint) (config : ServerConfig)
    (upstreams : List Bytes) : Worded (setupRoutes srt config upstreams) := by
  have hget : ∀ m ∈ [bytes "GET"], IsWord m := by
    intro m hm
    exact List.mem_singleton.mp hm ▸ isWord_get
  have hboth : ∀ m ∈ [bytes "GET", bytes "HEAD"], IsWord m := by
    intro m hm
    rcases List.mem_pair.mp hm with rfl | rfl
    · exact isWord_get
    · exact isWord_head
  have hlocations : ∀ (locations : List LocationConfig) (router : Router Endpoint),
      Worded router → Worded (locations.foldl
        (fun router loc =>
          router.addRoute srt loc.path (locationEndpoint config upstreams loc) loc.methods)
        router) := by
    intro locations
    induction locations with
    | nil => exact fun _ h => h
    | cons loc locations ih =>
      exact fun router h => ih _ (h.addRoute srt _ _ loc.methods_words)
  have hnone : Worded {} := by
    intro route hroute
    cases hroute
  have hbase := (hnone.addRoute srt (bytes "/health") .health hget).addRoute srt
    (bytes "/metrics") .metrics hget
  unfold setupRoutes
  dsimp only
  split
  · exact hlocations _ _ hbase
  · exact hbase.addRoute srt _ _ hboth

/-- Words with `", "` between them. -/
theorem not_mem_intercalate {words : List Bytes} (h : ∀ word ∈ words, IsWord word) :
    (13 : UInt8) ∉ (bytes ", ").intercalate words := by
  have hsep : (13 : UInt8) ∉ bytes ", " := by decide
  induction words with
  | nil => simp
  | cons word words ih =>
    have hword := (h word List.mem_cons_self).not_mem
    have hwords := ih fun w hw => h w (List.mem_cons_of_mem _ hw)
    cases words with
    | nil => simpa using hword
    | cons next words =>
      rw [List.intercalate_cons_cons]
      intro hmem
      rcases List.mem_append.mp hmem with hmem | hmem
      · rcases List.mem_append.mp hmem with hmem | hmem
        · exact hword hmem
        · exact hsep hmem
      · exact hwords hmem

/-- The `Allow` header of a refused method is one line. -/
theorem not_infix_allowed {router : Router Endpoint} (h : Worded router) {request : HttpRequest}
    {allowed : Bytes} (hdecision : router.decision request = .methodNotAllowed allowed) :
    ¬ crlf <:+: allowed := by
  unfold Router.decision at hdecision
  split at hdecision
  · next route hfind =>
    split at hdecision
    · obtain rfl := Router.Decision.methodNotAllowed.inj hdecision
      exact not_infix_of_not_mem
        (not_mem_intercalate (h route (List.mem_of_find?_eq_some hfind)))
    · cases hdecision
  · split at hdecision
    · cases hdecision
    · cases hdecision

/-! ## Whole Requests -/

/-- When the response to a request is framed: the reply that is relayed, if any, has
    the header lines for the body that is delivered, and the location of a redirect
    injects none that matter. -/
def KeepsFraming (request : HttpRequest) (s : ServerState) : Prop :=
  match router.decision request with
  | .invoke (.files root _) =>
    StaticHandler.Redirects env.fs root request.path →
      LocationFramed env.headerOrder request.wantsKeepAlive (request.path ++ bytes "/")
  | .invoke endpoint =>
    ∀ raw, relayedReply env endpoint request s = some raw → blankLine <:+: raw →
      ProxyHandler.RelaysFraming raw (deliveredBody config env s raw).length
  | _ => True

/-- The response to a request, before the log. -/
theorem framed_respond_iff (hwords : Worded router) {request : HttpRequest}
    (hmethod : request.method ≠ bytes "HEAD") (s : ServerState) :
    Framed (((service router config env).respond request s).1.build env.headerOrder) ↔
      KeepsFraming router config env request s := by
  have hrespond : ((service router config env).respond request s).1.build env.headerOrder =
      written router config env (router.route (handleEndpoint env) request s).2
        request.wantsKeepAlive (router.route (handleEndpoint env) request s).1 := by
    unfold Service.respond written withKeepAlive
    dsimp only
    rw [if_neg hmethod]
    split <;> rfl
  rw [hrespond]
  unfold Router.route KeepsFraming
  cases hdecision : router.decision request with
  | invoke endpoint =>
    cases endpoint with
    | files root indexFile => exact framed_files_iff router config env root indexFile request s _ _
    | health => exact framed_endpoint_iff router config env (fun _ _ => Endpoint.noConfusion) _ _ _
    | metrics => exact framed_endpoint_iff router config env (fun _ _ => Endpoint.noConfusion) _ _ _
    | balanced upstreamName =>
      exact framed_endpoint_iff router config env (fun _ _ => Endpoint.noConfusion) _ _ _
    | proxied proxyTarget =>
      exact framed_endpoint_iff router config env (fun _ _ => Endpoint.noConfusion) _ _ _
  | methodNotAllowed allowed =>
    have hown := own_methodNotAllowed (not_infix_allowed hwords hdecision)
    exact iff_of_true (framed_written_own router config env hown s _) trivial
  | notFound =>
    exact iff_of_true (framed_written_own router config env (own_notFound []) s _) trivial

theorem own_tooManyRequests : Service.tooManyRequests.Own := by
  have hplain : ¬ crlf <:+: bytes "text/plain" := by decide
  have hreason : ¬ crlf <:+: bytes "Too Many Requests" := by decide
  have hvalue : ¬ crlf <:+: bytes "1" := by decide
  exact ((own_ok _ hplain).setStatus 429 hreason).setHeader (by decide) hvalue

/-- **The bytes queued for an accepted request are framed exactly when** the client has
    used up its tokens or the condition of `KeepsFraming` is met. -/
theorem processRequest_framed_iff (srt : RouteSort Endpoint) (config : ServerConfig)
    (upstreams : List Bytes) (env : Surroundings) (s : ServerState) (clientIp : Bytes)
    (conn : Connection)
    (hdone : (({} : HttpParser).parse conn.readBuffer { clientIp := clientIp }).1 = true)
    (hvalid : (({} : HttpParser).parse conn.readBuffer { clientIp := clientIp }).2.2.isValid = true)
    (hmethod : (({} : HttpParser).parse conn.readBuffer { clientIp := clientIp }).2.2.method ≠
      bytes "HEAD") :
    Framed (processRequest (service (setupRoutes srt config upstreams) config env) clientIp conn
        s).1.writeBuffer ↔
      ((s.rateLimiter.isAllowed clientIp env.arrivalTime).1 = true →
        KeepsFraming (setupRoutes srt config upstreams) config env
          (({} : HttpParser).parse conn.readBuffer { clientIp := clientIp }).2.2 s) := by
  have hwords := setupRoutes_worded srt config upstreams
  generalize setupRoutes srt config upstreams = router at hwords
  generalize hparsed : ({} : HttpParser).parse conn.readBuffer { clientIp := clientIp } = parsed
    at hdone hvalid hmethod
  obtain ⟨done, parser, request⟩ := parsed
  dsimp only at hdone hvalid hmethod ⊢
  subst hdone
  by_cases hallowed : (s.rateLimiter.isAllowed clientIp env.arrivalTime).1 = true
  · have hbuffer := (processRequest_accepted (service router config env) hallowed hparsed
      hvalid).1
    rw [hbuffer]
    refine (framed_respond_iff router config env hwords hmethod _).trans ?_
    constructor
    · exact fun h _ => h
    · exact fun h => h hallowed
  · have hbuffer := (processRequest_refused (service router config env) hallowed conn).1
    rw [hbuffer]
    exact iff_of_true (own_tooManyRequests.framed_build _) fun h => absurd h hallowed

/-- All requests go to one backend. -/
def proxyConfig : ServerConfig where
  locations :=
    [{ path := bytes "/", proxyPass := bytes "http://127.0.0.1:3000",
       methods_words := List.forall_mem_nil _ }]

/-- A backend that takes a request of 132 bytes and sends one reply. -/
def oneReply (raw : Bytes) : Surroundings where
  headerOrder := UnorderedMap.IterOrder.listed
  arrivalTime := 0
  getTime := 0
  putTime := 0
  fs := ⟨fun _ => none, fun _ => none⟩
  pageGetTime := 0
  pagePutTime := 0
  pageFs := ⟨fun _ => none, fun _ => none⟩
  socket :=
    { opened := true
      inetPton := fun host => if host = bytes "127.0.0.1" then some 0x7f000001 else none
      connects := fun _ port => port = 3000
      sends := [132]
      recvs := [some raw, some []] }

/-- A server that has just been started. -/
def started : ServerState where
  cache := LRUCache.create 1024 60
  filled := LRUCache.FilledBy.create 1024 60

def receivedGet : Connection where
  fd := 5
  readBuffer := bytes "GET / HTTP/1.1\r\nHost: a\r\n\r\n"
  lastActivity := 0

/-- A reply in the spelling of `build`, cut off by a timeout. -/
theorem processRequest_framed_cutOff :
    Framed (processRequest (service (setupRoutes RouteSort.insertion proxyConfig []) proxyConfig
        (oneReply (bytes "HTTP/1.1 200 OK\r\nContent-Length: 20\r\n\r\nhi"))) (bytes "10.0.0.9")
        receivedGet started).1.writeBuffer ↔
      ((started.rateLimiter.isAllowed (bytes "10.0.0.9") 0).1 = true →
        KeepsFraming (setupRoutes RouteSort.insertion proxyConfig []) proxyConfig
          (oneReply (bytes "HTTP/1.1 200 OK\r\nContent-Length: 20\r\n\r\nhi"))
          (({} : HttpParser).parse receivedGet.readBuffer { clientIp := bytes "10.0.0.9" }).2.2
          started) :=
  processRequest_framed_iff RouteSort.insertion proxyConfig [] _ started (bytes "10.0.0.9")
    receivedGet (by decide +kernel) (by decide +kernel) (by decide +kernel)

/-- A backend that writes `content-length` in small letters. -/
theorem processRequest_twoLengths :
    ¬ ∀ (srt : RouteSort Endpoint) (config : ServerConfig) (upstreams : List Bytes)
      (env : Surroundings) (s : ServerState) (clientIp : Bytes) (conn : Connection),
      (({} : HttpParser).parse conn.readBuffer { clientIp := clientIp }).1 = true →
      (({} : HttpParser).parse conn.readBuffer { clientIp := clientIp }).2.2.isValid = true →
      (({} : HttpParser).parse conn.readBuffer { clientIp := clientIp }).2.2.method ≠
        bytes "HEAD" →
      Framed (processRequest (service (setupRoutes srt config upstreams) config env) clientIp conn
        s).1.writeBuffer := by
  intro h
  have hframed := h RouteSort.insertion proxyConfig []
    (oneReply (bytes "HTTP/1.1 200 OK\r\ncontent-length: 2\r\n\r\nhi")) started (bytes "10.0.0.9")
    receivedGet (by decide +kernel) (by decide +kernel) (by decide +kernel)
  obtain ⟨line, hone, -⟩ := hframed.length
  have hcount := congrArg List.length hone
  rw [List.length_singleton] at hcount
  revert hcount
  decide +kernel

end Server

end VeloxServe
