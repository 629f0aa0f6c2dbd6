import VeloxServe.Core.ServerPersistence
import VeloxServe.Framework.System
import VeloxServe.Http.HeadResponse
import VeloxServe.Http.RouteSelection
import VeloxServe.Modules.FixedFiles

/-! # GET and HEAD

    `process_request` drops the body of a response to HEAD before it applies the
    error page and before `build` computes the length. What has announced its
    length by then, a file, and what has no body, a redirect, is not changed by
    that; a failure is announced with length 0, and its error page comes with its
    body.

    Two requests that differ in the method only are compared, each at any moment
    in the life of a server whose locations serve files that stay as they are.
-/

namespace VeloxServe

open StdString Message HttpResponse StaticHandler

universe u

/-! ## What a Request Does to the State -/

/-- The parts of a service keep `inv`. -/
structure Service.Keeps {σ : Type u} (svc : Service σ) (inv : σ → Prop) : Prop where
  isAllowed : ∀ clientIp s, inv s → inv (svc.isAllowed clientIp s).2
  route : ∀ request s, inv s → inv (svc.route request s).2
  serveStatic : ∀ request root indexFile s, inv s →
    inv (svc.serveStatic request root indexFile s).2
  logAccess : ∀ request response clientIp s, inv s →
    inv (svc.logAccess request response clientIp s)

section

variable {σ : Type u} {svc : Service σ} {inv : σ → Prop}

theorem Service.Keeps.applyErrorPage (h : svc.Keeps inv) (r : HttpResponse) {s : σ} (hs : inv s) :
    inv (svc.applyErrorPage r s).2 := by
  unfold Service.applyErrorPage
  split
  · split
    · exact hs
    · next page _ =>
      have hserved := h.serveStatic { path := page } svc.root (bytes "index.html") s hs
      dsimp only
      split
      · exact hserved
      · exact hserved
  · exact hs

theorem Service.Keeps.respond (h : svc.Keeps inv) (request : HttpRequest) {s : σ} (hs : inv s) :
    inv (svc.respond request s).2 := by
  have hpaged := h.applyErrorPage (if request.method = bytes "HEAD" then
    (svc.route request s).1.setBody [] else (svc.route request s).1) (h.route request s hs)
  unfold Service.respond
  dsimp only
  split
  · exact hpaged
  · exact hpaged

/-- **What all parts keep, a request keeps.** -/
theorem Service.Keeps.processRequest (h : svc.Keeps inv) (clientIp : Bytes) (conn : Connection)
    {s : σ} (hs : inv s) : inv (processRequest svc clientIp conn s).2 := by
  have hallowed := h.isAllowed clientIp s hs
  have hanswer : inv (svc.answer clientIp conn.readBuffer conn.keepAlive s).2 := by
    unfold Service.answer
    dsimp only
    split
    · exact hallowed
    · split
      · exact hallowed
      · exact h.respond _ hallowed
  unfold VeloxServe.processRequest
  generalize svc.answer clientIp conn.readBuffer conn.keepAlive s = answer at hanswer
  obtain ⟨⟨request, response, keepAlive⟩, s'⟩ := answer
  exact h.logAccess request response clientIp s' hanswer

end

namespace Server

variable (router : Router Endpoint) (config : ServerConfig) (fs : FileSystem)

/-! ## A Server over Fixed Files -/

/-- One call of `process_request`: its surroundings, the client and the connection. -/
structure RequestLabel where
  env : Surroundings
  clientIp : Bytes
  conn : Connection

/-- A server from its start on, over a file system that does not change. -/
def serving : LTS.System ServerState RequestLabel where
  init := fun s => ∃ maxSizeBytes ttlSeconds, s.cache = LRUCache.create maxSizeBytes ttlSeconds
  step := fun s l s' => l.env.fs = fs ∧ l.env.pageFs = fs ∧
    s' = (processRequest (service router config l.env) l.clientIp l.conn s).2

variable {router config fs}

theorem mirrors_serveStatic {s : ServerState} (h : Mirrors fs s.cache) (getTime putTime : Time)
    (request : HttpRequest) (root indexFile : Bytes) :
    Mirrors fs (serveStatic fs getTime putTime request root indexFile s).2.cache :=
  h.handle

theorem mirrors_route {env : Surroundings} (hfs : env.fs = fs) {s : ServerState}
    (h : Mirrors fs s.cache) (request : HttpRequest) :
    Mirrors fs (router.route (handleEndpoint env) request s).2.cache := by
  unfold Router.route
  cases router.decision request with
  | methodNotAllowed allowed => exact h
  | notFound => exact h
  | invoke endpoint =>
    dsimp only
    by_cases hfiles : ∃ root indexFile, endpoint = .files root indexFile
    · obtain ⟨root, indexFile, rfl⟩ := hfiles
      subst hfs
      exact mirrors_serveStatic h env.getTime env.putTime request root indexFile
    · -- the other endpoints leave the cache alone
      have hother : ∀ root indexFile, endpoint ≠ .files root indexFile :=
        fun root indexFile heq => hfiles ⟨root, indexFile, heq⟩
      rw [(handleEndpoint_cases env hother request s).1]
      exact h

theorem service_keeps_mirrors {env : Surroundings} (hfs : env.fs = fs) (hpage : env.pageFs = fs) :
    (service router config env).Keeps fun s => Mirrors fs s.cache where
  isAllowed := fun _ _ h => h
  route := fun request _ h => mirrors_route hfs h request
  serveStatic := by
    intro request root indexFile s h
    subst hpage
    exact mirrors_serveStatic h env.pageGetTime env.pagePutTime request root indexFile
  logAccess := fun _ _ _ _ h => h

/-- **Run lemma**: the cache of such a server mirrors the files. -/
theorem mirrors_of_reachable {s : ServerState} (h : LTS.Reachable (serving router config fs) s) :
    Mirrors fs s.cache := by
  have hinit : ∀ s, (serving router config fs).init s → Mirrors fs s.cache := by
    intro s ⟨maxSizeBytes, ttlSeconds, hcache⟩
    rw [hcache]
    exact mirrors_create fs maxSizeBytes ttlSeconds
  have hstep : ∀ s l s', Mirrors fs s.cache → (serving router config fs).step s l s' →
      Mirrors fs s'.cache := by
    intro s l s' hs ⟨hfs, hpage, hs'⟩
    rw [hs']
    exact (service_keeps_mirrors hfs hpage).processRequest l.clientIp l.conn hs
  exact h.invariant hinit hstep

/-! ## Static Locations -/

/-- A location that serves files, to GET and HEAD at least. -/
structure StaticLocation (loc : LocationConfig) : Prop where
  files : loc.isProxy = false
  get : loc.methods = [] ∨ bytes "GET" ∈ loc.methods
  head : loc.methods = [] ∨ bytes "HEAD" ∈ loc.methods

/-- The route of such a location. -/
structure FilesRoute (route : Route Endpoint) : Prop where
  files : ∃ root indexFile, route.handler = .files root indexFile
  get : route.allowedMethods = [] ∨ bytes "GET" ∈ route.allowedMethods
  head : route.allowedMethods = [] ∨ bytes "HEAD" ∈ route.allowedMethods

/-- The internal status routes, for GET only. -/
structure StatusRoute (route : Route Endpoint) : Prop where
  status : route.handler = .health ∨ route.handler = .metrics
  get : route.allowedMethods = [bytes "GET"]

/-- All routes are of these two kinds. -/
structure StaticRoutes (router : Router Endpoint) : Prop where
  routes : ∀ route ∈ router.routes, StatusRoute route ∨ FilesRoute route
  noDefault : router.defaultHandler = none

theorem StaticRoutes.addRoute {router : Router Endpoint} (h : StaticRoutes router)
    (srt : RouteSort Endpoint) {pathPrefix : Bytes} {endpoint : Endpoint} {methods : List Bytes}
    (hroute : StatusRoute ⟨pathPrefix, endpoint, methods⟩ ∨
      FilesRoute ⟨pathPrefix, endpoint, methods⟩) :
    StaticRoutes (router.addRoute srt pathPrefix endpoint methods) where
  routes := by
    intro route hmem
    have hmem' := (srt.perm _).mem_iff.mp hmem
    rcases List.mem_append.mp hmem' with hmem' | hmem'
    · exact h.routes route hmem'
    · rw [List.mem_singleton.mp hmem']
      exact hroute
  noDefault := h.noDefault

theorem setupRoutes_static (srt : RouteSort Endpoint) {config : ServerConfig}
    (upstreams : List Bytes) (hstatic : ∀ loc ∈ config.locations, StaticLocation loc) :
    StaticRoutes (setupRoutes srt config upstreams) := by
  have hempty : StaticRoutes {} := ⟨fun route hroute => (by cases hroute), rfl⟩
  have hbase : StaticRoutes ((({} : Router Endpoint).addRoute srt (bytes "/health") .health
      [bytes "GET"]).addRoute srt (bytes "/metrics") .metrics [bytes "GET"]) :=
    (hempty.addRoute srt (.inl ⟨.inl rfl, rfl⟩)).addRoute srt (.inl ⟨.inr rfl, rfl⟩)
  have hlocations : ∀ (locations : List LocationConfig) (router : Router Endpoint),
      (∀ loc ∈ locations, StaticLocation loc) → StaticRoutes router →
      StaticRoutes (locations.foldl
        (fun router loc =>
          router.addRoute srt loc.path (locationEndpoint config upstreams loc) loc.methods)
        router) := by
    intro locations
    induction locations with
    | nil => exact fun _ _ h => h
    | cons loc locations ih =>
      intro router hall h
      obtain ⟨hfiles, hget, hhead⟩ := hall loc List.mem_cons_self
      have hendpoint : locationEndpoint config upstreams loc =
          .files (if loc.root = [] then config.root else loc.root) loc.indexFile := by
        unfold locationEndpoint
        rw [hfiles]
        rfl
      exact ih _ (fun l hl => hall l (List.mem_cons_of_mem _ hl))
        (h.addRoute srt (.inr ⟨⟨_, _, hendpoint⟩, hget, hhead⟩))
  unfold setupRoutes
  dsimp only
  split
  · exact hlocations _ _ hstatic hbase
  · exact hbase.addRoute srt (.inr ⟨⟨_, _, rfl⟩, by decide, by decide⟩)

/-- The request with HEAD in place of its method. -/
def asHead (request : HttpRequest) : HttpRequest := { request with method := bytes "HEAD" }

/-- What the router decides for GET and for HEAD. -/
inductive Decided (router : Router Endpoint) (request : HttpRequest) : Prop where
  | files (root indexFile : Bytes)
      (hget : router.decision request = .invoke (.files root indexFile))
      (hhead : router.decision (asHead request) = .invoke (.files root indexFile))
  | status (endpoint : Endpoint) (hstatus : endpoint = .health ∨ endpoint = .metrics)
      (hget : router.decision request = .invoke endpoint)
      (hhead : router.decision (asHead request) = .methodNotAllowed (bytes "GET"))
  | notFound (hget : router.decision request = .notFound)
      (hhead : router.decision (asHead request) = .notFound)

theorem StaticRoutes.decided {router : Router Endpoint} (h : StaticRoutes router)
    {request : HttpRequest} (hmethod : request.method = bytes "GET") : Decided router request := by
  have hhead : (asHead request).method = bytes "HEAD" := rfl
  cases hfind : matched router request.path with
  | none =>
    have hasHead : matched router (asHead request).path = none := hfind
    apply Decided.notFound
    · rw [decision_of_unmatched hfind, h.noDefault]
    · rw [decision_of_unmatched hasHead, h.noDefault]
  | some route =>
    have hasHead : matched router (asHead request).path = some route := hfind
    rcases h.routes route (List.mem_of_find?_eq_some hfind) with hroute | hroute
    · apply Decided.status route.handler hroute.status
      · rw [decision_of_matched hfind, hroute.get, hmethod, if_neg (by decide)]
      · rw [decision_of_matched hasHead, hroute.get, hhead,
          if_pos (by decide)]
        rfl
    · obtain ⟨root, indexFile, hfiles⟩ := hroute.files
      -- neither method is refused
      have hallowed : ∀ m, (route.allowedMethods = [] ∨ m ∈ route.allowedMethods) →
          ¬ (route.allowedMethods ≠ [] ∧ m ∉ route.allowedMethods) := by
        intro m hm hrefused
        exact hm.elim hrefused.1 hrefused.2
      apply Decided.files root indexFile
      · rw [decision_of_matched hfind, hmethod, if_neg (hallowed _ hroute.get), hfiles]
      · rw [decision_of_matched hasHead, hhead,
          if_neg (hallowed _ hroute.head), hfiles]

/-! ## From the Handler to the Wire -/

/-- The error page for a status. -/
def pageFile (config : ServerConfig) (fs : FileSystem) (status : Int) : Option Bytes :=
  if status ≥ 400 then
    (config.errorPages status).bind (servedFile fs config.root (bytes "index.html"))
  else none

theorem errorPage_eq_pageFile {env : Surroundings} (hpage : env.pageFs = fs) {s : ServerState}
    (h : Mirrors fs s.cache) (status : Int) :
    errorPage config env s status = pageFile config fs status := by
  subst hpage
  unfold errorPage pageFile
  split
  · congr 1
    funext page
    exact h.servedContent page
  · rfl

/-- A handler's response as it is built: with its error page and the keep-alive header. -/
def finished (config : ServerConfig) (fs : FileSystem) (keepAlive : Bool) (r : HttpResponse) :
    HttpResponse :=
  withKeepAlive keepAlive (match pageFile config fs r.statusCode with
    | some page => (r.setBody page).setHeader (bytes "Content-Type") (bytes "text/html")
    | none => r)

theorem respond_finished {env : Surroundings} (hfs : env.fs = fs) (hpage : env.pageFs = fs)
    {s : ServerState} (h : Mirrors fs s.cache) (request : HttpRequest) :
    ((service router config env).respond request s).1 =
      finished config fs request.wantsKeepAlive
        (headless request (router.route (handleEndpoint env) request s).1) := by
  have happly := applyErrorPage_html router config env
    (headless request (router.route (handleEndpoint env) request s).1)
    (router.route (handleEndpoint env) request s).2
  rw [errorPage_eq_pageFile hpage (mirrors_route hfs h request)] at happly
  have hfinished : finished config fs request.wantsKeepAlive
        (headless request (router.route (handleEndpoint env) request s).1) =
      withKeepAlive request.wantsKeepAlive ((service router config env).applyErrorPage
        (headless request (router.route (handleEndpoint env) request s).1)
        (router.route (handleEndpoint env) request s).2).1 := by
    rw [happly]
    rfl
  rw [hfinished]
  unfold Service.respond withKeepAlive headless
  dsimp only
  split <;> split <;> rfl

theorem finished_status (keepAlive : Bool) (r : HttpResponse) :
    (finished config fs keepAlive r).statusText = r.statusText ∧
      (finished config fs keepAlive r).statusLine = r.statusLine := by
  unfold finished withKeepAlive
  split <;> split <;> exact ⟨rfl, rfl⟩

/-! ## The Kinds of Responses -/

/-- **A failure** looks the same to HEAD when its error page is an empty file. -/
theorem headOf_failed_iff (ord : HeaderOrder) {r : HttpResponse} (hown : r.Own)
    (hbody : r.body ≠ []) (keepAlive : Bool) :
    HeadOf ((finished config fs keepAlive r).build ord)
        ((finished config fs keepAlive (r.setBody [])).build ord) ↔
      pageFile config fs r.statusCode = some [] := by
  unfold finished
  rw [setBody_statusCode]
  cases pageFile config fs r.statusCode with
  | some page =>
    -- the page is put into the response to HEAD as well
    have hname : ¬ crlf <:+: bytes "Content-Type" ∧ (58 : UInt8) ∉ bytes "Content-Type" := by decide
    have hplain := withKeepAlive_plain ((hown.plain.setBody page).setHeader hname
      (by decide : ¬ crlf <:+: bytes "text/html")) keepAlive
    have hpaged : (withKeepAlive keepAlive ((r.setBody page).setHeader (bytes "Content-Type")
        (bytes "text/html"))).body = page := by
      unfold withKeepAlive
      split <;> rfl
    dsimp only
    rw [setBody_setBody, headOf_self_iff, (hplain.clean.read_build ord).2, hpaged]
    exact (Option.some_inj).symm
  | none =>
    -- without a page, the two announce different lengths
    have hframed : ∀ r : HttpResponse, r.Own → Framed ((withKeepAlive keepAlive r).build ord) := by
      intro r hr
      rw [(withKeepAlive_plain hr.plain keepAlive).framed_build_iff, lengthFits_withKeepAlive]
      exact hr.unframed.lengthFits
    have hcontent : content ((withKeepAlive keepAlive r).build ord) = r.body := by
      rw [((withKeepAlive_plain hown.plain keepAlive).clean.read_build ord).2]
      unfold withKeepAlive
      split <;> rfl
    refine iff_of_false (fun h => hbody ?_) (by simp)
    rw [← hcontent]
    exact h.content_eq_nil (hframed r hown) (hframed _ (hown.setBody []))

theorem fileResponse_headersOf (contentType x x' content : Bytes) :
    HeadersOf (fileResponse contentType x content)
      ((fileResponse contentType x' content).setBody []) := by
  have hset : ∀ x, (fileResponse contentType x content).headers =
      UnorderedMap.set (bytes "X-Cache") x
        ((({ statusCode := 200, statusText := bytes "OK" } : HttpResponse).setHeader
          (bytes "Content-Type") contentType).setHeader (bytes "Content-Length")
            (decimal content.length)).headers := fun _ => rfl
  obtain ⟨-, hlength⟩ := fileResponse_headers contentType x content
  obtain ⟨-, hlength'⟩ := fileResponse_headers contentType x' content
  constructor
  · unfold fileResponse
    simp only [setBody_statusLine, setHeader_statusLine]
  · intro k hk
    have hne : k ≠ bytes "X-Cache" := by
      rintro rfl
      exact hk (by decide)
    rw [setBody_headers, hset, hset, UnorderedMap.lookup_set_ne _ _ hne,
      UnorderedMap.lookup_set_ne _ _ hne]
  · unfold announced getHeader
    rw [setBody_headers, hlength, hlength']
    rfl
  · intro hlook
    rw [setBody_headers, hset, hset, UnorderedMap.lookup_set_self,
      UnorderedMap.lookup_set_self] at hlook
    rw [setBody_headers, hset, hset, Option.some.inj hlook]
  · rfl

theorem fileResponse_spelt (contentType x content : Bytes) :
    (fileResponse contentType x content).SpeltAs (bytes "X-Cache") := by
  have hfresh : ({ statusCode := 200, statusText := bytes "OK" } : HttpResponse).SpeltAs
      (bytes "X-Cache") := by
    intro k hk
    cases hk
  have htype : toLower (bytes "Content-Type") = toLower (bytes "X-Cache") →
      bytes "Content-Type" = bytes "X-Cache" := by decide
  have hlength : toLower (bytes "Content-Length") = toLower (bytes "X-Cache") →
      bytes "Content-Length" = bytes "X-Cache" := by decide
  have htyped := spelt_setHeader hfresh htype contentType
  have hsized := spelt_setHeader htyped hlength (decimal content.length)
  have hcached := spelt_setHeader hsized (fun _ => rfl) x
  unfold fileResponse
  exact spelt_setBody hcached content

/-- **A file** has announced its length before its body is dropped. -/
theorem headOf_file (ord : HeaderOrder) (fsPath content : Bytes) {x x' : Bytes}
    (hx : x = bytes "HIT" ∨ x = bytes "MISS") (hx' : x' = bytes "HIT" ∨ x' = bytes "MISS")
    (keepAlive : Bool) :
    HeadOf ((finished config fs keepAlive (fileResponse (getMimeType fsPath) x content)).build ord)
      ((finished config fs keepAlive
        ((fileResponse (getMimeType fsPath) x' content).setBody [])).build ord) := by
  have hfinished : ∀ r : HttpResponse, r.statusCode = 200 →
      finished config fs keepAlive r = withKeepAlive keepAlive r := by
    intro r hr
    have hno : pageFile config fs 200 = none := rfl
    unfold finished
    rw [hr, hno]
  have hplain : ∀ x, (x = bytes "HIT" ∨ x = bytes "MISS") →
      (fileResponse (getMimeType fsPath) x content).Plain := by
    intro x hx
    have hclean : ¬ crlf <:+: x := by rcases hx with rfl | rfl <;> decide
    exact fileResponse_plain fsPath hclean content
  have hspelt := fileResponse_spelt (getMimeType fsPath) x content
  have hspelt' : ((fileResponse (getMimeType fsPath) x' content).setBody []).SpeltAs
      (bytes "X-Cache") := spelt_setBody (fileResponse_spelt (getMimeType fsPath) x' content) []
  have hheaders := fileResponse_headersOf (getMimeType fsPath) x x' content
  have hplain₁ := withKeepAlive_plain (hplain x hx) keepAlive
  have hplain₂ := withKeepAlive_plain ((hplain x' hx').setBody []) keepAlive
  rw [hfinished _ rfl, hfinished _ rfl]
  cases keepAlive with
  | false => exact hheaders.headOf_build hplain₁ hplain₂ hspelt hspelt' ord
  | true =>
    exact (hheaders.setHeader (by decide) (bytes "keep-alive")).headOf_build hplain₁ hplain₂
      (spelt_setHeader hspelt (by decide) _) (spelt_setHeader hspelt' (by decide) _) ord

/-- **A redirect** has no body, unless its location ends the header block early. -/
theorem headOf_redirect_iff (ord : HeaderOrder) (path : Bytes) (keepAlive : Bool) :
    HeadOf ((finished config fs keepAlive (redirect (path ++ bytes "/"))).build ord)
        ((finished config fs keepAlive ((redirect (path ++ bytes "/")).setBody [])).build ord) ↔
      ¬ blankLine <:+: path := by
  have hslash : bytes "/" = [47] := by decide
  have hsent : finished config fs keepAlive (redirect (path ++ bytes "/")) =
      redirected keepAlive (path ++ bytes "/") := rfl
  have hsent' : finished config fs keepAlive ((redirect (path ++ bytes "/")).setBody []) =
      redirected keepAlive (path ++ bytes "/") := rfl
  have hend : ¬ crlf <:+ path ++ bytes "/" := by
    intro hsuffix
    rw [hslash] at hsuffix
    have hlast := hsuffix.getLast (by decide)
    revert hlast
    simp [crlf]
  have hin : blankLine <:+: path ++ bytes "/" ↔ blankLine <:+: path := by
    constructor
    · intro h
      rw [hslash] at h
      rcases infix_append_cons (by decide) h with h | h
      · exact h
      · exact absurd h (by decide)
    · exact fun h => h.trans (List.prefix_append _ _).isInfix
  rw [hsent, hsent', headOf_self_iff, content_redirected_iff]
  unfold injectedLines
  rw [nil_mem_tail_splitLines_iff hend, hin]

/-- **A refused method** has a status line of its own. -/
theorem not_headOf_refused (ord : HeaderOrder) (text allowed : Bytes) (keepAlive : Bool) :
    ¬ HeadOf ((finished config fs keepAlive (ok text (bytes "text/plain"))).build ord)
      ((finished config fs keepAlive ((methodNotAllowed allowed).setBody [])).build ord) := by
  have hreason : ¬ crlf <:+: bytes "OK" := by decide
  have hreason' : ¬ crlf <:+: bytes "Method Not Allowed" := by decide
  have hline : bytes "HTTP/1.1 " ++ intDecimal 405 ++ bytes " " ++ bytes "Method Not Allowed" ≠
      bytes "HTTP/1.1 " ++ intDecimal 200 ++ bytes " " ++ bytes "OK" := by decide
  apply not_headOf_of_statusLine
  · rw [(finished_status _ _).1]
    exact hreason
  · rw [(finished_status _ _).1]
    exact hreason'
  · rw [(finished_status _ _).2, (finished_status _ _).2]
    exact hline

/-! ## One Request by Both Methods -/

/-- When the response to HEAD is the one to GET without its body: on a file; on a
    redirect, unless its location ends the header block early; on a failure, when
    its error page is an empty file. -/
def HeadFits (router : Router Endpoint) (config : ServerConfig) (fs : FileSystem)
    (request : HttpRequest) : Prop :=
  match router.decision request with
  | .invoke (.files root indexFile) =>
    (Redirects fs root request.path → ¬ blankLine <:+: request.path) ∧
      ∀ status, failure fs root indexFile request.path = some status →
        pageFile config fs status = some []
  | .notFound => pageFile config fs 404 = some []
  | _ => False

/-- The failures are texts of the server's own. -/
theorem failureResponse_own {status : Int} (h : status = 403 ∨ status = 404 ∨ status = 500) :
    (failureResponse status).Own ∧ (failureResponse status).body ≠ [] ∧
      (failureResponse status).statusCode = status := by
  rcases h with rfl | rfl | rfl
  · exact ⟨own_forbidden _, by decide, rfl⟩
  · exact ⟨own_notFound _, by decide, rfl⟩
  · exact ⟨own_internalError _, by decide, rfl⟩

/-- The static handler's responses to the two requests. -/
theorem headOf_files_iff (ord : HeaderOrder) {getTime putTime getTime' putTime' : Time}
    {c c' : LRUCache} (hc : Mirrors fs c) (hc' : Mirrors fs c') (root indexFile : Bytes)
    (request : HttpRequest) (keepAlive : Bool) :
    HeadOf ((finished config fs keepAlive
          (StaticHandler.handle fs getTime putTime request root indexFile (some c)).response).build
          ord)
        ((finished config fs keepAlive ((StaticHandler.handle fs getTime' putTime' (asHead request)
          root indexFile (some c')).response.setBody [])).build ord) ↔
      (Redirects fs root request.path → ¬ blankLine <:+: request.path) ∧
        ∀ status, failure fs root indexFile request.path = some status →
          pageFile config fs status = some [] := by
  by_cases hredirects : Redirects fs root request.path
  · have hredirects' : Redirects fs root (asHead request).path := hredirects
    rw [handle_redirect hredirects, handle_redirect hredirects']
    show HeadOf _ ((finished config fs keepAlive
      ((redirect (request.path ++ bytes "/")).setBody [])).build ord) ↔ _
    rw [headOf_redirect_iff, hredirects.failure_eq]
    constructor
    · exact fun h => ⟨fun _ => h, fun _ hnone => by cases hnone⟩
    · exact fun h => h.1 hredirects
  · cases hfailure : failure fs root indexFile request.path with
    | none =>
      obtain ⟨fsPath, data, hpath, hfile⟩ := exists_served hfailure hredirects
      have hpath' : servedPath fs root indexFile (asHead request).path = some fsPath := hpath
      obtain ⟨x, hx, hresponse⟩ := hc.handle_served hpath hfile
      obtain ⟨x', hx', hresponse'⟩ := hc'.handle_served hpath' hfile
      rw [hresponse, hresponse']
      refine iff_of_true (headOf_file ord fsPath data hx hx' keepAlive) ?_
      exact ⟨fun h => absurd h hredirects, fun _ hnone => by cases hnone⟩
    | some status =>
      have hfailure' : failure fs root indexFile (asHead request).path = some status := hfailure
      obtain ⟨hown, hbody, hcode⟩ := failureResponse_own (failure_cases hfailure)
      rw [hc.handle_failure hfailure, hc'.handle_failure hfailure',
        headOf_failed_iff ord hown hbody, hcode]
      constructor
      · intro h
        refine ⟨fun hredirect => absurd hredirect hredirects, fun status' heq => ?_⟩
        exact Option.some.inj heq ▸ h
      · exact fun h => h.2 status rfl

section

variable {env env' : Surroundings} {s s' : ServerState} {request : HttpRequest}

/-- **The responses to one request by both methods**, from any two states of the server. -/
theorem headOf_respond_iff (hstatic : StaticRoutes router) (hfs : env.fs = fs ∧ env.pageFs = fs)
    (hfs' : env'.fs = fs ∧ env'.pageFs = fs) (hs : Mirrors fs s.cache) (hs' : Mirrors fs s'.cache)
    (hmethod : request.method = bytes "GET") (ord : HeaderOrder) :
    HeadOf (((service router config env).respond request s).1.build ord)
        (((service router config env').respond (asHead request) s').1.build ord) ↔
      HeadFits router config fs request := by
  have hget : ∀ r, headless request r = r := by
    intro r
    unfold headless
    rw [hmethod, if_neg (by decide)]
  have hhead : ∀ r, headless (asHead request) r = r.setBody [] := fun _ => rfl
  have hkeep : (asHead request).wantsKeepAlive = request.wantsKeepAlive := rfl
  rw [respond_finished hfs.1 hfs.2 hs, respond_finished hfs'.1 hfs'.2 hs', hget, hhead, hkeep]
  unfold Router.route HeadFits
  cases hstatic.decided hmethod with
  | files root indexFile hdecision hdecision' =>
    rw [hdecision, hdecision']
    have hresponse : (handleEndpoint env (.files root indexFile) request s).1 =
        (StaticHandler.handle fs env.getTime env.putTime request root indexFile
          (some s.cache)).response := by
      rw [← hfs.1]
      rfl
    have hresponse' : (handleEndpoint env' (.files root indexFile) (asHead request) s').1 =
        (StaticHandler.handle fs env'.getTime env'.putTime (asHead request) root indexFile
          (some s'.cache)).response := by
      rw [← hfs'.1]
      rfl
    dsimp only
    rw [hresponse, hresponse']
    exact headOf_files_iff ord hs hs' root indexFile request request.wantsKeepAlive
  | status endpoint hstatus hdecision hdecision' =>
    rw [hdecision, hdecision']
    -- the status routes refuse HEAD
    have hok : ∃ text, (handleEndpoint env endpoint request s).1 = ok text (bytes "text/plain") := by
      rcases hstatus with rfl | rfl <;> exact ⟨_, rfl⟩
    obtain ⟨text, htext⟩ := hok
    dsimp only
    rw [htext]
    refine iff_of_false (not_headOf_refused ord text (bytes "GET") request.wantsKeepAlive) ?_
    rcases hstatus with rfl | rfl <;> exact fun h => h
  | notFound hdecision hdecision' =>
    rw [hdecision, hdecision']
    exact headOf_failed_iff ord (own_notFound []) (by decide) request.wantsKeepAlive

/-- The status lines of a server's responses to HEAD. -/
def headStatuses : List (Int × Bytes) :=
  [(200, bytes "OK"), (301, bytes "Moved Permanently"), (403, bytes "Forbidden"),
    (404, bytes "Not Found"), (405, bytes "Method Not Allowed"),
    (500, bytes "Internal Server Error")]

theorem route_headStatuses (hstatic : StaticRoutes router) (hmethod : request.method = bytes "GET") :
    ((router.route (handleEndpoint env') (asHead request) s').1.statusCode,
      (router.route (handleEndpoint env') (asHead request) s').1.statusText) ∈ headStatuses := by
  have hstatuses : ∀ st ∈ [((200 : Int), bytes "OK"), (301, bytes "Moved Permanently"),
      (403, bytes "Forbidden"), (404, bytes "Not Found"), (405, bytes "Method Not Allowed"),
      (500, bytes "Internal Server Error")], st ∈ headStatuses := fun _ h => h
  unfold Router.route
  cases hstatic.decided hmethod with
  | files root indexFile _ hdecision' =>
    have hcache : ∀ c ∈ some s'.cache, Filled c := fun c hc => Option.some.inj hc ▸ s'.filled
    have hcase : ResponseCase env'.fs root (asHead request).path
        (handleEndpoint env' (.files root indexFile) (asHead request) s').1 := handle_cases hcache
    rw [hdecision']
    dsimp only
    generalize (handleEndpoint env' (.files root indexFile) (asHead request) s').1 = r at hcase
    cases hcase with
    | forbidden => exact hstatuses (403, bytes "Forbidden") (by simp)
    | redirect _ => exact hstatuses (301, bytes "Moved Permanently") (by simp)
    | file fsPath _ content => exact hstatuses (200, bytes "OK") (by simp)
    | notFound => exact hstatuses (404, bytes "Not Found") (by simp)
    | internalError => exact hstatuses (500, bytes "Internal Server Error") (by simp)
  | status endpoint _ _ hdecision' =>
    rw [hdecision']
    exact hstatuses (405, bytes "Method Not Allowed") (by simp)
  | notFound _ hdecision' =>
    rw [hdecision']
    exact hstatuses (404, bytes "Not Found") (by simp)

/-- No response of the router has the status of the rate limiter. -/
theorem not_headOf_limited (hstatic : StaticRoutes router)
    (hfs' : env'.fs = fs ∧ env'.pageFs = fs) (hs' : Mirrors fs s'.cache)
    (hmethod : request.method = bytes "GET") (ord : HeaderOrder) :
    ¬ HeadOf (Service.tooManyRequests.build ord)
      (((service router config env').respond (asHead request) s').1.build ord) := by
  have hclean : ∀ st ∈ headStatuses, ¬ crlf <:+: st.2 ∧
      bytes "HTTP/1.1 " ++ intDecimal st.1 ++ bytes " " ++ st.2 ≠
        Service.tooManyRequests.statusLine := by decide
  have hraw : ((router.route (handleEndpoint env') (asHead request) s').1.statusCode,
      (router.route (handleEndpoint env') (asHead request) s').1.statusText) ∈ headStatuses :=
    route_headStatuses hstatic hmethod
  obtain ⟨hreason, hline⟩ := hclean _ hraw
  rw [respond_finished hfs'.1 hfs'.2 hs']
  apply not_headOf_of_statusLine
  · exact (by decide : ¬ crlf <:+: bytes "Too Many Requests")
  · rw [(finished_status _ _).1]
    exact hreason
  · rw [(finished_status _ _).2]
    exact hline

end

/-! ## The Queued Bytes -/

/-- The buffer of the connection holds one accepted request. -/
structure Receives (clientIp : Bytes) (conn : Connection) (request : HttpRequest) : Prop where
  done : (({} : HttpParser).parse conn.readBuffer { clientIp := clientIp }).1 = true
  parsed : (({} : HttpParser).parse conn.readBuffer { clientIp := clientIp }).2.2 = request
  valid : request.isValid = true

theorem writeBuffer_allowed {env : Surroundings} {s : ServerState} {clientIp : Bytes}
    {conn : Connection} {request : HttpRequest}
    (h : (s.rateLimiter.isAllowed clientIp env.arrivalTime).1 = true)
    (hreceives : Receives clientIp conn request) :
    (processRequest (service router config env) clientIp conn s).1.writeBuffer =
      ((service router config env).respond request
        ((service router config env).isAllowed clientIp s).2).1.build env.headerOrder := by
  obtain ⟨hdone, hparsed, hvalid⟩ := hreceives
  generalize hresult : ({} : HttpParser).parse conn.readBuffer { clientIp := clientIp } = result
    at hdone hparsed
  obtain ⟨done, parser, parsed⟩ := result
  subst hdone hparsed
  exact (processRequest_accepted (service router config env) h hresult hvalid).1

/-- **The bytes queued for HEAD are those queued for GET without the body exactly when** the
    rate limiter admits both requests and the response is of a kind that has announced its
    length, or has no body, before the body is dropped. -/
theorem headOf_processRequest_iff (srt : RouteSort Endpoint) (config : ServerConfig)
    (upstreams : List Bytes) (fs : FileSystem)
    (hstatic : ∀ loc ∈ config.locations, StaticLocation loc) {env env' : Surroundings}
    (hfs : env.fs = fs ∧ env.pageFs = fs) (hfs' : env'.fs = fs ∧ env'.pageFs = fs)
    (hord : env'.headerOrder = env.headerOrder) {s s' : ServerState}
    (hs : LTS.Reachable (serving (setupRoutes srt config upstreams) config fs) s)
    (hs' : LTS.Reachable (serving (setupRoutes srt config upstreams) config fs) s')
    (clientIp : Bytes) {conn conn' : Connection} {request : HttpRequest}
    (hget : Receives clientIp conn request) (hhead : Receives clientIp conn' (asHead request))
    (hmethod : request.method = bytes "GET") :
    HeadOf
        (processRequest (service (setupRoutes srt config upstreams) config env) clientIp conn
          s).1.writeBuffer
        (processRequest (service (setupRoutes srt config upstreams) config env') clientIp conn'
          s').1.writeBuffer ↔
      (s.rateLimiter.isAllowed clientIp env.arrivalTime).1 = true ∧
        (s'.rateLimiter.isAllowed clientIp env'.arrivalTime).1 = true ∧
          HeadFits (setupRoutes srt config upstreams) config fs request := by
  have hroutes := setupRoutes_static srt upstreams hstatic
  have hmirrors := mirrors_of_reachable hs
  have hmirrors' := mirrors_of_reachable hs'
  generalize setupRoutes srt config upstreams = router at hroutes
  -- the rate limiter leaves the cache alone
  have hadmitted : Mirrors fs ((service router config env).isAllowed clientIp s).2.cache := hmirrors
  have hadmitted' : Mirrors fs ((service router config env').isAllowed clientIp s').2.cache :=
    hmirrors'
  by_cases hallowed' : (s'.rateLimiter.isAllowed clientIp env'.arrivalTime).1 = true
  · rw [writeBuffer_allowed hallowed' hhead, hord]
    by_cases hallowed : (s.rateLimiter.isAllowed clientIp env.arrivalTime).1 = true
    · rw [writeBuffer_allowed hallowed hget,
        headOf_respond_iff hroutes hfs hfs' hadmitted hadmitted' hmethod]
      exact ⟨fun h => ⟨hallowed, hallowed', h⟩, fun h => h.2.2⟩
    · rw [(processRequest_refused (service router config env) hallowed conn).1]
      have hlimited : ¬ HeadOf (Service.tooManyRequests.build env.headerOrder)
          (((service router config env').respond (asHead request)
            ((service router config env').isAllowed clientIp s').2).1.build env.headerOrder) :=
        not_headOf_limited hroutes hfs' hadmitted' hmethod env.headerOrder
      exact iff_of_false hlimited fun h => hallowed h.1
  · -- the text of the rate limiter comes with its body
    rw [(processRequest_refused (service router config env') hallowed' conn').1]
    refine iff_of_false (fun h => ?_) fun h => hallowed' h.2.1
    have hbody : content (Service.tooManyRequests.build env'.headerOrder) = [] := h.noBody
    rw [(own_tooManyRequests.plain.clean.read_build env'.headerOrder).2] at hbody
    exact absurd hbody (by decide : bytes "429 Too Many Requests" ≠ [])

/-- The same request by HEAD. -/
def receivedHead : Connection :=
  { receivedGet with readBuffer := bytes "HEAD / HTTP/1.1\r\nHost: a\r\n\r\n" }

theorem receives_get :
    Receives (bytes "10.0.0.9") receivedGet
      (({} : HttpParser).parse receivedGet.readBuffer { clientIp := bytes "10.0.0.9" }).2.2 :=
  ⟨by decide +kernel, rfl, by decide +kernel⟩

theorem receives_head :
    Receives (bytes "10.0.0.9") receivedHead (asHead
      (({} : HttpParser).parse receivedGet.readBuffer { clientIp := bytes "10.0.0.9" }).2.2) :=
  ⟨by decide +kernel, rfl, by decide +kernel⟩

/-- A root directory with an index file. -/
def indexed : Surroundings :=
  let fs : FileSystem :=
    ⟨fun path => if path = bytes "./www/" then some .directory else some .regular,
      fun _ => some (bytes "hi")⟩
  { oneReply [] with fs := fs, pageFs := fs }

/-- The index file to GET and to HEAD. -/
theorem headOf_processRequest_index :
    HeadOf
        (processRequest (service (setupRoutes RouteSort.insertion {} []) {} indexed)
          (bytes "10.0.0.9") receivedGet started).1.writeBuffer
        (processRequest (service (setupRoutes RouteSort.insertion {} []) {} indexed)
          (bytes "10.0.0.9") receivedHead started).1.writeBuffer ↔
      (started.rateLimiter.isAllowed (bytes "10.0.0.9") 0).1 = true ∧
        (started.rateLimiter.isAllowed (bytes "10.0.0.9") 0).1 = true ∧
          HeadFits (setupRoutes RouteSort.insertion {} []) {} indexed.fs
            (({} : HttpParser).parse receivedGet.readBuffer
              { clientIp := bytes "10.0.0.9" }).2.2 :=
  headOf_processRequest_iff RouteSort.insertion {} [] indexed.fs (fun loc hloc => by cases hloc)
    ⟨rfl, rfl⟩ ⟨rfl, rfl⟩ rfl ⟨started, [], ⟨1024, 60, rfl⟩, LTS.Run.nil⟩
    ⟨started, [], ⟨1024, 60, rfl⟩, LTS.Run.nil⟩ (bytes "10.0.0.9") receives_get receives_head
    (by decide +kernel)

/-- A file that does not exist: the length of the text is announced to GET only. -/
theorem not_headOf_missing :
    ¬ ∀ (srt : RouteSort Endpoint) (config : ServerConfig) (upstreams : List Bytes)
      (env : Surroundings) (clientIp : Bytes) (conn conn' : Connection) (request : HttpRequest),
      (∀ loc ∈ config.locations, StaticLocation loc) → env.pageFs = env.fs →
      Receives clientIp conn request → Receives clientIp conn' (asHead request) →
      request.method = bytes "GET" →
      HeadOf
        (processRequest (service (setupRoutes srt config upstreams) config env) clientIp conn
          started).1.writeBuffer
        (processRequest (service (setupRoutes srt config upstreams) config env) clientIp conn'
          started).1.writeBuffer := by
  intro h
  have hhead := h RouteSort.insertion {} [] (oneReply []) (bytes "10.0.0.9") receivedGet receivedHead
    _ (fun loc hloc => by cases hloc) rfl receives_get receives_head (by decide +kernel)
  have hlines := hhead.headerLines
  revert hlines
  decide +kernel

end Server

end VeloxServe
