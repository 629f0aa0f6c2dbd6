import VeloxServe.Core.ProxyChain
import VeloxServe.Core.RequestRuns
import VeloxServe.Http.RequestText

/-! # Published Files

    From the bytes of a request to the bytes of a file: what the parser, the
    limiter, the router, the path normalisation, the cache and the response
    builder come to together, with any number of proxies in front.

    * **Written requests**: every path has a request that asks for it.
    * **Published**: a file that a route of the router leads to.
    * **Delivery**: whoever asks for a published file reads it in the reply.
-/

namespace VeloxServe

open StdString Message StaticHandler

namespace Server

/-! ## Section 1: Written Requests -/

/-- Letters, digits, and the marks of file names. -/
def isUnreserved (b : UInt8) : Bool :=
  (48 ≤ b && b ≤ 57) || (65 ≤ b && b ≤ 90) || (97 ≤ b && b ≤ 122) ||
    b = 45 || b = 46 || b = 47 || b = 95 || b = 126

def hexDigit (n : UInt8) : UInt8 := if n < 10 then 48 + n else 55 + n

/-- A path as a target: everything else is written as `%XX`. -/
def escape (path : Bytes) : Bytes :=
  path.flatMap fun b => if isUnreserved b then [b] else [37, hexDigit (b / 16), hexDigit (b % 16)]

theorem standsForItself_of_isUnreserved {b : UInt8} (h : isUnreserved b = true) :
    StandsForItself b := by
  have hall : ∀ b, isUnreserved b = true →
      isSpace b = false ∧ (32 < b ∧ b ≠ 127) ∧ b ≠ 37 ∧ b ≠ 43 ∧ b ≠ 63 := by decide +kernel
  obtain ⟨hspace, hprintable, hunreserved⟩ := hall b h
  exact ⟨hspace, hprintable, hunreserved⟩

theorem hexDigit_spec : ∀ b : UInt8, isXDigit (hexDigit (b / 16)) = true ∧
    isXDigit (hexDigit (b % 16)) = true ∧
    16 * hexValue (hexDigit (b / 16)) + hexValue (hexDigit (b % 16)) = b := by
  decide +kernel

/-- **The parser undoes it.** -/
theorem escaped_escape (path : Bytes) : Escaped path (escape path) := by
  induction path with
  | nil => exact .nil
  | cons b path ih =>
    have hcons : escape (b :: path) =
        (if isUnreserved b then [b] else [37, hexDigit (b / 16), hexDigit (b % 16)]) ++ escape path :=
      rfl
    rw [hcons]
    by_cases hplain : isUnreserved b = true
    · rw [if_pos hplain]
      exact .literal (standsForItself_of_isUnreserved hplain) ih
    · rw [if_neg hplain]
      obtain ⟨hhigh, hlow, hvalue⟩ := hexDigit_spec b
      have hescape := Escaped.escape hhigh hlow ih
      rw [hvalue] at hescape
      exact hescape

theorem isVersion_http10 : IsVersion (bytes "HTTP/1.0") := .inr rfl

/-- `GET PATH HTTP/1.0`. -/
def fetch (path : Bytes) (h : path.head? = some 47) : RequestText where
  method := bytes "GET"
  path := path
  writtenPath := escape path
  mark := false
  query := []
  version := bytes "HTTP/1.0"
  headers := []
  body := []
  method_valid := by decide
  version_valid := isVersion_http10
  path_slash := h
  path_escaped := escaped_escape path
  query_plain := List.forall_mem_nil _
  query_marked := fun _ => rfl
  headers_text := List.forall_mem_nil _
  headers_distinct := List.nodup_nil
  length_announced := fun _ hkv => absurd hkv List.not_mem_nil
  length_absent := fun _ => rfl
  length_fits := by decide

/-- A GET request without headers. -/
def plainGet (path : Bytes) : HttpRequest := { method := bytes "GET", path := path }

/-- **Written requests** are read as they are meant. -/
theorem asks_fetch {path : Bytes} (h : path.head? = some 47) :
    Asks (fetch path h).text (plainGet path) := by
  have hparse := parse_writeLines (fetch path h).not_infix_requestLine
    (fetch path h).parseRequestLine_eq (List.forall_mem_nil _) []
  have htext : (fetch path h).text = writeLines [(fetch path h).requestLine] ++ crlf ++ [] := rfl
  have hlength :
      HttpParser.headerContentLength { plainGet path with version := bytes "HTTP/1.0" } = 0 := rfl
  rw [← htext] at hparse
  have hbody := HttpParser.parseBody_enough { plainGet path with version := bytes "HTTP/1.0" }
    (Nat.zero_le ([] : Bytes).length)
  rw [← hlength] at hbody
  have hread := hparse.trans hbody
  constructor
  · rw [hread]
  · rw [hread]
  · rw [hread]
    exact ⟨rfl, rfl, rfl, rfl, fun _ _ => rfl⟩

/-! ## Section 2: Published -/

/-- A path, the file it stands for, and what is in it. -/
structure Publishes (router : Router Endpoint) (fs : FileSystem) (path fsPath content : Bytes) :
    Prop where
  routed : ∃ r root indexFile, matched router path = some r ∧
    (r.allowedMethods = [] ∨ bytes "GET" ∈ r.allowedMethods) ∧
    r.handler = .files root indexFile ∧ servedPath fs root indexFile path = some fsPath
  file : fileAt fs fsPath = some content

/-- The requests of a run see these files. -/
def ServerEvent.Sees (fs : FileSystem) : ServerEvent → Prop
  | .request env _ _ => env.fs = fs ∧ env.pageFs = fs
  | .cleanup _ => True
  | .check _ _ _ => True

variable {router : Router Endpoint} {config : ServerConfig} {fs : FileSystem}

theorem machine_step_mirrors {s : ServerState} {event : ServerEvent} (h : Mirrors fs s.cache)
    (hsees : event.Sees fs) : Mirrors fs ((machine router config).step s event).2.cache := by
  cases event with
  | request env clientIp conn =>
    exact (service_keeps_mirrors hsees.1 hsees.2).processRequest clientIp conn h
  | cleanup now => exact h
  | check upstreamName backend alive => exact h

/-- **Run lemma**: the cache mirrors the files, whatever has happened to the server. -/
theorem mirrors_of_run {s : ServerState} {maxSizeBytes : Nat} {ttlSeconds : Int}
    (hstart : s.cache = LRUCache.create maxSizeBytes ttlSeconds) {events : List ServerEvent}
    (hsees : ∀ event ∈ events, event.Sees fs) :
    Mirrors fs ((machine router config).run s events).2.cache := by
  have hinit : Mirrors fs s.cache := by
    rw [hstart]
    exact mirrors_create fs maxSizeBytes ttlSeconds
  have hstep : ∀ s event, Mirrors fs s.cache → event.Sees fs →
      Mirrors fs ((machine router config).step s event).2.cache :=
    fun _ _ => machine_step_mirrors
  exact (machine router config).run_invariant_on hstep s events hinit hsees

/-! ## Section 3: Delivery -/

variable {site : Hop} {path fsPath content : Bytes}

theorem respond_file {s : ServerState} {env : Surroundings} (hfs : env.fs = fs)
    (hpage : env.pageFs = fs) (h : Mirrors fs s.cache) {request : HttpRequest}
    (hmethod : request.method = bytes "GET") {contentType xCache : Bytes}
    (hrouted : (router.route (handleEndpoint env) request s).1 =
      fileResponse contentType xCache content) :
    ((service router config env).respond request s).1 =
      withKeepAlive request.wantsKeepAlive (fileResponse contentType xCache content) := by
  have hnotHead : request.method ≠ bytes "HEAD" := by
    rw [hmethod]
    decide
  have hnoPage : pageFile config fs (fileResponse contentType xCache content).statusCode = none := rfl
  rw [respond_finished hfs hpage h, hrouted]
  unfold headless finished
  rw [if_neg hnotHead, hnoPage]

/-- The response is made of the file alone, not of the request. -/
theorem Publishes.route_eq {env : Surroundings} (h : Publishes router env.fs path fsPath content)
    {request : HttpRequest} (hmethod : request.method = bytes "GET") (hpath : request.path = path)
    (s : ServerState) :
    (router.route (handleEndpoint env) request s).1 =
      (serveFile env.fs env.getTime env.putTime fsPath (some s.cache)).response := by
  obtain ⟨r, root, indexFile, hmatched, hmethods, hfiles, hserved⟩ := h.routed
  rw [← hpath] at hmatched hserved
  rw [← hmethod] at hmethods
  rw [route_of_matched hmatched hmethods, hfiles]
  exact handle_of_servedPath hserved (some s.cache)

theorem Publishes.response_eq (h : Publishes router fs path fsPath content) {c : LRUCache}
    (hmirrors : Mirrors fs c) (getTime putTime : Time) :
    ∃ xCache, (xCache = bytes "HIT" ∨ xCache = bytes "MISS") ∧
      (serveFile fs getTime putTime fsPath (some c)).response =
        fileResponse (getMimeType fsPath) xCache content := by
  obtain ⟨r, root, indexFile, -, -, -, hserved⟩ := h.routed
  have hplace : servedPath fs root indexFile (plainGet path).path = some fsPath := hserved
  have hanswer : ∃ xCache, (xCache = bytes "HIT" ∨ xCache = bytes "MISS") ∧
      (StaticHandler.handle fs getTime putTime (plainGet path) root indexFile (some c)).response =
        fileResponse (getMimeType fsPath) xCache content :=
    hmirrors.handle_served hplace h.file
  rw [handle_of_servedPath hplace] at hanswer
  exact hanswer

/-- A file is as plain as the names of its headers, and keep-alive changes nothing about it. -/
theorem tells_file (fsPath content : Bytes) {xCache : Bytes}
    (hx : xCache = bytes "HIT" ∨ xCache = bytes "MISS") (keepAlive : Bool) (ord : HeaderOrder) :
    Tells (fileResponse (getMimeType fsPath) xCache content)
      ((withKeepAlive keepAlive (fileResponse (getMimeType fsPath) xCache content)).build ord) := by
  have hnoCrlf : ¬ crlf <:+: xCache := by
    rcases hx with rfl | rfl
    · decide
    · decide
  have hplain := fileResponse_plain fsPath hnoCrlf content
  have hcode : -2 ^ 31 ≤ (200 : Int) ∧ (200 : Int) < 2 ^ 31 := by decide
  refine Tells.of_build (withKeepAlive_plain hplain keepAlive) ?_ hcode ord
  have hsame := SameAnswer.refl (fileResponse (getMimeType fsPath) xCache content)
  unfold withKeepAlive
  split
  · exact hsame.setHeader (by decide) _
  · exact hsame

/-- **At the site**: everyone who asks is answered alike. -/
theorem Publishes.answersAs (h : Publishes site.router site.env.fs path fsPath content)
    (hmirrors : Mirrors site.env.fs site.state.cache) (hpage : site.env.pageFs = site.env.fs)
    (hadmits : (site.state.rateLimiter.isAllowed site.clientIp site.env.arrivalTime).1 = true) :
    ∃ xCache, (xCache = bytes "HIT" ∨ xCache = bytes "MISS") ∧
      ∀ req : HttpRequest, req.method = bytes "GET" → req.path = path →
        AnswersAs (fun message reply => reply = site.answers message) req
          (fileResponse (getMimeType fsPath) xCache content) := by
  have hcharged : Mirrors site.env.fs site.charged.cache := hmirrors
  obtain ⟨xCache, hx, hfile⟩ := h.response_eq hcharged site.env.getTime site.env.putTime
  refine ⟨xCache, hx, ?_⟩
  intro req hmethod hpath message reply hasks hreply
  have hsame := site.request_same hasks
  have hget : (site.request message).method = bytes "GET" := hsame.method.trans hmethod
  have hrouted := h.route_eq hget (hsame.path.trans hpath) site.charged
  rw [hfile] at hrouted
  have hresponse : ((service site.router site.config site.env).respond (site.request message)
      site.charged).1 = withKeepAlive (site.request message).wantsKeepAlive
        (fileResponse (getMimeType fsPath) xCache content) :=
    respond_file rfl hpage hcharged hget hrouted
  rw [hreply, site.answers_of_asks hasks hadmits, hresponse]
  exact tells_file fsPath content hx _ _

/-- **Delivery**: while the files stay as they are, whatever has happened to a site before and
    whatever proxies stand in front of it, everyone who asks for a published file reads it in
    the reply; and every path can be asked for. -/
theorem file_delivered {site : Hop} {path fsPath content : Bytes} (hslash : path.head? = some 47)
    (hpublished : Publishes site.router site.env.fs path fsPath content)
    (hpage : site.env.pageFs = site.env.fs)
    (hadmits : (site.state.rateLimiter.isAllowed site.clientIp site.env.arrivalTime).1 = true)
    {s₀ : ServerState} {maxSizeBytes : Nat} {ttlSeconds : Int}
    (hstart : s₀.cache = LRUCache.create maxSizeBytes ttlSeconds) {events : List ServerEvent}
    (hsees : ∀ event ∈ events, event.Sees site.env.fs)
    (hstate : site.state = ((machine site.router site.config).run s₀ events).2) :
    Asks (fetch path hslash).text (plainGet path) ∧
    ∃ xCache, (xCache = bytes "HIT" ∨ xCache = bytes "MISS") ∧
      ∀ req : HttpRequest, req.method = bytes "GET" → req.path = path →
        ∀ hops : List Hop, (hops = [] ∨ ProxyHandler.ReadsBack path) →
          (∀ hop ∈ hops, hop.Relays req 200) →
            ∀ message reply, Asks message req →
              chain (fun message reply => reply = site.answers message) hops message reply →
                SameAnswer (fileResponse (getMimeType fsPath) xCache content)
                  (ProxyHandler.parseBackendResponse reply) := by
  have hmirrors : Mirrors site.env.fs site.state.cache := by
    rw [hstate]
    exact mirrors_of_run hstart hsees
  obtain ⟨xCache, hx, hsite⟩ := hpublished.answersAs hmirrors hpage hadmits
  refine ⟨asks_fetch hslash, xCache, hx, ?_⟩
  intro req hmethod hpath hops hreads hrelays message reply hasks hchain
  have hcode : -2 ^ 31 ≤ (200 : Int) ∧ (200 : Int) < 2 ^ 31 := by decide
  have hnotHead : req.method ≠ bytes "HEAD" := by
    rw [hmethod]
    decide
  rw [← hpath] at hreads
  have hrow := (hsite req hmethod hpath).behind hcode (fun h => absurd h hnotHead) hreads hrelays
  exact (hrow message reply hasks hchain).same

/-- One file, at `/a` of a server without locations. -/
def siteFiles : FileSystem where
  stat := fun path => if path = bytes "./www/a" then some .regular else none
  content := fun path => if path = bytes "./www/a" then some (bytes "hi\n") else none

def siteSurroundings : Surroundings :=
  { quietSurroundings with fs := siteFiles, pageFs := siteFiles }

/-- A server that has been asked for the file once. -/
def askedSite : Hop where
  router := setupRoutes RouteSort.insertion {} []
  config := {}
  env := siteSurroundings
  state := ((machine (setupRoutes RouteSort.insertion {} []) {}).run slowServer
    [.request siteSurroundings (bytes "10.0.0.8")
      { fd := 6, readBuffer := bytes "GET /a HTTP/1.1\r\nHost: a\r\n\r\n", lastActivity := 0 }]).2
  conn := { fd := 5, lastActivity := 0 }
  clientIp := bytes "10.0.0.9"
  url := []

theorem slash_a : (bytes "/a").head? = some 47 := by decide

/-- A proxy in front of it. -/
def frontHop : Hop :=
  passing (askedSite.answers ((passing []).forwards (fetch (bytes "/a") slash_a).text))

/-- The second request, through the proxy. -/
theorem file_delivered_behind : ∃ xCache,
    SameAnswer (fileResponse (getMimeType (bytes "./www/a")) xCache (bytes "hi\n"))
      (ProxyHandler.parseBackendResponse (frontHop.answers (fetch (bytes "/a") slash_a).text)) := by
  have hpublished : Publishes askedSite.router askedSite.env.fs (bytes "/a")
      (bytes "./www/a") (bytes "hi\n") := by
    refine ⟨⟨⟨bytes "/", .files (bytes "./www") (bytes "index.html"), [bytes "GET", bytes "HEAD"]⟩,
      _, _, rfl, .inr (by decide), rfl, ?_⟩, ?_⟩
    · decide +kernel
    · decide +kernel
  have hsent : 0 < ((passing []).forwards (fetch (bytes "/a") slash_a).text).length ∧
      ((passing []).forwards (fetch (bytes "/a") slash_a).text).length ≤ 4096 := by
    decide +kernel
  have hreads : ProxyHandler.ReadsBack (bytes "/a") := ⟨by decide +kernel, by decide +kernel⟩
  have hsees : ∀ event ∈ [ServerEvent.request siteSurroundings (bytes "10.0.0.8")
      { fd := 6, readBuffer := bytes "GET /a HTTP/1.1\r\nHost: a\r\n\r\n", lastActivity := 0 }],
      event.Sees askedSite.env.fs := by
    intro event hevent
    rw [List.mem_singleton.mp hevent]
    exact ⟨rfl, rfl⟩
  obtain ⟨hasks, xCache, -, hdelivered⟩ := file_delivered slash_a hpublished rfl
    (by decide +kernel) (rfl : slowServer.cache = LRUCache.create 1024 60) hsees rfl
  have hforwards : frontHop.forwards (fetch (bytes "/a") slash_a).text =
      (passing []).forwards (fetch (bytes "/a") slash_a).text := passing_forwards _ _
  refine ⟨xCache, hdelivered (plainGet (bytes "/a")) rfl rfl [frontHop] (.inr hreads) ?_ _ _ hasks ?_⟩
  · intro hop hhop
    rw [List.mem_singleton.mp hhop]
    exact passing_relays _ rfl _
  · refine ⟨askedSite.answers ((passing []).forwards (fetch (bytes "/a") slash_a).text), ?_, ?_, rfl⟩
    · rw [hforwards]
      rfl
    · rw [hforwards]
      exact passing_carries (askedSite.answers_ne_nil _) hsent.1 hsent.2

end Server

end VeloxServe
