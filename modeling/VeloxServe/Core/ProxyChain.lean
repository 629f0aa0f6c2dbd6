import VeloxServe.Core.ServerPersistence
import VeloxServe.Http.RouteSelection
import VeloxServe.Modules.ResponseRoundTrip

/-! # Proxies in a Row

    Servers that pass a request on to one another, up to an origin server of any
    kind. Each of them reads a message with `HttpParser`, writes another one with
    `build_backend_request`, reads the reply with `parse_backend_response` and
    writes its own with `build`.

    * **Hops**: what one server makes of a message, and of the reply to the
      message it sends on.
    * **Same answer**: two responses with the same status, reason, body and
      headers, apart from those each server sets for the next one.
    * **Transparency**: a row of proxies of any length gives the answer that its
      origin gives, as `parse_backend_response` reads it: of header lines with one
      name the last, and with the headers that `build` adds where they are missing.
-/

namespace VeloxServe

open StdString Message HttpResponse

namespace Server

/-! ## Section 1: Hops -/

/-- A server that passes a request on, at the moment it does. -/
structure Hop where
  router : Router Endpoint
  config : ServerConfig
  env : Surroundings
  state : ServerState
  /-- The connection the message has come in on. -/
  conn : Connection
  /-- Who has sent it. -/
  clientIp : Bytes
  /-- The backend. -/
  url : Bytes

namespace Hop

/-- The request, as it is read. -/
def request (hop : Hop) (message : Bytes) : HttpRequest :=
  (({} : HttpParser).parse message { clientIp := hop.clientIp }).2.2

/-- What is sent to the backend. -/
def forwards (hop : Hop) (message : Bytes) : Bytes :=
  let backend := BackendAddr.parse hop.url
  let hostHeader := backend.host ++ bytes ":" ++ intDecimal backend.port
  ProxyHandler.buildBackendRequest hop.env.headerOrder (hop.request message) hostHeader hop.clientIp

/-- What is written to the sender. -/
def answers (hop : Hop) (message : Bytes) : Bytes :=
  (processRequest (service hop.router hop.config hop.env) hop.clientIp
    { hop.conn with readBuffer := message } hop.state).1.writeBuffer

/-- The server once its limiter has been asked. -/
def charged (hop : Hop) : ServerState :=
  { hop.state with
    rateLimiter := (hop.state.rateLimiter.isAllowed hop.clientIp hop.env.arrivalTime).2 }

/-- The connection to the backend takes all of a message and gives all of a reply, in some
    pieces, before it is closed. -/
structure Carries (hop : Hop) (sent reply : Bytes) : Prop where
  sends : ProxyHandler.sendAll hop.env.socket.sends sent.length = true
  receives : ∃ (pieces : List Bytes) (rest : List (Option Bytes)),
    hop.env.socket.recvs = pieces.map some ++ some [] :: rest ∧ [] ∉ pieces ∧
    pieces.flatten = reply

/-- A request is passed on, and the status of its response brings no page of the server's own. -/
structure Relays (hop : Hop) (req : HttpRequest) (status : Int) : Prop where
  admits : (hop.state.rateLimiter.isAllowed hop.clientIp hop.env.arrivalTime).1 = true
  routed : ∃ r, matched hop.router req.path = some r ∧
    (r.allowedMethods = [] ∨ req.method ∈ r.allowedMethods) ∧
    target r.handler hop.state = some hop.url
  connects : ProxyHandler.connectToBackend hop.env.socket (BackendAddr.parse hop.url).host
    (BackendAddr.parse hop.url).port = true
  oneLine : ProxyHandler.IsLine hop.clientIp ∧ ProxyHandler.IsLine hop.url
  noPage : 400 ≤ status → hop.config.errorPages status = none

end Hop

/-- A message that is read as this request, apart from the headers proxies set themselves. -/
structure Asks (message : Bytes) (req : HttpRequest) : Prop where
  done : (({} : HttpParser).parse message {}).1 = true
  isValid : (({} : HttpParser).parse message {}).2.2.isValid = true
  same : ProxyHandler.SameRequest req (({} : HttpParser).parse message {}).2.2

/-- Servers in a row: the first one has the message, the others what the one before them sends.
    `origin` relates messages to the replies of the last one. -/
def chain (origin : Bytes → Bytes → Prop) : List Hop → Bytes → Bytes → Prop
  | [], message, reply => origin message reply
  | hop :: hops, message, reply =>
    ∃ inner, chain origin hops (hop.forwards message) inner ∧
      hop.Carries (hop.forwards message) inner ∧ reply = hop.answers message

/-! ## Section 2: Same Answer -/

/-- The value a header has when the response is built. -/
def sentHeader (r : HttpResponse) (k : Bytes) : Option Bytes :=
  (r.headers.lookup k).or (r.addedHeaders.lookup k)

/-- The headers servers set for one another. -/
def hopNames : List Bytes := [bytes "Connection", bytes "X-Proxy"]

/-- Values may have other blanks in front. -/
structure SameAnswer (r r' : HttpResponse) : Prop where
  statusCode : r'.statusCode = r.statusCode
  statusText : r'.statusText = r.statusText
  body : r'.body = r.body
  headers : ∀ k ∉ hopNames, (sentHeader r' k).map ProxyHandler.withoutIndent =
    (sentHeader r k).map ProxyHandler.withoutIndent

/-- A reply that a proxy reads as the answer `r`, whoever has written it. -/
structure Tells (r : HttpResponse) (reply : Bytes) : Prop where
  nonempty : reply ≠ []
  same : SameAnswer r (ProxyHandler.parseBackendResponse reply)

/-- Whoever asks this is answered like that. -/
def AnswersAs (server : Bytes → Bytes → Prop) (req : HttpRequest) (r : HttpResponse) : Prop :=
  ∀ message reply, Asks message req → server message reply → Tells r reply

theorem SameAnswer.refl (r : HttpResponse) : SameAnswer r r := ⟨rfl, rfl, rfl, fun _ _ => rfl⟩

theorem SameAnswer.trans {r r' r'' : HttpResponse} (h : SameAnswer r r') (h' : SameAnswer r' r'') :
    SameAnswer r r'' where
  statusCode := h'.statusCode.trans h.statusCode
  statusText := h'.statusText.trans h.statusText
  body := h'.body.trans h.body
  headers := fun k hk => (h'.headers k hk).trans (h.headers k hk)

/-! ### Headers of Built Responses -/

theorem lookup_unlessSet (r : HttpResponse) (name value k : Bytes) :
    (if name ∈ r.headers then [] else [(name, value)]).lookup k =
      if k = name ∧ k ∉ r.headers then some value else none := by
  by_cases hname : k = name
  · subst hname
    by_cases hmem : k ∈ r.headers
    · simp [hmem]
    · simp [hmem]
  · have hne : (k == name) = false := beq_eq_false_iff_ne.mpr hname
    split
    · simp [hname]
    · simp [List.lookup_cons, hne, hname]

theorem lookup_addedHeaders (r : HttpResponse) (k : Bytes) :
    r.addedHeaders.lookup k =
      if k ∈ r.headers then none
      else if k = bytes "Content-Length" then some (decimal r.body.length)
      else if k = bytes "Server" then some (bytes "VeloxServe/1.0")
      else if k = bytes "Connection" then some (bytes "close")
      else none := by
  unfold addedHeaders
  rw [List.lookup_append, List.lookup_append, lookup_unlessSet, lookup_unlessSet, lookup_unlessSet]
  by_cases hmem : k ∈ r.headers
  · simp [hmem]
  · simp only [hmem, not_false_eq_true, and_true, if_false]
    split_ifs <;> rfl

theorem sentHeader_of_mem {r : HttpResponse} {k v : Bytes} (h : r.headers.lookup k = some v) :
    sentHeader r k = some v := by
  unfold sentHeader
  rw [h]
  rfl

theorem sentHeader_of_not_mem {r : HttpResponse} {k : Bytes} (h : k ∉ r.headers) :
    sentHeader r k = r.addedHeaders.lookup k := by
  have hnone : r.headers.lookup k = none := AList.lookup_eq_none.mpr h
  unfold sentHeader
  rw [hnone]
  rfl

/-- Setting a header leaves the others as they are. -/
theorem sentHeader_setHeader (r : HttpResponse) {key k : Bytes} (value : Bytes) (hne : k ≠ key) :
    sentHeader (r.setHeader key value) k = sentHeader r k := by
  have hmem : k ∈ (r.setHeader key value).headers ↔ k ∈ r.headers := by
    rw [setHeader_headers, UnorderedMap.mem_set]
    exact or_iff_right hne
  have hlook : (r.setHeader key value).headers.lookup k = r.headers.lookup k := by
    rw [setHeader_headers, UnorderedMap.lookup_set_ne value _ hne]
  by_cases h : k ∈ r.headers
  · obtain ⟨v, hv⟩ := Option.isSome_iff_exists.mp (AList.lookup_isSome.mpr h)
    rw [sentHeader_of_mem hv, sentHeader_of_mem (hlook.trans hv)]
  · rw [sentHeader_of_not_mem h, sentHeader_of_not_mem (fun hin => h (hmem.mp hin)),
      lookup_addedHeaders, lookup_addedHeaders, if_neg h, if_neg fun hin => h (hmem.mp hin)]
    rfl

theorem SameAnswer.setHeader {r r' : HttpResponse} (h : SameAnswer r r') {key : Bytes}
    (hkey : key ∈ hopNames) (value : Bytes) : SameAnswer r (r'.setHeader key value) where
  statusCode := h.statusCode
  statusText := h.statusText
  body := h.body
  headers := by
    intro k hk
    have hne : k ≠ key := fun heq => hk (heq ▸ hkey)
    rw [sentHeader_setHeader r' value hne]
    exact h.headers k hk

/-- **A built response gives the same answer when it has been read.** -/
theorem sameAnswer_readBack {r back : HttpResponse} (h : ProxyHandler.ReadBackFrom r back) :
    SameAnswer r back where
  statusCode := h.statusCode
  statusText := h.statusText
  body := h.body
  headers := by
    intro k _
    cases hsent : sentHeader r k with
    | none =>
      have hnot : k ∉ r.headers := by
        intro hmem
        obtain ⟨v, hv⟩ := Option.isSome_iff_exists.mp (AList.lookup_isSome.mpr hmem)
        rw [sentHeader_of_mem hv] at hsent
        cases hsent
      rw [sentHeader_of_not_mem hnot, lookup_addedHeaders, if_neg hnot] at hsent
      split_ifs at hsent with hlength hserver hconnection
      have hnot' : k ∉ back.headers := by
        intro hmem
        rcases (h.names k).mp hmem with hmem | hmem | hmem | hmem
        · exact hnot hmem
        · exact hlength hmem
        · exact hserver hmem
        · exact hconnection hmem
      rw [sentHeader_of_not_mem hnot', lookup_addedHeaders, if_neg hnot', if_neg hlength,
        if_neg hserver, if_neg hconnection]
    | some v =>
      have hset : r.headers.lookup k = some v ∨ (k, v) ∈ r.addedHeaders := by
        by_cases hmem : k ∈ r.headers
        · obtain ⟨w, hw⟩ := Option.isSome_iff_exists.mp (AList.lookup_isSome.mpr hmem)
          rw [sentHeader_of_mem hw] at hsent
          exact .inl (hw.trans hsent)
        · rw [sentHeader_of_not_mem hmem] at hsent
          obtain ⟨front, back, hsplit, -⟩ := List.lookup_eq_some_iff.mp hsent
          rw [hsplit]
          exact .inr (List.mem_append_right _ List.mem_cons_self)
      obtain ⟨v', hlook, hindent⟩ := h.values k v hset
      rw [sentHeader_of_mem hlook]
      exact congrArg some hindent

/-- What a server of this kind writes is read so. -/
theorem Tells.of_build {r r' : HttpResponse} (hplain : r'.Plain) (hsame : SameAnswer r r')
    (hcode : -2 ^ 31 ≤ r.statusCode ∧ r.statusCode < 2 ^ 31) (ord : HeaderOrder) :
    Tells r (r'.build ord) := by
  rw [← hsame.statusCode] at hcode
  exact ⟨build_ne_nil ord r',
    hsame.trans (sameAnswer_readBack (ProxyHandler.readBack_plain ord hplain hcode.1 hcode.2))⟩

/-! ## Section 3: One Hop -/

/-- The loop of `recv` puts the pieces together. -/
theorem receiveAll_pieces {pieces : List Bytes} (h : [] ∉ pieces) (rest : List (Option Bytes)) :
    ProxyHandler.receiveAll (pieces.map some ++ some [] :: rest) = pieces.flatten := by
  induction pieces with
  | nil => rfl
  | cons piece pieces ih =>
    have hne : piece ≠ [] := fun heq => h (heq ▸ List.mem_cons_self)
    have hrest := ih fun hmem => h (List.mem_cons_of_mem _ hmem)
    rw [List.map_cons, List.cons_append, List.flatten_cons, ← hrest]
    exact if_neg hne

theorem isLine_host {url : Bytes} (h : ProxyHandler.IsLine url) :
    ProxyHandler.IsLine ((BackendAddr.parse url).host ++ bytes ":" ++
      intDecimal (BackendAddr.parse url).port) := by
  -- the host is a part of the URL, or the loopback address
  have hhost : ∀ b, b ∈ (BackendAddr.parse url).host → b ∈ url ∨ b ∈ bytes "127.0.0.1" := by
    intro b hb
    have hdrop : ∀ b, b ∈ (if find (bytes "http://") url = some 0 then url.drop 7 else url) →
        b ∈ url := by
      intro b hb
      split at hb
      · exact List.mem_of_mem_drop hb
      · exact hb
    unfold BackendAddr.parse at hb
    dsimp only at hb
    generalize (if find (bytes "http://") url = some 0 then url.drop 7 else url) = part at hb hdrop
    cases hfind : find (bytes ":") part with
    | none =>
      rw [hfind] at hb
      dsimp only at hb
      split at hb
      · exact .inr hb
      · exact .inl (hdrop b hb)
    | some colon =>
      rw [hfind] at hb
      dsimp only at hb
      split at hb
      · exact .inr hb
      · exact .inl (hdrop b (List.mem_of_mem_take hb))
  have hno : ∀ c : UInt8, c ∉ url → c ∉ bytes "127.0.0.1" → c ∉ bytes ":" →
      (∀ i : Int, c ∉ intDecimal i) → c ∉ (BackendAddr.parse url).host ++ bytes ":" ++
        intDecimal (BackendAddr.parse url).port := by
    intro c hurl hloop hcolon hdecimal hmem
    rcases List.mem_append.mp hmem with hmem | hmem
    · rcases List.mem_append.mp hmem with hmem | hmem
      · rcases hhost c hmem with hmem | hmem
        · exact hurl hmem
        · exact hloop hmem
      · exact hcolon hmem
    · exact hdecimal _ hmem
  exact ⟨hno 13 h.1 (by decide) (by decide) fun i hmem => absurd (mem_intDecimal hmem) (by decide),
    hno 10 h.2 (by decide) (by decide) fun i hmem => absurd (mem_intDecimal hmem) (by decide)⟩

namespace Hop

variable {hop : Hop} {message : Bytes} {req : HttpRequest}

theorem parse_clientIp (hop : Hop) (message : Bytes) :
    ({} : HttpParser).parse message { clientIp := hop.clientIp } =
      ((({} : HttpParser).parse message {}).1, (({} : HttpParser).parse message {}).2.1,
        (({} : HttpParser).parse message {}).2.2.withIp hop.clientIp) :=
  HttpParser.parse_withIp hop.clientIp {} message {}

theorem request_same (hop : Hop) (h : Asks message req) :
    ProxyHandler.SameRequest req (hop.request message) := by
  unfold request
  rw [hop.parse_clientIp message]
  exact ⟨h.same.method, h.same.path, h.same.queryString, h.same.body, h.same.headers⟩

theorem request_accepted (hop : Hop) (h : Asks message req) : Accepted (hop.request message) := by
  refine Accepted.of_parse ?_ ?_
  · rw [hop.parse_clientIp message]
    exact h.done
  · rw [hop.parse_clientIp message]
    exact h.isValid

theorem request_clientIp (hop : Hop) (message : Bytes) :
    (hop.request message).clientIp = hop.clientIp := by
  unfold request
  rw [hop.parse_clientIp message]
  rfl

/-- **The backend is asked the same.** -/
theorem Relays.asks {status : Int} (h : hop.Relays req status) (hasks : Asks message req)
    (hreads : ProxyHandler.ReadsBack req.path) : Asks (hop.forwards message) req := by
  have hsame := hop.request_same hasks
  have hwell := (hop.request_accepted hasks).wellFormed
  rw [← hsame.path] at hreads
  have hforwarded := ProxyHandler.forwarded_of_readsBack hop.env.headerOrder hwell
    (isLine_host h.oneLine.2) h.oneLine.1 hreads
  have hmessage : hop.forwards message = ProxyHandler.buildBackendRequest hop.env.headerOrder
      (hop.request message) ((BackendAddr.parse hop.url).host ++ bytes ":" ++
        intDecimal (BackendAddr.parse hop.url).port) hop.clientIp := rfl
  rw [← hmessage] at hforwarded
  refine ⟨hforwarded.done, hforwarded.isValid, ?_⟩
  have hnext := hforwarded.same
  exact ⟨hnext.method.trans hsame.method, hnext.path.trans hsame.path,
    hnext.queryString.trans hsame.queryString, hnext.body.trans hsame.body,
    fun k hk => (hnext.headers k hk).trans (hsame.headers k hk)⟩

/-- What is written is the response to the request, as it is read. -/
theorem answers_of_asks (hop : Hop) (hasks : Asks message req)
    (hadmits : (hop.state.rateLimiter.isAllowed hop.clientIp hop.env.arrivalTime).1 = true) :
    hop.answers message =
      ((service hop.router hop.config hop.env).respond (hop.request message) hop.charged).1.build
        hop.env.headerOrder := by
  have hparsed : ({} : HttpParser).parse message { clientIp := hop.clientIp } =
      (true, (({} : HttpParser).parse message {}).2.1, hop.request message) := by
    unfold request
    rw [hop.parse_clientIp message, hasks.done]
  have hvalid : (hop.request message).isValid = true := by
    unfold request
    rw [hop.parse_clientIp message]
    exact hasks.isValid
  unfold answers
  exact (processRequest_accepted (service hop.router hop.config hop.env) hadmits hparsed hvalid).1

/-- The bytes received are the reply. -/
theorem Relays.reply_eq {status : Int} (h : hop.Relays req status) {inner : Bytes}
    (hcarries : hop.Carries (hop.forwards message) inner) (hne : inner ≠ []) :
    ProxyHandler.reply hop.env.headerOrder hop.env.socket (hop.request message) hop.url
      (hop.request message).clientIp = some inner := by
  obtain ⟨pieces, rest, hrecvs, hnot, hflat⟩ := hcarries.receives
  have hall : ProxyHandler.sendAndReceive hop.env.socket (hop.forwards message) = inner := by
    unfold ProxyHandler.sendAndReceive
    rw [if_pos hcarries.sends, hrecvs, receiveAll_pieces hnot, hflat]
  unfold ProxyHandler.reply
  rw [hop.request_clientIp message]
  dsimp only
  rw [h.connects]
  show (if ProxyHandler.sendAndReceive hop.env.socket (hop.forwards message) = [] then none
    else some (ProxyHandler.sendAndReceive hop.env.socket (hop.forwards message))) = _
  rw [hall, if_neg hne]

/-- The router hands the request to the proxy. -/
theorem Relays.route_eq {status : Int} (h : hop.Relays req status) (hasks : Asks message req)
    {inner : Bytes} (hcarries : hop.Carries (hop.forwards message) inner) (hne : inner ≠ []) :
    (hop.router.route (handleEndpoint hop.env) (hop.request message) hop.charged).1 =
      (ProxyHandler.parseBackendResponse inner).setHeader (bytes "X-Proxy")
        (bytes "VeloxServe") := by
  have hsame := hop.request_same hasks
  obtain ⟨r, hmatched, hmethods, htarget⟩ := h.routed
  have hfiles : ∀ root indexFile, r.handler ≠ .files root indexFile := by
    intro root indexFile heq
    rw [heq] at htarget
    cases htarget
  have hrelayed : relayedReply hop.env r.handler (hop.request message) hop.charged = some inner := by
    have hcharged : target r.handler hop.charged = some hop.url := htarget
    unfold relayedReply
    rw [hcharged]
    exact h.reply_eq hcarries hne
  rw [← hsame.path] at hmatched
  rw [← hsame.method] at hmethods
  rw [route_of_matched hmatched hmethods]
  rcases (handleEndpoint_cases hop.env hfiles (hop.request message) hop.charged).2 with
    ⟨raw, hraw, heq⟩ | ⟨hnone, -⟩
  · obtain rfl : inner = raw := Option.some.inj (hrelayed.symm.trans hraw)
    exact heq
  · rw [hrelayed] at hnone
    cases hnone

/-- Error page and keep-alive come last. -/
theorem respond_headless (hop : Hop) (request : HttpRequest) (s : ServerState) :
    ((service hop.router hop.config hop.env).respond request s).1 =
      withKeepAlive request.wantsKeepAlive
        ((service hop.router hop.config hop.env).applyErrorPage
          (headless request (hop.router.route (handleEndpoint hop.env) request s).1)
          (hop.router.route (handleEndpoint hop.env) request s).2).1 := by
  unfold Service.respond withKeepAlive headless
  dsimp only
  split <;> split <;> rfl

/-- What a hop makes of the reply. -/
theorem Relays.answers_eq {status : Int} (h : hop.Relays req status) (hasks : Asks message req)
    {inner : Bytes} (hcarries : hop.Carries (hop.forwards message) inner) (hne : inner ≠ [])
    (hstatus : (ProxyHandler.parseBackendResponse inner).statusCode = status) :
    hop.answers message =
      (withKeepAlive (hop.request message).wantsKeepAlive
        (headless (hop.request message)
          ((ProxyHandler.parseBackendResponse inner).setHeader (bytes "X-Proxy")
            (bytes "VeloxServe")))).build hop.env.headerOrder := by
  have hnoPage : ∀ s, errorPage hop.config hop.env s status = none := by
    intro s
    unfold errorPage
    split
    · next hbad =>
      rw [h.noPage hbad]
      rfl
    · rfl
  have hheadless : (headless (hop.request message)
      ((ProxyHandler.parseBackendResponse inner).setHeader (bytes "X-Proxy")
        (bytes "VeloxServe"))).statusCode = status := by
    unfold headless
    split
    · exact hstatus
    · exact hstatus
  rw [hop.answers_of_asks hasks h.admits, hop.respond_headless, h.route_eq hasks hcarries hne,
    applyErrorPage_html, hheadless, hnoPage]

theorem answers_ne_nil (hop : Hop) (message : Bytes) : hop.answers message ≠ [] := by
  unfold answers processRequest
  exact build_ne_nil _ _

/-- **One hop** gives the answer of the server behind it. -/
theorem Relays.tells {r : HttpResponse} (h : hop.Relays req r.statusCode) (hasks : Asks message req)
    (hcode : -2 ^ 31 ≤ r.statusCode ∧ r.statusCode < 2 ^ 31)
    (hhead : req.method = bytes "HEAD" → r.body = []) {inner : Bytes} (htells : Tells r inner)
    (hcarries : hop.Carries (hop.forwards message) inner) : Tells r (hop.answers message) := by
  have hread := htells.same
  have hname : ¬ crlf <:+: bytes "X-Proxy" ∧ (58 : UInt8) ∉ bytes "X-Proxy" := by decide
  have hproxied := hread.setHeader (by decide : bytes "X-Proxy" ∈ hopNames) (bytes "VeloxServe")
  have hproxiedPlain := (ProxyHandler.parseBackendResponse_plain inner).setHeader hname
    (by decide : ¬ crlf <:+: bytes "VeloxServe")
  rw [h.answers_eq hasks hcarries htells.nonempty hread.statusCode]
  refine Tells.of_build (withKeepAlive_plain (headless_plain _ hproxiedPlain) _) ?_ hcode _
  -- a response to HEAD has no body to leave out
  have hheadless : SameAnswer r (headless (hop.request message)
      ((ProxyHandler.parseBackendResponse inner).setHeader (bytes "X-Proxy")
        (bytes "VeloxServe"))) := by
    unfold headless
    split
    · next hmethod =>
      rw [(hop.request_same hasks).method] at hmethod
      have hnil : (ProxyHandler.parseBackendResponse inner).body = [] :=
        hread.body.trans (hhead hmethod)
      have hsetNil : ((ProxyHandler.parseBackendResponse inner).setHeader (bytes "X-Proxy")
          (bytes "VeloxServe")).setBody [] = (ProxyHandler.parseBackendResponse inner).setHeader
            (bytes "X-Proxy") (bytes "VeloxServe") := by
        rw [← hnil]
        rfl
      rw [hsetNil]
      exact hproxied
    · exact hproxied
  unfold withKeepAlive
  split
  · exact hheadless.setHeader (by decide) _
  · exact hheadless

end Hop

/-! ## Section 4: Any Number of Them -/

/-- **One more server** in front. -/
theorem AnswersAs.passed {server : Bytes → Bytes → Prop} {req : HttpRequest} {r : HttpResponse}
    (h : AnswersAs server req r) {hop : Hop} (hrelays : hop.Relays req r.statusCode)
    (hreads : ProxyHandler.ReadsBack req.path)
    (hcode : -2 ^ 31 ≤ r.statusCode ∧ r.statusCode < 2 ^ 31)
    (hhead : req.method = bytes "HEAD" → r.body = []) :
    AnswersAs (fun message reply => ∃ inner, server (hop.forwards message) inner ∧
      hop.Carries (hop.forwards message) inner ∧ reply = hop.answers message) req r := by
  intro message reply hasks hserver
  obtain ⟨inner, hinner, hcarries, hreply⟩ := hserver
  rw [hreply]
  exact hrelays.tells hasks hcode hhead (h _ inner (hrelays.asks hasks hreads) hinner) hcarries

/-- **Any number** of them; without one, the path does not matter. -/
theorem AnswersAs.behind {origin : Bytes → Bytes → Prop} {req : HttpRequest} {r : HttpResponse}
    (horigin : AnswersAs origin req r) (hcode : -2 ^ 31 ≤ r.statusCode ∧ r.statusCode < 2 ^ 31)
    (hhead : req.method = bytes "HEAD" → r.body = []) {hops : List Hop}
    (hreads : hops = [] ∨ ProxyHandler.ReadsBack req.path)
    (hrelays : ∀ hop ∈ hops, hop.Relays req r.statusCode) : AnswersAs (chain origin hops) req r := by
  induction hops with
  | nil => exact horigin
  | cons hop hops ih =>
    have hreads : ProxyHandler.ReadsBack req.path := hreads.resolve_left (List.cons_ne_nil hop hops)
    have hrest := ih (.inr hreads) fun other hother => hrelays other (List.mem_cons_of_mem _ hother)
    exact hrest.passed (hrelays hop List.mem_cons_self) hreads hcode hhead

/-- **Transparency**: what an origin answers to a request, in whatever bytes, a row of proxies
    in front of it answers too, however many there are and however the replies are cut on the
    way. -/
theorem chain_transparent {origin : Bytes → Bytes → Prop} {req : HttpRequest} {r : HttpResponse}
    (horigin : AnswersAs origin req r) (hreads : ProxyHandler.ReadsBack req.path)
    (hcode : -2 ^ 31 ≤ r.statusCode ∧ r.statusCode < 2 ^ 31)
    (hhead : req.method = bytes "HEAD" → r.body = []) (hops : List Hop)
    (hrelays : ∀ hop ∈ hops, hop.Relays req r.statusCode) : AnswersAs (chain origin hops) req r := by
  exact horigin.behind hcode hhead (.inr hreads) hrelays

theorem filled_passing : StaticHandler.Filled (LRUCache.create 1024 60) :=
  LRUCache.FilledBy.create 1024 60

/-- A server that sends everything to a backend, which replies this. -/
def passing (inner : Bytes) : Hop where
  router := setupRoutes RouteSort.insertion
    { locations := [{ path := bytes "/", proxyPass := bytes "http://10.0.0.7:8080",
                      methods_words := List.forall_mem_nil _ }] } []
  config := {}
  env :=
    { headerOrder := UnorderedMap.IterOrder.listed
      arrivalTime := 0
      getTime := 0
      putTime := 0
      fs := ⟨fun _ => none, fun _ => none⟩
      pageGetTime := 0
      pagePutTime := 0
      pageFs := ⟨fun _ => none, fun _ => none⟩
      socket :=
        { opened := true
          inetPton := fun _ => some 0
          connects := fun _ _ => true
          sends := [4096]
          recvs := [some inner, some []] } }
  state :=
    { rateLimiter := .configured 0 0
      cache := LRUCache.create 1024 60
      filled := filled_passing }
  conn := { fd := 5, lastActivity := 0 }
  clientIp := bytes "10.0.0.9"
  url := bytes "http://10.0.0.7:8080"

theorem passing_relays (inner : Bytes) {req : HttpRequest} (hpath : req.path = bytes "/a")
    (status : Int) : (passing inner).Relays req status where
  admits := rfl
  routed := by
    refine ⟨⟨bytes "/", .proxied (bytes "http://10.0.0.7:8080"), []⟩, ?_, .inl rfl, rfl⟩
    rw [hpath]
    rfl
  connects := rfl
  oneLine :=
    have hline : ProxyHandler.IsLine (bytes "10.0.0.9") ∧
        ProxyHandler.IsLine (bytes "http://10.0.0.7:8080") := by decide
    hline
  noPage := fun _ => rfl

theorem passing_carries {inner sent : Bytes} (hne : inner ≠ []) (hsent : 0 < sent.length)
    (hfits : sent.length ≤ 4096) : (passing inner).Carries sent inner where
  sends := by
    have hleft : sent.length - (4096 : Int).toNat = 0 := by omega
    show (if sent.length = 0 then true else if (4096 : Int) ≤ 0 then false
      else ProxyHandler.sendAll [] (sent.length - (4096 : Int).toNat)) = true
    rw [if_neg (Nat.ne_of_gt hsent), if_neg (by decide), hleft]
    rfl
  receives := ⟨[inner], [], rfl, by simpa using hne.symm, List.append_nil inner⟩

/-- What it sends on does not depend on the reply. -/
theorem passing_forwards (inner message : Bytes) :
    (passing inner).forwards message = (passing []).forwards message := rfl

/-- What the origin writes, which is no server of this kind, and the message of a client. -/
def greeting : Bytes := bytes "HTTP/1.1 200 OK\r\nContent-Length: 3\r\n\r\nhi\n"

def askingClient : Bytes := bytes "GET /a HTTP/1.1\r\nHost: a\r\n\r\n"

/-- The server next to the origin, and the one in front of it. -/
def innerHop : Hop := passing greeting

def outerHop : Hop :=
  passing (innerHop.answers ((passing []).forwards askingClient))

/-- Two proxies in front of an origin that says hello. -/
theorem chain_transparent_two :
    chain (fun _ reply => reply = greeting) [outerHop, innerHop] askingClient
        (outerHop.answers askingClient) ∧
      AnswersAs (chain (fun _ reply => reply = greeting) [outerHop, innerHop])
        (({} : HttpParser).parse askingClient {}).2.2
        (ProxyHandler.parseBackendResponse greeting) := by
  have hne : greeting ≠ [] := by decide +kernel
  have hpath : (({} : HttpParser).parse askingClient {}).2.2.path = bytes "/a" := by
    decide +kernel
  have hinner : 0 < ((passing []).forwards askingClient).length ∧
      ((passing []).forwards askingClient).length ≤ 4096 := by
    decide +kernel
  have horigin : 0 < ((passing []).forwards ((passing []).forwards askingClient)).length ∧
      ((passing []).forwards ((passing []).forwards askingClient)).length ≤ 4096 := by
    decide +kernel
  have hfirst : outerHop.forwards askingClient = (passing []).forwards askingClient :=
    passing_forwards _ askingClient
  have hsecond : innerHop.forwards ((passing []).forwards askingClient) =
      (passing []).forwards ((passing []).forwards askingClient) :=
    passing_forwards _ _
  have hreply : outerHop.Carries ((passing []).forwards askingClient)
      (innerHop.answers ((passing []).forwards askingClient)) :=
    passing_carries (innerHop.answers_ne_nil _) hinner.1 hinner.2
  constructor
  · refine ⟨innerHop.answers ((passing []).forwards askingClient), ?_, ?_, rfl⟩
    · rw [hfirst]
      refine ⟨_, rfl, ?_, rfl⟩
      rw [hsecond]
      exact passing_carries hne horigin.1 horigin.2
    · rw [hfirst]
      exact hreply
  · refine chain_transparent (fun message reply _ hreply => ?_) ?_ ?_ ?_ _ fun hop hhop => ?_
    · rw [hreply]
      exact ⟨hne, SameAnswer.refl _⟩
    · rw [hpath]
      exact ⟨by decide +kernel, by decide +kernel⟩
    · decide +kernel
    · decide +kernel
    · rcases List.mem_cons.mp hhop with rfl | hhop
      · exact passing_relays _ hpath _
      · rcases List.mem_singleton.mp hhop with rfl
        exact passing_relays _ hpath _

end Server

end VeloxServe
