import VeloxServe.Config.ConfigNumbers
import VeloxServe.Core.InternalRoutes
import VeloxServe.Core.RequestStream
import VeloxServe.Core.ResponseWriting
import VeloxServe.Core.ServerFraming
import VeloxServe.Framework.SelfDelimiting
import VeloxServe.Http.Chunking

/-! # What a Client Reads

    A client sends its requests down one connection and takes the responses off
    the same connection, each by its content length. Between the two are the event
    loop, the workers, and sends that take a few bytes at a time.

    * **Reader**: the client's side, a response at a time.
    * **Read**: what the client has taken off the stream so far are the answers to
      its requests, in their order; at rest, one for every request.
    * A server that proxies nothing frames all its responses, whatever becomes of
      its files, its cache and its other connections meanwhile, so this holds of it
      for all requests but `HEAD` and those with a line break in their path.
-/

namespace VeloxServe

open StdString Message LTS SelfDelimiting

universe u

/-! ## Section 1: The Reader -/

/-- The bytes of the first response of a stream, when all of them are there: the
    header block, and as much as its one `Content-Length` says. -/
def responseSize (s : Bytes) : Option Nat :=
  (find blankLine s).bind fun e =>
    match (fields (bytes "content-length") (s.take (e + 4))).map fieldValue,
      fields (bytes "transfer-encoding") (s.take (e + 4)) with
    | [value], [] =>
      ((ConfigNumbers.numeral value).map fun n => e + 4 + n).filter fun n => n ≤ s.length
    | _, _ => none

theorem responseSize_some {s : Bytes} {n : Nat} (h : responseSize s = some n) :
    ∃ e value k, find blankLine s = some e ∧
      (fields (bytes "content-length") (s.take (e + 4))).map fieldValue = [value] ∧
      fields (bytes "transfer-encoding") (s.take (e + 4)) = [] ∧
      ConfigNumbers.numeral value = some k ∧ n = e + 4 + k ∧ n ≤ s.length := by
  unfold responseSize at h
  obtain ⟨e, he, h⟩ := Option.bind_eq_some_iff.mp h
  split at h
  · next value hlength hcoding =>
    obtain ⟨hmap, hle⟩ := Option.filter_eq_some_iff.mp h
    obtain ⟨k, hk, hn⟩ := Option.map_eq_some_iff.mp hmap
    exact ⟨e, value, k, he, hlength, hcoding, hk, hn.symm, of_decide_eq_true hle⟩
  · cases h

theorem responseSize_eq {s value : Bytes} {e k : Nat} (he : find blankLine s = some e)
    (hlength : (fields (bytes "content-length") (s.take (e + 4))).map fieldValue = [value])
    (hcoding : fields (bytes "transfer-encoding") (s.take (e + 4)) = [])
    (hvalue : ConfigNumbers.numeral value = some k) (hle : e + 4 + k ≤ s.length) :
    responseSize s = some (e + 4 + k) := by
  unfold responseSize
  rw [he, Option.bind_some, hlength, hcoding]
  show ((ConfigNumbers.numeral value).map fun n => e + 4 + n).filter (fun n => n ≤ s.length) = _
  rw [hvalue, Option.map_some, Option.filter_some, if_pos (decide_eq_true hle)]

/-- **A client** that reads responses by their content length. -/
def clientReader : Reader UInt8 where
  size := responseSize
  pos := by
    intro s n h
    obtain ⟨e, _, k, _, _, _, _, hn, _⟩ := responseSize_some h
    omega
  le := by
    intro s n h
    obtain ⟨_, _, _, _, _, _, _, _, hle⟩ := responseSize_some h
    exact hle
  stable := by
    intro s n h rest
    obtain ⟨e, value, k, he, hlength, hcoding, hk, hn, hle⟩ := responseSize_some h
    -- the header block is the same
    have htake : (s ++ rest).take (e + 4) = s.take (e + 4) :=
      List.take_append_of_le_length (by omega)
    rw [hn]
    refine responseSize_eq (find_append rest he) ?_ ?_ hk ?_
    · rw [htake]
      exact hlength
    · rw [htake]
      exact hcoding
    · rw [List.length_append]
      omega

/-- The fields stand in front of the blank line. -/
theorem fields_take {m : Bytes} {e : Nat} (he : find blankLine m = some e) (name : Bytes) :
    fields name (m.take (e + 4)) = fields name m := by
  have hblock : headerLines (m.take (e + 4)) = headerLines m := by
    rw [(read_of_find he).1, (read_of_find (HttpParser.find_take he (Nat.le_refl _))).1, List.take_take]
    rw [Nat.min_eq_left (by omega)]
  unfold fields
  rw [hblock]

/-- **A framed response is delimited.** -/
theorem Framed.delimited {m : Bytes} (h : Framed m) (hend : blankLine <:+: m) :
    clientReader.Delimited m := by
  obtain ⟨e, he⟩ := Option.isSome_iff_exists.mp (find_isSome_iff.mpr hend)
  obtain ⟨line, hline, hvalue⟩ := h.length
  have hbound : e + 4 ≤ m.length := find_add_length_le he (by decide)
  have hcontent : (content m).length = m.length - (e + 4) := by
    rw [(read_of_find he).2, List.length_drop]
  have hlength : (fields (bytes "content-length") (m.take (e + 4))).map fieldValue =
      [decimal (content m).length] := by
    rw [fields_take he, hline, List.map_singleton, hvalue]
  have hcoding : fields (bytes "transfer-encoding") (m.take (e + 4)) = [] := by
    rw [fields_take he]
    exact h.noTransferEncoding
  have hnumeral := ConfigNumbers.numeral_eq_some_iff.mpr (isNumeral_decimal (content m).length)
  have hsize := responseSize_eq he hlength hcoding hnumeral (by omega)
  have hwhole : e + 4 + (content m).length = m.length := by omega
  rw [hwhole] at hsize
  exact hsize

theorem blankLine_build (ord : HeaderOrder) (r : HttpResponse) : blankLine <:+: r.build ord := by
  rw [HttpResponse.build_eq, writeLines_eq_joinLines (by simp)]
  exact ⟨joinLines (r.statusLine :: (r.builtHeaders ord).map HttpResponse.fieldLine), r.body, by
    simp [blankLine]⟩

/-! ## Section 2: Runs of a Connection -/

/-- The response to a request is what is put into the write buffer. -/
theorem answer_build {σ : Type u} (svc : Service σ) (clientIp : Bytes) (conn : Connection) (s : σ) :
    (svc.answer clientIp conn.readBuffer conn.keepAlive s).1.2.1.build svc.headerOrder =
      (processRequest svc clientIp conn s).1.writeBuffer := by
  unfold processRequest
  rfl

namespace ConnState

variable {σ : Type u}

/-- Nothing is under way: no task, nothing left to send, and the connection open. -/
structure AtRest (s : ConnState σ) : Prop where
  isOpen : s.isOpen = true
  pending : s.pending = 0
  unsent : s.unsent = 0

/-- What the client has read from the connection are these answers. -/
structure ClientRead (svc : Service σ) (requests : List Bytes) (s : ConnState σ)
    (answers : List Answer) : Prop where
  messages : clientReader.messages s.sent = answers.map Answer.response
  /-- The answers to the first requests, in their order. -/
  inOrder : answers.map Answer.request <+: requests
  built : ∀ a ∈ answers, Answers svc a
  /-- Every answer that has been sent whole is among them. -/
  most : ∀ k, ((s.answers.take k).map Answer.response).flatten <+: s.sent →
    s.answers.take k <+: answers
  /-- No request is left without one. -/
  complete : s.AtRest → s.received = requests.flatten → answers.map Answer.request = requests

variable {svc : Service σ} {requests : List Bytes} {s : ConnState σ}

/-- At rest every request has been answered. -/
theorem InOrder.all_answered (h : s.InOrder svc requests) (hreqs : ∀ r ∈ requests, IsRequest r)
    (hrest : s.AtRest) (hall : s.received = requests.flatten) :
    s.answers.map Answer.request = requests := by
  obtain ⟨n, hn⟩ := h.requests
  have hkept := h.kept
  unfold consumed at hkept
  rw [hn, hall] at hkept
  have hbuffer : s.conn.readBuffer = (requests.drop n).flatten := by
    have hsplit := congrArg List.flatten (List.take_append_drop n requests)
    rw [List.flatten_append] at hsplit
    exact List.append_cancel_left (hkept.trans hsplit.symm)
  have hwaiting := h.waiting hrest.isOpen hrest.pending
  rw [hn]
  cases hdrop : requests.drop n with
  | nil => exact List.take_of_length_le (List.drop_eq_nil_iff.mp hdrop)
  | cons r rest =>
    -- a request in the buffer would have a task
    exfalso
    have hmem : r ∈ requests := List.mem_of_mem_drop (hdrop ▸ List.mem_cons_self)
    have hrequest := hreqs r hmem
    have hin : blankLine <:+: (requests.drop n).flatten := by
      rw [hdrop, List.flatten_cons]
      exact hrequest.blankLine_infix.trans (List.prefix_append _ _).isInfix
    rw [hbuffer] at hwaiting
    exact hwaiting hin

/-- What is sent is the beginning of what is queued. -/
theorem Serial.sent_prefix (h : s.Serial) : s.sent <+: s.queued.flatten :=
  ⟨_, h.sent⟩

/-- **What the client has read.** -/
theorem InOrder.clientRead (h : s.InOrder svc requests) (hreqs : ∀ r ∈ requests, IsRequest r)
    (hframed : ∀ a ∈ s.answers, clientReader.Delimited a.response) :
    ∃ answers, s.ClientRead svc requests answers := by
  have hqueued : ∀ m ∈ s.queued, clientReader.Delimited m := by
    intro m hm
    obtain ⟨a, ha, rfl⟩ := List.mem_map.mp hm
    exact hframed a ha
  obtain ⟨hfirst, hmost⟩ := Reader.messages_of_prefix hqueued h.toSerial.sent_prefix
  obtain ⟨n, hn⟩ := h.requests
  set read := s.answers.take (clientReader.messages s.sent).length with hread
  have hmessages : clientReader.messages s.sent = read.map Answer.response := by
    rw [hread, List.map_take]
    exact List.prefix_iff_eq_take.mp hfirst
  have hanswers : read <+: s.answers := List.take_prefix _ _
  have hwhole : ∀ k, ((s.answers.take k).map Answer.response).flatten <+: s.sent →
      s.answers.take k <+: read := by
    intro k hk
    rw [List.map_take] at hk
    have hlength := (hmost k hk).length_le
    rw [List.length_take] at hlength
    have hcount : s.queued.length = s.answers.length := List.length_map _
    rw [hread, List.prefix_take_iff]
    refine ⟨List.take_prefix _ _, ?_⟩
    rw [List.length_take]
    omega
  refine ⟨read, hmessages, ?_, ?_, hwhole, ?_⟩
  · exact (hanswers.map Answer.request).trans (hn ▸ List.take_prefix n requests)
  · intro a ha
    exact h.answers a (hanswers.subset ha)
  · intro hrest hall
    -- all that is queued has been sent
    have hsent : s.sent = s.queued.flatten := by
      have hunsent : s.conn.writeBuffer.drop s.conn.bytesSent = [] := by
        have hnone := hrest.unsent
        unfold unsent at hnone
        exact List.drop_eq_nil_iff.mpr (by omega)
      have hsplit := h.sent
      rw [hunsent, List.append_nil] at hsplit
      exact hsplit
    have hall' := hwhole s.answers.length (by
      rw [List.take_length, hsent]
      exact List.prefix_refl _)
    rw [List.take_length] at hall'
    have heq : read = s.answers := hanswers.eq_of_length_le hall'.length_le
    rw [heq]
    exact h.all_answered hreqs hrest hall

end ConnState

/-! ## Section 3: A Server Without Backends -/

namespace Server

/-- A server whose files, clock and backends change between its requests: they are
    part of the state, and only the order of the header map stays. -/
def liveService (router : Router Endpoint) (config : ServerConfig) (ord : HeaderOrder) :
    Service (Surroundings × ServerState) where
  isAllowed := fun clientIp s =>
    let r := (service router config { s.1 with headerOrder := ord }).isAllowed clientIp s.2
    (r.1, s.1, r.2)
  route := fun request s =>
    let r := (service router config { s.1 with headerOrder := ord }).route request s.2
    (r.1, s.1, r.2)
  root := config.root
  errorPages := config.errorPages
  serveStatic := fun request root indexFile s =>
    let r := (service router config { s.1 with headerOrder := ord }).serveStatic request root
      indexFile s.2
    (r.1, s.1, r.2)
  logAccess := fun _ _ _ s => s
  headerOrder := ord

section

variable (router : Router Endpoint) (config : ServerConfig) (ord : HeaderOrder)

theorem liveService_applyErrorPage (r : HttpResponse) (env : Surroundings) (s : ServerState) :
    ((liveService router config ord).applyErrorPage r (env, s)).1 =
      ((service router config { env with headerOrder := ord }).applyErrorPage r s).1 := by
  unfold Service.applyErrorPage
  dsimp only [liveService, service]
  split
  · split
    · rfl
    · split <;> rfl
  · rfl

/-- The surroundings are those at the time of the request. -/
theorem liveService_respond (request : HttpRequest) (env : Surroundings) (s : ServerState) :
    ((liveService router config ord).respond request (env, s)).1 =
      ((service router config { env with headerOrder := ord }).respond request s).1 := by
  have hroute : ((liveService router config ord).route request (env, s)) =
      (((service router config { env with headerOrder := ord }).route request s).1, env,
        ((service router config { env with headerOrder := ord }).route request s).2) := rfl
  unfold Service.respond
  rw [hroute]
  dsimp only
  split <;> split <;> rw [liveService_applyErrorPage]

end

/-- Nothing is forwarded. -/
def AnswersItself (router : Router Endpoint) : Prop :=
  ∀ request endpoint, router.decision request = .invoke endpoint →
    (∀ upstreamName, endpoint ≠ .balanced upstreamName) ∧
      ∀ proxyTarget, endpoint ≠ .proxied proxyTarget

theorem setupRoutes_answersItself (srt : RouteSort Endpoint) {config : ServerConfig}
    (upstreams : List Bytes) (hlocal : ∀ loc ∈ config.locations, loc.isProxy = false) :
    AnswersItself (setupRoutes srt config upstreams) := by
  have hroutes : ∀ route ∈ internalRoutes ++ locationRoutes config upstreams,
      (∀ upstreamName, route.handler ≠ .balanced upstreamName) ∧
        ∀ proxyTarget, route.handler ≠ .proxied proxyTarget := by
    intro route hmem
    unfold internalRoutes locationRoutes at hmem
    split at hmem
    · simp only [List.cons_append, List.nil_append, List.mem_cons, List.mem_map] at hmem
      obtain rfl | rfl | ⟨loc, hloc, rfl⟩ := hmem
      · exact ⟨fun _ => Endpoint.noConfusion, fun _ => Endpoint.noConfusion⟩
      · exact ⟨fun _ => Endpoint.noConfusion, fun _ => Endpoint.noConfusion⟩
      · have hfiles : locationEndpoint config upstreams loc =
            .files (if loc.root = [] then config.root else loc.root) loc.indexFile := by
          unfold locationEndpoint
          rw [hlocal loc hloc]
          rfl
        show (∀ _, locationEndpoint config upstreams loc ≠ _) ∧
          ∀ _, locationEndpoint config upstreams loc ≠ _
        rw [hfiles]
        exact ⟨fun _ => Endpoint.noConfusion, fun _ => Endpoint.noConfusion⟩
    · simp only [List.cons_append, List.nil_append, List.mem_cons, List.not_mem_nil,
        or_false] at hmem
      obtain rfl | rfl | rfl := hmem <;>
        exact ⟨fun _ => Endpoint.noConfusion, fun _ => Endpoint.noConfusion⟩
  intro request endpoint hdecision
  rw [setupRoutes_eq] at hdecision
  unfold Router.decision at hdecision
  split at hdecision
  · next route hfind =>
    split at hdecision
    · cases hdecision
    · obtain rfl := Router.Decision.invoke.inj hdecision
      have hmem := List.mem_of_find?_eq_some hfind
      exact hroutes route ((register_holds srt none _).perm.mem_iff.mp hmem)
  · rw [register_defaultHandler] at hdecision
    cases hdecision

/-- A request that asks for a body, with a path that is one line. -/
structure AsksPlainly (r : Bytes) : Prop where
  notHead : (({} : HttpParser).parse r {}).2.2.method ≠ bytes "HEAD"
  oneLine : (13 : UInt8) ∉ (({} : HttpParser).parse r {}).2.2.path

variable {router : Router Endpoint}

/-- Without backends there is nothing to break the framing but a line break in the path. -/
theorem AnswersItself.keepsFraming (h : AnswersItself router) (config : ServerConfig)
    (env : Surroundings)
    {request : HttpRequest} (hline : (13 : UInt8) ∉ request.path) (s : ServerState) :
    KeepsFraming router config env request s := by
  unfold KeepsFraming
  split
  · intro _
    refine HttpResponse.locationFramed_oneLine _ _ (not_infix_of_not_mem ?_)
    intro hmem
    rcases List.mem_append.mp hmem with hmem | hmem
    · exact hline hmem
    · exact absurd hmem (by decide)
  · next endpoint hfiles hdecision =>
    obtain ⟨hbalanced, hproxied⟩ := h request endpoint hdecision
    intro raw hreply
    exfalso
    unfold relayedReply target at hreply
    cases endpoint with
    | health => cases hreply
    | metrics => cases hreply
    | balanced upstreamName => exact hbalanced upstreamName rfl
    | proxied proxyTarget => exact hproxied proxyTarget rfl
    | files root indexFile => cases hreply
  · trivial

/-- **All that such a server answers is framed.** -/
theorem AnswersItself.framed (h : AnswersItself router) (hwords : Worded router)
    (config : ServerConfig) (ord : HeaderOrder) {conn : Connection} (hr : IsRequest conn.readBuffer)
    (hplain : AsksPlainly conn.readBuffer) (clientIp : Bytes)
    (world : Surroundings × ServerState) :
    Framed (processRequest (liveService router config ord) clientIp conn world).1.writeBuffer := by
  obtain ⟨hdone, hvalid, -⟩ := hr
  obtain ⟨hmethod, hline⟩ := hplain
  have hparse := HttpParser.parse_withIp clientIp {} conn.readBuffer {}
  generalize ({} : HttpParser).parse conn.readBuffer {} = parsed at *
  obtain ⟨done, parser, request⟩ := parsed
  obtain rfl : done = true := hdone
  have hparsed : ({} : HttpParser).parse conn.readBuffer { clientIp := clientIp } =
      (true, parser, request.withIp clientIp) := hparse
  have hmethod' : (request.withIp clientIp).method ≠ bytes "HEAD" := hmethod
  have hline' : (13 : UInt8) ∉ (request.withIp clientIp).path := hline
  by_cases hallowed : ((liveService router config ord).isAllowed clientIp world).1 = true
  · have haccepted := (processRequest_accepted (liveService router config ord) hallowed hparsed
      hvalid).1
    generalize ((liveService router config ord).isAllowed clientIp world).2 = world' at haccepted
    obtain ⟨env, s⟩ := world'
    have hkeeps := h.keepsFraming config { env with headerOrder := ord } hline' s
    rw [haccepted, liveService_respond]
    exact (framed_respond_iff router config _ hwords hmethod' s).mpr hkeeps
  · have hrefused := (processRequest_refused (liveService router config ord) hallowed conn).1
    rw [hrefused]
    exact own_tooManyRequests.framed_build ord

/-- **What a client reads from a server without backends** are the answers to its
    requests, in their order, however the files, the clock, the cache and the other
    connections change between the steps of its connection. -/
theorem client_reads_answers (srt : RouteSort Endpoint) {config : ServerConfig}
    (upstreams : List Bytes) (hlocal : ∀ loc ∈ config.locations, loc.isProxy = false)
    (ord : HeaderOrder) (peer : Bytes) {requests : List Bytes}
    (hreqs : ∀ r ∈ requests, IsRequest r)
    (hplain : ∀ r ∈ requests, AsksPlainly r) (hfits : requests.flatten.length ≤ maxRequestSize)
    {s₀ s : ConnState (Surroundings × ServerState)}
    {ls : List (ConnLabel (Surroundings × ServerState))}
    (h₀ : (connSystem (liveService (setupRoutes srt config upstreams) config ord) peer).init s₀)
    (hrun : Run ((connSystem (liveService (setupRoutes srt config upstreams) config ord)
      peer).restrict ConnState.OneRequestPerRead) s₀ ls s)
    (hstream : s.received <+: requests.flatten) :
    ∃ answers, s.ClientRead (liveService (setupRoutes srt config upstreams) config ord) requests
      answers := by
  have hitself := setupRoutes_answersItself srt upstreams hlocal
  have hwords := setupRoutes_worded srt config upstreams
  generalize setupRoutes srt config upstreams = router at *
  obtain ⟨fd, now, world, rfl⟩ := h₀
  have hinit := ConnState.inOrder_accepted (liveService router config ord) requests fd now world
  have horder := inOrder_run _ peer hreqs hfits hinit hrun hstream
  refine horder.clientRead hreqs fun a ha => ?_
  obtain ⟨clientIp, keepAlive, world', hresponse⟩ := horder.answers a ha
  have hmem : a.request ∈ requests := by
    obtain ⟨n, hn⟩ := horder.requests
    have hmap : a.request ∈ s.answers.map Answer.request := List.mem_map_of_mem ha
    rw [hn] at hmap
    exact List.mem_of_mem_take hmap
  set conn : Connection :=
    { fd := fd, lastActivity := now, readBuffer := a.request, keepAlive := keepAlive } with hconn
  have hbuilt := answer_build (liveService router config ord) clientIp conn world'
  have hrequest : IsRequest conn.readBuffer := hreqs a.request hmem
  have hframed := hitself.framed hwords config ord hrequest (hplain a.request hmem) clientIp world'
  rw [hresponse]
  exact (hbuilt ▸ hframed).delimited (blankLine_build _ _)

/-- Two requests have been answered, and the connection is at rest. -/
theorem client_reads_answers_one :
    let svc := liveService (setupRoutes RouteSort.insertion {} []) {} UnorderedMap.IterOrder.listed
    let first := turn svc [] (bytes "GET /a HTTP/1.1\r\n\r\n") 0 [.sent 4096]
      (ConnState.accepted 7 0 (oneReply [], started))
    let s := turn svc [] (bytes "POST /b HTTP/1.1\r\nContent-Length: 2\r\n\r\nhi") 1
      [.sent 4096] first
    s.AtRest ∧ s.received = twoRequests.flatten ∧
      ∃ answers, s.ClientRead svc twoRequests answers := by
  intro svc first s
  have hreqs : ∀ r ∈ twoRequests, IsRequest r := by decide +kernel
  have hplain : ∀ r ∈ twoRequests, AsksPlainly r := by
    have hboth : ∀ r ∈ twoRequests, (({} : HttpParser).parse r {}).2.2.method ≠ bytes "HEAD" ∧
        (13 : UInt8) ∉ (({} : HttpParser).parse r {}).2.2.path := by decide +kernel
    exact fun r hr => ⟨(hboth r hr).1, (hboth r hr).2⟩
  have hfits : twoRequests.flatten.length ≤ maxRequestSize := by decide +kernel
  have hend : (s.isOpen = true ∧ s.pending = 0 ∧ s.unsent = 0) ∧
      s.received = twoRequests.flatten := by
    decide +kernel
  have hfirst := run_turn svc [] 0 [.sent 4096]
    (s := ConnState.accepted 7 0 (oneReply [], started)) (by decide +kernel)
    (hreqs _ List.mem_cons_self) (by decide +kernel) (by decide +kernel)
  have hsecond := run_turn svc [] 1 [.sent 4096] (s := first) (by decide +kernel)
    (hreqs _ (List.mem_cons_of_mem _ List.mem_cons_self)) (by decide +kernel) (by decide +kernel)
  refine ⟨⟨hend.1.1, hend.1.2.1, hend.1.2.2⟩, hend.2, ?_⟩
  exact client_reads_answers RouteSort.insertion [] (fun loc hloc => by cases hloc)
    UnorderedMap.IterOrder.listed [] hreqs hplain hfits ⟨7, 0, (oneReply [], started), rfl⟩
    (hfirst.append hsecond) (hend.2 ▸ List.prefix_refl _)

end Server

end VeloxServe
