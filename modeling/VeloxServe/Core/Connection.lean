import VeloxServe.Http.HttpResponse
import VeloxServe.Middleware.Cache

/-! # Client Connections

    `include/core/connection.h` and the connection part of
    `src/core/server.cpp`: what `handle_read`, `process_request` and
    `handle_write` do to one `Connection` object. The results of the socket
    calls are inputs; registering with epoll and closing the socket are left
    to the caller, which is told the outcome.

    What a `Server` does besides (rate limiting, routing, error pages, the
    log) is a `Service` over some state `σ`.
-/

namespace VeloxServe

open StdString Message

universe u

/-- `MAX_REQUEST_SIZE`. -/
def maxRequestSize : Nat := 64 * 1024

/-- `TIMEOUT_SECONDS`. -/
def timeoutSeconds : Int := 30

/-- All state for one client connection. -/
structure Connection where
  fd : Nat
  readBuffer : Bytes := []
  writeBuffer : Bytes := []
  keepAlive : Bool := false
  lastActivity : Time
  bytesSent : Nat := 0
  isWriting : Bool := false
  deriving DecidableEq

/-! ## Reading -/

/-- What one `recv` call returns. -/
inductive RecvResult where
  /-- `bytes >= 0`, with the time of the call; no bytes means the peer has closed. -/
  | received (data : Bytes) (now : Time)
  | wouldBlock
  | error
  deriving DecidableEq

/-- The `recv` loop of `handle_read`: the bytes taken off the socket, whether the
    connection stays open, and the connection. -/
def recvLoop : List RecvResult → Connection → Bytes × Bool × Connection
  | [], conn => ([], true, conn)
  | .wouldBlock :: _, conn => ([], true, conn)
  | .error :: _, conn => ([], false, conn)
  | .received data now :: results, conn =>
    if data = [] then ([], false, conn)
    else if conn.readBuffer.length + data.length > maxRequestSize then (data, false, conn)
    else
      let rest := recvLoop results
        { conn with readBuffer := conn.readBuffer ++ data, lastActivity := now }
      (data ++ rest.1, rest.2)

/-- What `handle_read` asks of the server. -/
inductive ReadOutcome where
  | close
  | wait
  /-- Enqueue `process_request` for the connection. -/
  | dispatch
  deriving DecidableEq

def handleRead (results : List RecvResult) (conn : Connection) : Bytes × ReadOutcome × Connection :=
  match recvLoop results conn with
  | (taken, false, conn) => (taken, .close, conn)
  | (taken, true, conn) =>
    if (find blankLine conn.readBuffer).isSome then (taken, .dispatch, conn)
    else (taken, .wait, conn)

/-- The bytes that arrive before the socket runs dry; `none` when the peer closes
    or an error comes first. -/
def arrived : List RecvResult → Option Bytes
  | [] => some []
  | .wouldBlock :: _ => some []
  | .error :: _ => none
  | .received data _ :: results =>
    if data = [] then none else (arrived results).map (data ++ ·)

/-- What reading leaves alone. -/
structure Connection.SameOutput (conn conn' : Connection) : Prop where
  fd : conn'.fd = conn.fd
  writeBuffer : conn'.writeBuffer = conn.writeBuffer
  keepAlive : conn'.keepAlive = conn.keepAlive
  bytesSent : conn'.bytesSent = conn.bytesSent
  isWriting : conn'.isWriting = conn.isWriting

theorem Connection.SameOutput.refl (conn : Connection) : conn.SameOutput conn :=
  ⟨rfl, rfl, rfl, rfl, rfl⟩

/-- The loop stays open exactly when the data ends in time and fits, and then
    all of it is in the buffer. -/
theorem recvLoop_spec (results : List RecvResult) (conn : Connection) :
    conn.SameOutput (recvLoop results conn).2.2 ∧
    conn.readBuffer <+: (recvLoop results conn).2.2.readBuffer ∧
    (∃ rest, conn.readBuffer ++ (recvLoop results conn).1 =
      (recvLoop results conn).2.2.readBuffer ++ rest ∧
      ((recvLoop results conn).2.1 = true → rest = []) ∧
      (rest ≠ [] → maxRequestSize < conn.readBuffer.length + (recvLoop results conn).1.length)) ∧
    ((recvLoop results conn).2.1 = true ↔
      ∃ data, arrived results = some data ∧
        (data = [] ∨ conn.readBuffer.length + data.length ≤ maxRequestSize)) ∧
    ((recvLoop results conn).2.1 = true → arrived results = some (recvLoop results conn).1) := by
  induction results generalizing conn with
  | nil =>
    refine ⟨Connection.SameOutput.refl conn, List.prefix_refl _, ⟨[], by simp [recvLoop]⟩, ?_,
      fun _ => rfl⟩
    exact ⟨fun _ => ⟨[], rfl, .inl rfl⟩, fun _ => rfl⟩
  | cons result results ih =>
    rcases result with ⟨data, now⟩ | _ | _
    · unfold recvLoop arrived
      -- an empty chunk is the end of the stream
      by_cases hnil : data = []
      · rw [if_pos hnil, if_pos hnil]
        exact ⟨Connection.SameOutput.refl conn, List.prefix_refl _, ⟨[], by simp⟩, by simp, by simp⟩
      · rw [if_neg hnil, if_neg hnil]
        by_cases hlarge : conn.readBuffer.length + data.length > maxRequestSize
        · rw [if_pos hlarge]
          refine ⟨Connection.SameOutput.refl conn, List.prefix_refl _,
            ⟨data, rfl, by simp, fun _ => hlarge⟩, ?_, by simp⟩
          -- whatever follows, the data is too long already
          constructor
          · intro h
            cases h
          · rintro ⟨all, hall, hfits⟩
            obtain ⟨tail, -, rfl⟩ := Option.map_eq_some_iff.mp hall
            rcases hfits with hempty | hle
            · exact absurd (List.append_eq_nil_iff.mp hempty).1 hnil
            · rw [List.length_append] at hle
              omega
        · rw [if_neg hlarge]
          obtain ⟨hsame, hgrow, ⟨rest, hrest, hopen, hover⟩, hiff, harrived⟩ :=
            ih { conn with readBuffer := conn.readBuffer ++ data, lastActivity := now }
          refine ⟨⟨hsame.fd, hsame.writeBuffer, hsame.keepAlive, hsame.bytesSent,
            hsame.isWriting⟩, (List.prefix_append _ _).trans hgrow, ⟨rest, ?_, hopen, ?_⟩,
            ?_, ?_⟩
          · rw [← hrest]
            simp
          · intro hrest'
            have hlong := hover hrest'
            simp only [List.length_append] at hlong ⊢
            omega
          · rw [hiff]
            constructor
            · rintro ⟨tail, htail, hfits⟩
              refine ⟨data ++ tail, by rw [htail]; rfl, .inr ?_⟩
              rcases hfits with rfl | hle
              · rw [List.append_nil]
                omega
              · simp only [List.length_append] at hle ⊢
                omega
            · rintro ⟨all, hall, hfits⟩
              obtain ⟨tail, htail, rfl⟩ := Option.map_eq_some_iff.mp hall
              refine ⟨tail, htail, .inr ?_⟩
              rcases hfits with hempty | hle
              · exact absurd (List.append_eq_nil_iff.mp hempty).1 hnil
              · simp only [List.length_append] at hle ⊢
                omega
          · intro hok
            rw [harrived hok]
            rfl
    · refine ⟨Connection.SameOutput.refl conn, List.prefix_refl _, ⟨[], by simp [recvLoop]⟩, ?_,
        fun _ => rfl⟩
      exact ⟨fun _ => ⟨[], rfl, .inl rfl⟩, fun _ => rfl⟩
    · refine ⟨Connection.SameOutput.refl conn, List.prefix_refl _, ⟨[], by simp [recvLoop]⟩, ?_,
        by simp [recvLoop]⟩
      simp [recvLoop, arrived]

/-- The call leaves the connection open with `data` added to its buffer. -/
def Delivers (results : List RecvResult) (conn : Connection) (data : Bytes) : Prop :=
  arrived results = some data ∧
    (data = [] ∨ conn.readBuffer.length + data.length ≤ maxRequestSize)

/-- What `handle_read` does, by the data that arrives. -/
inductive ReadCase (results : List RecvResult) (conn : Connection) :
    Bytes × ReadOutcome × Connection → Prop where
  | closed {taken rest : Bytes} {conn' : Connection} (hsame : conn.SameOutput conn')
      (hnone : ∀ data, ¬ Delivers results conn data)
      (hgrow : conn.readBuffer <+: conn'.readBuffer)
      (hbuffer : conn.readBuffer ++ taken = conn'.readBuffer ++ rest)
      (hover : rest ≠ [] → maxRequestSize < conn.readBuffer.length + taken.length) :
      ReadCase results conn (taken, .close, conn')
  | waiting {data : Bytes} {conn' : Connection} (hsame : conn.SameOutput conn')
      (hdata : Delivers results conn data)
      (hbuffer : conn'.readBuffer = conn.readBuffer ++ data)
      (hopen : ¬ blankLine <:+: conn.readBuffer ++ data) :
      ReadCase results conn (data, .wait, conn')
  | dispatched {data : Bytes} {conn' : Connection} (hsame : conn.SameOutput conn')
      (hdata : Delivers results conn data)
      (hbuffer : conn'.readBuffer = conn.readBuffer ++ data)
      (hended : blankLine <:+: conn.readBuffer ++ data) :
      ReadCase results conn (data, .dispatch, conn')

theorem handleRead_cases (results : List RecvResult) (conn : Connection) :
    ReadCase results conn (handleRead results conn) := by
  obtain ⟨hsame, hgrow, ⟨rest, hrest, hopen, hover⟩, hiff, harrived⟩ := recvLoop_spec results conn
  unfold handleRead
  generalize recvLoop results conn = r at hsame hgrow hrest hopen hover hiff harrived
  obtain ⟨taken, _ | _, conn'⟩ := r
  · refine ReadCase.closed hsame (fun data hdata => ?_) hgrow hrest hover
    have hfalse : false = true := hiff.mpr ⟨data, hdata⟩
    cases hfalse
  · obtain ⟨data, hdata⟩ := hiff.mp rfl
    have htaken : taken = data := Option.some.inj ((harrived rfl).symm.trans hdata.1)
    subst htaken
    have hbuffer : conn'.readBuffer = conn.readBuffer ++ taken := by
      have hrest' := hrest
      rw [hopen rfl, List.append_nil] at hrest'
      exact hrest'.symm
    dsimp only
    by_cases hend : blankLine <:+: conn.readBuffer ++ taken
    · rw [if_pos (by rw [hbuffer]; exact find_isSome_iff.mpr hend)]
      exact ReadCase.dispatched hsame hdata hbuffer hend
    · rw [if_neg (by rw [hbuffer]; exact fun h => hend (find_isSome_iff.mp h))]
      exact ReadCase.waiting hsame hdata hbuffer hend

/-! ## Processing -/

/-- The parts of a `Server` that `process_request` calls. -/
structure Service (σ : Type u) where
  /-- `rate_limiter_.is_allowed`. -/
  isAllowed : Bytes → σ → Bool × σ
  /-- `router_.route`. -/
  route : HttpRequest → σ → HttpResponse × σ
  /-- `config_.root`. -/
  root : Bytes
  /-- `config_.error_pages`. -/
  errorPages : Int → Option Bytes
  /-- `static_handler_.handle` with the server's cache: request, root directory, index file. -/
  serveStatic : HttpRequest → Bytes → Bytes → σ → HttpResponse × σ
  /-- `logger_.log_access`. -/
  logAccess : HttpRequest → HttpResponse → Bytes → σ → σ
  /-- How the library iterates over the header map. -/
  headerOrder : HeaderOrder

namespace Service

variable {σ : Type u} (svc : Service σ)

/-- The custom error page for a response: its file replaces the body, the status stays. -/
def applyErrorPage (response : HttpResponse) (s : σ) : HttpResponse × σ :=
  if response.statusCode ≥ 400 then
    match svc.errorPages response.statusCode with
    | none => (response, s)
    | some page =>
      let errReq : HttpRequest := { path := page }
      let (errResp, s) := svc.serveStatic errReq svc.root (bytes "index.html") s
      if errResp.statusCode = 200 then
        ((response.setBody errResp.body).setHeader (bytes "Content-Type")
          (errResp.getHeader (bytes "content-type") (bytes "text/html")), s)
      else (response, s)
  else (response, s)

/-- The response to a parsed request. -/
def respond (request : HttpRequest) (s : σ) : HttpResponse × σ :=
  let (response, s) := svc.route request s
  -- for HEAD requests: keep headers, drop the body
  let response := if request.method = bytes "HEAD" then response.setBody [] else response
  let (response, s) := svc.applyErrorPage response s
  if request.wantsKeepAlive then
    (response.setHeader (bytes "Connection") (bytes "keep-alive"), s)
  else (response, s)

def tooManyRequests : HttpResponse :=
  ((HttpResponse.ok (bytes "429 Too Many Requests") (bytes "text/plain")).setStatus 429
    (bytes "Too Many Requests")).setHeader (bytes "Retry-After") (bytes "1")

/-- What `process_request` makes of the read buffer: the request, the response,
    and whether to keep the connection, which is `keepAlive` before. -/
def answer (clientIp buffer : Bytes) (keepAlive : Bool) (s : σ) :
    (HttpRequest × HttpResponse × Bool) × σ :=
  let request : HttpRequest := { clientIp := clientIp }
  let (allowed, s) := svc.isAllowed clientIp s
  if !allowed then ((request, tooManyRequests, keepAlive), s)
  else
    let (done, _, request) := ({} : HttpParser).parse buffer request
    if !done || !request.isValid then
      ((request, HttpResponse.badRequest (bytes "Invalid HTTP request"), keepAlive), s)
    else
      let (response, s) := svc.respond request s
      ((request, response, request.wantsKeepAlive), s)

end Service

/-- `process_request`, up to switching the descriptor to write mode. -/
def processRequest {σ : Type u} (svc : Service σ) (clientIp : Bytes) (conn : Connection) (s : σ) :
    Connection × σ :=
  let ((request, response, keepAlive), s) :=
    svc.answer clientIp conn.readBuffer conn.keepAlive s
  let s := svc.logAccess request response clientIp s
  ({ conn with
      keepAlive := keepAlive
      writeBuffer := response.build svc.headerOrder
      bytesSent := 0
      isWriting := true
      readBuffer := [] }, s)

section Outcomes

variable {σ : Type u} (svc : Service σ) {clientIp : Bytes} {conn : Connection} {s : σ}
  {done : Bool} {parser : HttpParser} {request : HttpRequest}

/-- A client the rate limiter turns away. -/
theorem processRequest_refused (h : ¬ (svc.isAllowed clientIp s).1 = true) (conn : Connection) :
    (processRequest svc clientIp conn s).1.writeBuffer =
        Service.tooManyRequests.build svc.headerOrder ∧
      (processRequest svc clientIp conn s).1.keepAlive = conn.keepAlive := by
  unfold processRequest Service.answer
  simp [h]

/-- The parser wants more, or has found the request invalid. -/
theorem processRequest_rejected (hallowed : (svc.isAllowed clientIp s).1 = true)
    (hparsed : ({} : HttpParser).parse conn.readBuffer { clientIp := clientIp } =
      (done, parser, request)) (hrejected : ¬ (done = true ∧ request.isValid = true)) :
    (processRequest svc clientIp conn s).1.writeBuffer =
        (HttpResponse.badRequest (bytes "Invalid HTTP request")).build svc.headerOrder ∧
      (processRequest svc clientIp conn s).1.keepAlive = conn.keepAlive := by
  have hguard : (!done || !request.isValid) = true := by
    rw [Bool.or_eq_true, Bool.not_eq_true', Bool.not_eq_true']
    cases done with
    | false => exact .inl rfl
    | true => exact .inr (Bool.eq_false_iff.mpr fun hvalid => hrejected ⟨rfl, hvalid⟩)
  unfold processRequest Service.answer
  constructor
  · simp [hallowed, hparsed, hguard]
  · simp [hallowed, hparsed, hguard]

/-- An accepted request sets the flag before its response is built. -/
theorem processRequest_accepted (hallowed : (svc.isAllowed clientIp s).1 = true)
    (hparsed : ({} : HttpParser).parse conn.readBuffer { clientIp := clientIp } =
      (true, parser, request)) (hvalid : request.isValid = true) :
    (processRequest svc clientIp conn s).1.writeBuffer =
        (svc.respond request (svc.isAllowed clientIp s).2).1.build svc.headerOrder ∧
      (processRequest svc clientIp conn s).1.keepAlive = request.wantsKeepAlive := by
  unfold processRequest Service.answer
  simp [hallowed, hparsed, hvalid]

end Outcomes

/-! ## Writing -/

/-- What one `send` call returns. -/
inductive SendResult where
  /-- That many bytes were accepted, at most those offered. -/
  | sent (n : Nat)
  | wouldBlock
  | error
  deriving DecidableEq

inductive SendOutcome where
  | complete
  | blocked
  | failed
  deriving DecidableEq

/-- The `send` loop of `handle_write`, with the bytes the socket accepts. -/
def sendLoop : List SendResult → Connection → Bytes × SendOutcome × Connection
  | results, conn =>
    if conn.bytesSent < conn.writeBuffer.length then
      match results with
      | [] => ([], .blocked, conn)
      | .wouldBlock :: _ => ([], .blocked, conn)
      | .error :: _ => ([], .failed, conn)
      | .sent n :: results =>
        let offered := conn.writeBuffer.drop conn.bytesSent
        let n := min n offered.length
        if n = 0 then ([], .failed, conn)
        else
          let rest := sendLoop results { conn with bytesSent := conn.bytesSent + n }
          (offered.take n ++ rest.1, rest.2)
    else ([], .complete, conn)

/-- What `handle_write` asks of the server. -/
inductive WriteOutcome where
  | close
  | wait
  /-- Switch back to reading. -/
  | rearm
  deriving DecidableEq

def handleWrite (results : List SendResult) (conn : Connection) :
    Bytes × WriteOutcome × Connection :=
  if conn.writeBuffer = [] then ([], .close, conn)
  else match sendLoop results conn with
    | (sent, .blocked, conn) => (sent, .wait, conn)
    | (sent, .failed, conn) => (sent, .close, conn)
    | (sent, .complete, conn) =>
      -- all data sent
      (sent, if conn.keepAlive then .rearm else .close,
        { conn with writeBuffer := [], bytesSent := 0, isWriting := false })

/-- With `left` bytes to send, the calls of `send` accept `n` of them and end the
    loop: nothing is left, the socket is full, or a call fails or accepts nothing. -/
inductive Accepts : (left : Nat) → List SendResult → (n : Nat) → SendOutcome → Prop where
  | complete (results : List SendResult) : Accepts 0 results 0 .complete
  | dry {left : Nat} (hleft : 0 < left) : Accepts left [] 0 .blocked
  | full {left : Nat} (hleft : 0 < left) (results : List SendResult) :
      Accepts left (.wouldBlock :: results) 0 .blocked
  | error {left : Nat} (hleft : 0 < left) (results : List SendResult) :
      Accepts left (.error :: results) 0 .failed
  | nothing {left : Nat} (hleft : 0 < left) (results : List SendResult) :
      Accepts left (.sent 0 :: results) 0 .failed
  | some {left k n : Nat} {results : List SendResult} {outcome : SendOutcome} (hleft : 0 < left)
      (hk : 0 < k) (hrest : Accepts (left - min k left) results n outcome) :
      Accepts left (.sent k :: results) (min k left + n) outcome

theorem Accepts.le {left n : Nat} {results : List SendResult} {outcome : SendOutcome}
    (h : Accepts left results n outcome) : n ≤ left := by
  induction h with
  | some hleft hk hrest ih => omega
  | _ => omega

/-- The loop is complete exactly when nothing is left. -/
theorem Accepts.complete_iff {left n : Nat} {results : List SendResult} {outcome : SendOutcome}
    (h : Accepts left results n outcome) : outcome = .complete ↔ n = left := by
  induction h with
  | complete results => simp
  | some hleft hk hrest ih =>
    rw [ih]
    omega
  | dry hleft => simp; omega
  | full hleft results => simp; omega
  | error hleft results => simp; omega
  | nothing hleft results => simp; omega

/-- The loop advances `bytes_sent` by the bytes it hands over. -/
theorem sendLoop_accepts (results : List SendResult) (conn : Connection) :
    ∃ n outcome, Accepts (conn.writeBuffer.length - conn.bytesSent) results n outcome ∧
      sendLoop results conn = ((conn.writeBuffer.drop conn.bytesSent).take n, outcome,
        { conn with bytesSent := conn.bytesSent + n }) := by
  induction results generalizing conn with
  | nil =>
    unfold sendLoop
    split
    · exact ⟨0, .blocked, .dry (by omega), by simp⟩
    · next hdone =>
      rw [Nat.sub_eq_zero_of_le (Nat.le_of_not_lt hdone)]
      exact ⟨0, .complete, .complete _, by simp⟩
  | cons result results ih =>
    unfold sendLoop
    split
    · next hlt =>
      have hleft : 0 < conn.writeBuffer.length - conn.bytesSent := by omega
      rcases result with k | _ | _
      · dsimp only
        rw [List.length_drop]
        by_cases hk : k = 0
        · -- a `send` of nothing counts as a failure
          rw [hk, Nat.zero_min, if_pos rfl]
          exact ⟨0, .failed, .nothing hleft results, by simp⟩
        · obtain ⟨n, outcome, hrest, hloop⟩ :=
            ih { conn with
              bytesSent := conn.bytesSent + min k (conn.writeBuffer.length - conn.bytesSent) }
          dsimp only at hrest hloop
          have hpos : min k (conn.writeBuffer.length - conn.bytesSent) ≠ 0 := by omega
          rw [← Nat.sub_sub] at hrest
          rw [if_neg hpos, hloop]
          refine ⟨_, outcome, .some hleft (Nat.pos_of_ne_zero hk) hrest, ?_⟩
          rw [List.take_add, List.drop_drop, Nat.add_assoc]
      · exact ⟨0, .blocked, .full hleft results, by simp⟩
      · exact ⟨0, .failed, .error hleft results, by simp⟩
    · next hdone =>
      rw [Nat.sub_eq_zero_of_le (Nat.le_of_not_lt hdone)]
      exact ⟨0, .complete, .complete _, by simp⟩

/-- The loop only advances `bytes_sent`, by the bytes it hands over. -/
theorem sendLoop_spec (results : List SendResult) (conn : Connection) :
    ∃ n, (sendLoop results conn).2.2 = { conn with bytesSent := conn.bytesSent + n } ∧
      (sendLoop results conn).1 = (conn.writeBuffer.drop conn.bytesSent).take n ∧
      (conn.bytesSent ≤ conn.writeBuffer.length → conn.bytesSent + n ≤ conn.writeBuffer.length) ∧
      ((sendLoop results conn).2.1 = .complete → conn.writeBuffer.length ≤ conn.bytesSent + n) := by
  obtain ⟨n, outcome, haccepts, hloop⟩ := sendLoop_accepts results conn
  have hle := haccepts.le
  rw [hloop]
  refine ⟨n, rfl, rfl, ?_, ?_⟩
  · intro h
    omega
  · intro hcomplete
    have hall := haccepts.complete_iff.mp hcomplete
    omega

/-- What `handle_write` does, by how far the socket lets it get. -/
inductive WriteCase (conn : Connection) : Bytes × WriteOutcome × Connection → Prop where
  | empty (hempty : conn.writeBuffer = []) : WriteCase conn ([], .close, conn)
  | partly {n : Nat} {outcome : WriteOutcome} (hne : conn.writeBuffer ≠ [])
      (hrearm : outcome ≠ .rearm)
      (hle : conn.bytesSent ≤ conn.writeBuffer.length →
        conn.bytesSent + n ≤ conn.writeBuffer.length) :
      WriteCase conn ((conn.writeBuffer.drop conn.bytesSent).take n, outcome,
        { conn with bytesSent := conn.bytesSent + n })
  | rearmed (hne : conn.writeBuffer ≠ []) (hkeep : conn.keepAlive = true) :
      WriteCase conn (conn.writeBuffer.drop conn.bytesSent, .rearm,
        { conn with writeBuffer := [], bytesSent := 0, isWriting := false })
  | finished (hne : conn.writeBuffer ≠ []) (hkeep : conn.keepAlive = false) :
      WriteCase conn (conn.writeBuffer.drop conn.bytesSent, .close,
        { conn with writeBuffer := [], bytesSent := 0, isWriting := false })

theorem handleWrite_cases (results : List SendResult) (conn : Connection) :
    WriteCase conn (handleWrite results conn) := by
  unfold handleWrite
  by_cases hempty : conn.writeBuffer = []
  · rw [if_pos hempty]
    exact WriteCase.empty hempty
  · rw [if_neg hempty]
    obtain ⟨n, hconn, hbytes, hle, hcomplete⟩ := sendLoop_spec results conn
    generalize sendLoop results conn = r at hconn hbytes hcomplete
    obtain ⟨sent, outcome, conn'⟩ := r
    dsimp only at hconn hbytes hcomplete
    subst hconn hbytes
    -- everything sent, blocked, or failed
    rcases outcome with _ | _ | _
    · have hall : (conn.writeBuffer.drop conn.bytesSent).take n =
          conn.writeBuffer.drop conn.bytesSent := by
        have := hcomplete rfl
        rw [List.take_of_length_le]
        rw [List.length_drop]
        omega
      rw [hall]
      by_cases hkeep : conn.keepAlive = true
      · have hrearmed := WriteCase.rearmed hempty hkeep
        simpa [hkeep] using hrearmed
      · have hfinished := WriteCase.finished hempty (Bool.not_eq_true _ ▸ hkeep)
        simpa [hkeep] using hfinished
    · exact WriteCase.partly hempty (by simp) hle
    · exact WriteCase.partly hempty (by simp) hle

end VeloxServe
