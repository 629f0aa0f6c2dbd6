import VeloxServe.Core.Connection
import VeloxServe.Framework.System
import VeloxServe.Http.RequestFraming

/-! # One Connection under All Schedules

    The steps the event loop and the workers take on one accepted connection:
    `handle_read` while the descriptor is registered for input, a worker
    running an enqueued `process_request`, `handle_write` while it is
    registered for output, closing, and whatever other connections do to the
    state of the server.

    The state also keeps what has happened: the bytes received, for each
    `process_request` the buffer it consumed and the bytes it queued, and the
    bytes sent.
-/

namespace VeloxServe

open StdString Message LTS

universe u

/-- The event a descriptor is registered for, beside hang-ups and errors. -/
inductive Interest where
  | input
  | output
  deriving DecidableEq

/-- What one run of `process_request` consumed and queued. -/
structure Answer where
  request : Bytes
  response : Bytes
  deriving DecidableEq

structure ConnState (σ : Type u) where
  conn : Connection
  isOpen : Bool := true
  interest : Interest := .input
  /-- `process_request` tasks queued for the connection. -/
  pending : Nat := 0
  /-- The state of the rest of the server. -/
  world : σ
  received : Bytes := []
  answers : List Answer := []
  sent : Bytes := []

/-- The steps of a connection. -/
inductive ConnLabel (σ : Type u) where
  /-- `handle_read`, with the results of its `recv` calls. -/
  | read (results : List RecvResult)
  /-- A worker runs `process_request`; `clientIp` is what `getpeername` says. -/
  | work (clientIp : Bytes)
  /-- `handle_write`, with the results of its `send` calls. -/
  | write (results : List SendResult)
  /-- The peer hangs up or the socket has an error. -/
  | hangup
  /-- `cleanup_inactive_connections`. -/
  | cleanup (now : Time)
  /-- Other connections are served. -/
  | other (world : σ)

namespace ConnState

variable {σ : Type u}

def close (s : ConnState σ) : ConnState σ := { s with isOpen := false }

def read (results : List RecvResult) (s : ConnState σ) : ConnState σ :=
  let (taken, outcome, conn) := handleRead results s.conn
  let s := { s with conn := conn, received := s.received ++ taken }
  match outcome with
  | .close => s.close
  | .wait => s
  | .dispatch => { s with pending := s.pending + 1 }

def work (svc : Service σ) (clientIp : Bytes) (s : ConnState σ) : ConnState σ :=
  let (conn, world) := processRequest svc clientIp s.conn s.world
  { s with
    conn := conn
    world := world
    pending := s.pending - 1
    answers := s.answers ++ [⟨s.conn.readBuffer, conn.writeBuffer⟩]
    interest := if s.isOpen then .output else s.interest }

def write (results : List SendResult) (s : ConnState σ) : ConnState σ :=
  let (sent, outcome, conn) := handleWrite results s.conn
  let s := { s with conn := conn, sent := s.sent ++ sent }
  match outcome with
  | .close => s.close
  | .wait => s
  | .rearm => { s with interest := .input }

/-- Close the connection when it has been idle too long and is not being written to. -/
def cleanup (now : Time) (s : ConnState σ) : ConnState σ :=
  if elapsedSeconds now s.conn.lastActivity > timeoutSeconds ∧ ¬ s.conn.isWriting then s.close
  else s

/-- The steps with their guards: `handle_read` and `handle_write` follow the
    registration, and while the connection is open its peer is `peer`. -/
def step (svc : Service σ) (peer : Bytes) (s : ConnState σ) : ConnLabel σ → Option (ConnState σ)
  | .read results => if s.isOpen ∧ s.interest = .input then some (s.read results) else none
  | .work clientIp =>
    if 0 < s.pending ∧ (s.isOpen → clientIp = peer) then some (s.work svc clientIp) else none
  | .write results => if s.isOpen ∧ s.interest = .output then some (s.write results) else none
  | .hangup => if s.isOpen then some s.close else none
  | .cleanup now => if s.isOpen then some (s.cleanup now) else none
  | .other world => some { s with world := world }

/-- A connection that has just been accepted. -/
def accepted (fd : Nat) (now : Time) (world : σ) : ConnState σ where
  conn := { fd := fd, lastActivity := now }
  world := world

end ConnState

/-- The runs of one connection from `client`. -/
def connSystem {σ : Type u} (svc : Service σ) (peer : Bytes) :
    System (ConnState σ) (ConnLabel σ) :=
  System.ofStep (fun s => ∃ fd now world, s = ConnState.accepted fd now world)
    (ConnState.step svc peer)

/-- A server that answers every request as its `/health` route does. -/
def healthService : Service Unit where
  isAllowed _ s := (true, s)
  route _ s := (HttpResponse.ok (bytes "OK\n") (bytes "text/plain"), s)
  root := bytes "./www"
  errorPages _ := none
  serveStatic _ _ _ s := (HttpResponse.notFound [], s)
  logAccess _ _ _ s := s
  headerOrder := UnorderedMap.IterOrder.listed

/-! ## What a Step Does -/

namespace ConnState

variable {σ : Type u} {svc : Service σ} {peer : Bytes}

theorem step_read {s : ConnState σ} (hopen : s.isOpen = true) (hin : s.interest = .input)
    (results : List RecvResult) :
    (connSystem svc peer).step s (.read results) (s.read results) := by
  show s.step svc peer (.read results) = some (s.read results)
  unfold step
  exact if_pos ⟨hopen, hin⟩

theorem step_work {s : ConnState σ} {clientIp : Bytes} (hpos : 0 < s.pending)
    (hip : s.isOpen → clientIp = peer) :
    (connSystem svc peer).step s (.work clientIp) (s.work svc clientIp) := by
  show s.step svc peer (.work clientIp) = some (s.work svc clientIp)
  unfold step
  exact if_pos ⟨hpos, hip⟩

theorem step_write_of_mode {s : ConnState σ} (hopen : s.isOpen = true) (hout : s.interest = .output)
    (results : List SendResult) :
    (connSystem svc peer).step s (.write results) (s.write results) := by
  show s.step svc peer (.write results) = some (s.write results)
  unfold step
  exact if_pos ⟨hopen, hout⟩

/-- The steps, with the effect each can have. -/
inductive StepCase (svc : Service σ) (peer : Bytes) (s : ConnState σ) :
    ConnLabel σ → ConnState σ → Prop where
  | readClosed {results : List RecvResult} {taken rest : Bytes} {conn : Connection}
      (hread : handleRead results s.conn = (taken, .close, conn))
      (hopen : s.isOpen = true) (hin : s.interest = .input) (hsame : s.conn.SameOutput conn)
      (hnone : ∀ data, ¬ Delivers results s.conn data)
      (hgrow : s.conn.readBuffer <+: conn.readBuffer)
      (hbuffer : s.conn.readBuffer ++ taken = conn.readBuffer ++ rest)
      (hover : rest ≠ [] → maxRequestSize < s.conn.readBuffer.length + taken.length) :
      StepCase svc peer s (.read results)
        { s with conn := conn, received := s.received ++ taken, isOpen := false }
  | readWaiting {results : List RecvResult} {data : Bytes} {conn : Connection}
      (hopen : s.isOpen = true) (hin : s.interest = .input) (hsame : s.conn.SameOutput conn)
      (hdata : Delivers results s.conn data)
      (hbuffer : conn.readBuffer = s.conn.readBuffer ++ data)
      (hend : ¬ blankLine <:+: s.conn.readBuffer ++ data) :
      StepCase svc peer s (.read results)
        { s with conn := conn, received := s.received ++ data }
  | readDispatched {results : List RecvResult} {data : Bytes} {conn : Connection}
      (hopen : s.isOpen = true) (hin : s.interest = .input) (hsame : s.conn.SameOutput conn)
      (hdata : Delivers results s.conn data)
      (hbuffer : conn.readBuffer = s.conn.readBuffer ++ data)
      (hend : blankLine <:+: s.conn.readBuffer ++ data) :
      StepCase svc peer s (.read results)
        { s with conn := conn, received := s.received ++ data, pending := s.pending + 1 }
  | worked {clientIp : Bytes} (hpos : 0 < s.pending) (hip : s.isOpen → clientIp = peer) :
      StepCase svc peer s (.work clientIp) (s.work svc clientIp)
  | writeEmpty {results : List SendResult} (hout : s.interest = .output)
      (hempty : s.conn.writeBuffer = []) :
      StepCase svc peer s (.write results) { s with isOpen := false }
  | writePartly {results : List SendResult} {n : Nat} {stillOpen : Bool}
      (hopen : s.isOpen = true) (hout : s.interest = .output) (hne : s.conn.writeBuffer ≠ [])
      (hstill : stillOpen = s.isOpen ∨ stillOpen = false)
      (hle : s.conn.bytesSent ≤ s.conn.writeBuffer.length →
        s.conn.bytesSent + n ≤ s.conn.writeBuffer.length) :
      StepCase svc peer s (.write results)
        { s with
          conn := { s.conn with bytesSent := s.conn.bytesSent + n }
          sent := s.sent ++ (s.conn.writeBuffer.drop s.conn.bytesSent).take n
          isOpen := stillOpen }
  | writeRearmed {results : List SendResult}
      (hopen : s.isOpen = true) (hout : s.interest = .output)
      (hne : s.conn.writeBuffer ≠ []) (hkeep : s.conn.keepAlive = true) :
      StepCase svc peer s (.write results)
        { s with
          conn := { s.conn with writeBuffer := [], bytesSent := 0, isWriting := false }
          sent := s.sent ++ s.conn.writeBuffer.drop s.conn.bytesSent
          interest := .input }
  | writeClosed {results : List SendResult}
      (hopen : s.isOpen = true) (hout : s.interest = .output)
      (hne : s.conn.writeBuffer ≠ []) (hkeep : s.conn.keepAlive = false) :
      StepCase svc peer s (.write results)
        { s with
          conn := { s.conn with writeBuffer := [], bytesSent := 0, isWriting := false }
          sent := s.sent ++ s.conn.writeBuffer.drop s.conn.bytesSent
          isOpen := false }
  | hungUp : StepCase svc peer s .hangup { s with isOpen := false }
  | cleaned {now : Time} : StepCase svc peer s (.cleanup now) { s with isOpen := false }
  | spared {now : Time} : StepCase svc peer s (.cleanup now) s
  | other {world : σ} : StepCase svc peer s (.other world) { s with world := world }

theorem step_cases {s s' : ConnState σ} {label : ConnLabel σ}
    (h : s.step svc peer label = some s') : StepCase svc peer s label s' := by
  unfold step at h
  cases label with
  | read results =>
    obtain ⟨⟨hopen, hin⟩, hs'⟩ := Option.ite_none_right_eq_some.mp h
    obtain rfl : s.read results = s' := Option.some.inj hs'
    have hcase := handleRead_cases results s.conn
    unfold read
    generalize hread : handleRead results s.conn = r at hcase
    rcases hcase with ⟨hsame, hnone, hgrow, hbuffer, hover⟩ | ⟨hsame, hdata, hbuffer, hend⟩ |
      ⟨hsame, hdata, hbuffer, hend⟩
    · exact StepCase.readClosed hread hopen hin hsame hnone hgrow hbuffer hover
    · exact StepCase.readWaiting hopen hin hsame hdata hbuffer hend
    · exact StepCase.readDispatched hopen hin hsame hdata hbuffer hend
  | work clientIp =>
    obtain ⟨⟨hpos, hip⟩, hs'⟩ := Option.ite_none_right_eq_some.mp h
    obtain rfl : s.work svc clientIp = s' := Option.some.inj hs'
    exact StepCase.worked hpos hip
  | write results =>
    obtain ⟨⟨hopen, hout⟩, hs'⟩ := Option.ite_none_right_eq_some.mp h
    obtain rfl : s.write results = s' := Option.some.inj hs'
    have hcase := handleWrite_cases results s.conn
    unfold write
    generalize handleWrite results s.conn = r at hcase
    rcases hcase with hempty | ⟨hne, hrearm, hle⟩ | ⟨hne, hkeep⟩ | ⟨hne, hkeep⟩
    · unfold close
      dsimp only
      rw [List.append_nil]
      exact StepCase.writeEmpty hout hempty
    · rename_i n outcome
      cases outcome with
      | close => exact StepCase.writePartly hopen hout hne (.inr rfl) hle
      | wait => exact StepCase.writePartly hopen hout hne (.inl rfl) hle
      | rearm => exact absurd rfl hrearm
    · exact StepCase.writeRearmed hopen hout hne hkeep
    · exact StepCase.writeClosed hopen hout hne hkeep
  | hangup =>
    obtain ⟨-, hs'⟩ := Option.ite_none_right_eq_some.mp h
    obtain rfl : s.close = s' := Option.some.inj hs'
    exact StepCase.hungUp
  | cleanup now =>
    obtain ⟨-, hs'⟩ := Option.ite_none_right_eq_some.mp h
    obtain rfl : s.cleanup now = s' := Option.some.inj hs'
    unfold cleanup
    split
    · exact StepCase.cleaned
    · exact StepCase.spared
  | other world =>
    obtain rfl : { s with world := world } = s' := Option.some.inj h
    exact StepCase.other

end ConnState

end VeloxServe
