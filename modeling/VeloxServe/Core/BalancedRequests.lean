import VeloxServe.Core.Server
import VeloxServe.Modules.HealthChecks
import VeloxServe.Modules.ProxyExceptions

/-! # Requests in Flight

    The handler of a load-balanced location in `Server::setup_routes` as the
    steps it takes between other threads: `get_next`, the exchange with the
    backend, `mark_down` for a 502, `release`. An exception out of the exchange
    would leave the handler without a `release`.
-/

namespace VeloxServe

open StdString

/-! ## Section 1: The Handler, Step by Step -/

/-- How far the handler of one request has come. -/
inductive HandlerPhase where
  | arrived (req : HttpRequest)
  /-- `get_next` has returned this backend. -/
  | taken (req : HttpRequest) (backend : Nat) (target : Bytes)
  /-- `proxy.handle` has returned. -/
  | answered (backend : Nat) (resp : HttpResponse)
  /-- The status code has been looked at. -/
  | judged (backend : Nat) (resp : HttpResponse)
  | finished (resp : HttpResponse)
  /-- An exception has left the handler, past `release`. -/
  | thrown (backend : Nat) (e : ConversionError)

/-- The backend that was taken and not released. -/
def HandlerPhase.holder : HandlerPhase → Option Nat
  | .arrived _ => none
  | .taken _ backend _ => some backend
  | .answered backend _ => some backend
  | .judged backend _ => some backend
  | .finished _ => none
  | .thrown backend _ => some backend

/-- The handler is still to take a step. -/
def HandlerPhase.inFlight : HandlerPhase → Bool
  | .finished _ => false
  | .thrown _ _ => false
  | _ => true

/-- One load balancer with the requests of its location. -/
structure BalancedState where
  lb : LoadBalancer
  requests : List HandlerPhase := []

namespace BalancedState

inductive Step where
  | arrive (req : HttpRequest)
  | getNext (request : Nat)
  | exchange (request : Nat) (ord : HeaderOrder) (socket : BackendSocket)
  | judge (request : Nat)
  | release (request : Nat)
  | check (backend : Nat) (alive : Bool)

def setPhase (request : Nat) (phase : HandlerPhase) (s : BalancedState) : BalancedState :=
  { s with requests := s.requests.set request phase }

/-- `get_next`, or the answer when there is no backend. -/
def takeNext (request : Nat) (req : HttpRequest) (s : BalancedState) : BalancedState :=
  match s.lb.getNext with
  | (none, lb) =>
    { s with lb := lb }.setPhase request
      (.finished (HttpResponse.internalError
        (bytes "503 Service Unavailable: No healthy backends")))
  | (some (i, backend), lb) =>
    { s with lb := lb }.setPhase request (.taken req i (Server.targetUrl backend))

/-- One step of one thread; `none` when the request is not at this point. -/
def step (s : BalancedState) : Step → Option BalancedState
  | .arrive req => some { s with requests := s.requests ++ [.arrived req] }
  | .getNext request =>
    match s.requests[request]? with
    | some (.arrived req) => some (s.takeNext request req)
    | _ => none
  | .exchange request ord socket =>
    match s.requests[request]? with
    | some (.taken req backend target) =>
      match ProxyHandler.Throwing.handle ord socket req target req.clientIp with
      | .ok resp => some (s.setPhase request (.answered backend resp))
      | .error e => some (s.setPhase request (.thrown backend e))
    | _ => none
  | .judge request =>
    match s.requests[request]? with
    | some (.answered backend resp) =>
      let lb := if resp.statusCode = 502 then s.lb.markDown backend else s.lb
      some ({ s with lb := lb }.setPhase request (.judged backend resp))
    | _ => none
  | .release request =>
    match s.requests[request]? with
    | some (.judged backend resp) =>
      some ({ s with lb := s.lb.release backend }.setPhase request (.finished resp))
    | _ => none
  | .check backend alive => some { s with lb := s.lb.check backend alive }

/-- All interleavings, from a balancer as the server creates it. -/
def system : LTS.System BalancedState Step :=
  LTS.System.ofStep (fun s => (∃ servers, s.lb = LoadBalancer.create servers) ∧ s.requests = [])
    step

/-! ## Section 2: One Request Alone -/

/-- The steps of one request with nothing between them do what `handleBalanced` does. -/
theorem handleBalanced_run (env : Surroundings) (upstreamName : Bytes) (req : HttpRequest)
    (s : ServerState) :
    ∃ ls resp lb,
      LTS.Run system { lb := Server.loadBalancer s upstreamName, requests := [.arrived req] } ls
        { lb := lb, requests := [.finished resp] } ∧
      Server.handleBalanced env upstreamName req s =
        (resp, Server.setLoadBalancer s upstreamName lb) := by
  unfold Server.handleBalanced
  rcases hnext : (Server.loadBalancer s upstreamName).getNext with ⟨_ | ⟨i, backend⟩, lb⟩
  · refine ⟨[.getNext 0], _, lb, LTS.Run.of_replay ?_, rfl⟩
    simp [LTS.replay, step, takeNext, setPhase, hnext]
  · refine ⟨[.getNext 0, .exchange 0 env.headerOrder env.socket, .judge 0, .release 0], _, _,
      LTS.Run.of_replay ?_, rfl⟩
    simp [LTS.replay, step, takeNext, setPhase, hnext, ProxyHandler.Throwing.handle_ok]

/-! ## Section 3: The Count -/

/-- The requests that have taken a backend and not released it. -/
def holding (s : BalancedState) (i : Nat) : Nat :=
  s.requests.countP fun phase => phase.holder = some i

/-- Whether a phase counts for a backend. -/
def share (i : Nat) (phase : HandlerPhase) : Int := if phase.holder = some i then 1 else 0

theorem holding_setPhase {s : BalancedState} {request : Nat} {phase phase' : HandlerPhase}
    (h : s.requests[request]? = some phase) (i : Nat) :
    ((s.setPhase request phase').holding i : Int) =
      s.holding i - share i phase + share i phase' := by
  obtain ⟨hlt, hget⟩ := List.getElem?_eq_some_iff.mp h
  have hpos : phase.holder = some i → 0 < s.holding i := by
    intro hold
    exact List.countP_pos_iff.mpr ⟨phase, List.mem_of_getElem? h, by simpa using hold⟩
  have hset : (s.setPhase request phase').holding i =
      s.holding i - (if phase.holder = some i then 1 else 0) +
        (if phase'.holder = some i then 1 else 0) := by
    unfold holding setPhase
    dsimp only
    rw [List.countP_set hlt, hget]
    simp
  rw [hset]
  unfold share
  by_cases hold : phase.holder = some i
  · have := hpos hold
    rw [if_pos hold, if_pos hold]
    split <;> omega
  · rw [if_neg hold, if_neg hold]
    split <;> omega

theorem holding_append (s : BalancedState) (req : HttpRequest) (i : Nat) :
    ({ s with requests := s.requests ++ [.arrived req] } : BalancedState).holding i =
      s.holding i := by
  unfold holding
  dsimp only
  rw [List.countP_append, List.countP_singleton]
  rfl

/-- Each counter says how many requests hold its backend, and no handler was left
    by an exception. -/
structure Accounted (s : BalancedState) : Prop where
  counted : ∀ i b, s.lb.backends[i]? = some b → b.activeConnections = (s.holding i : Int)
  unthrown : ∀ phase ∈ s.requests, ∀ backend e, phase ≠ .thrown backend e

/-- A request goes on, and one backend's counter may follow. -/
theorem Accounted.advance {s : BalancedState} (h : s.Accounted) {lb : LoadBalancer}
    {request : Nat} {phase phase' : HandlerPhase} (hphase : s.requests[request]? = some phase)
    (hcounter : ∀ i b', lb.backends[i]? = some b' → ∃ b, s.lb.backends[i]? = some b ∧
      b'.activeConnections = b.activeConnections - share i phase + share i phase')
    (hunthrown : ∀ backend e, phase' ≠ .thrown backend e) :
    ({ s with lb := lb }.setPhase request phase').Accounted where
  counted := by
    intro i b' hb'
    obtain ⟨b, hb, heq⟩ := hcounter i b' hb'
    have hset : (({ s with lb := lb } : BalancedState).setPhase request phase').holding i =
        (s.setPhase request phase').holding i := rfl
    rw [hset, holding_setPhase hphase, heq, h.counted i b hb]
  unthrown := by
    intro other hother backend e
    rcases List.mem_or_eq_of_mem_set hother with hmem | heq
    · exact h.unthrown other hmem backend e
    · rw [heq]
      exact hunthrown backend e

theorem getNext_counters {lb lb' : LoadBalancer} {result : Option (Nat × Backend)}
    (h : lb.getNext = (result, lb')) (i : Nat) (b' : Backend) (hb' : lb'.backends[i]? = some b') :
    ∃ b, lb.backends[i]? = some b ∧
      b'.activeConnections =
        b.activeConnections + if result.map (·.1) = some i then 1 else 0 := by
  have hscan := lb.getNext_scan
  rw [h] at hscan
  cases hscan with
  | found k backend tried passed here alive =>
    obtain ⟨b, hb, heq⟩ := LoadBalancer.getElem?_update hb'
    refine ⟨b, hb, ?_⟩
    rw [heq]
    by_cases hki : lb.positionAfter k = i
    · simp [hki, Backend.taken]
    · simp [hki]
  | exhausted passed => exact ⟨b', hb', by simp⟩

theorem Accounted.takeNext {s : BalancedState} (h : s.Accounted) {request : Nat}
    {req : HttpRequest} (hphase : s.requests[request]? = some (.arrived req)) :
    (s.takeNext request req).Accounted := by
  unfold BalancedState.takeNext
  rcases hnext : s.lb.getNext with ⟨_ | ⟨j, backend⟩, lb⟩
  · refine h.advance hphase (fun i b' hb' => ?_) (fun _ _ heq => by cases heq)
    obtain ⟨b, hb, heq⟩ := getNext_counters hnext i b' hb'
    exact ⟨b, hb, by simpa [share, HandlerPhase.holder] using heq⟩
  · refine h.advance hphase (fun i b' hb' => ?_) (fun _ _ heq => by cases heq)
    obtain ⟨b, hb, heq⟩ := getNext_counters hnext i b' hb'
    exact ⟨b, hb, by simpa [share, HandlerPhase.holder] using heq⟩

/-- An operation that leaves the counters alone. -/
theorem Accounted.update {s : BalancedState} (h : s.Accounted) (i : Nat) {f : Backend → Backend}
    (hf : ∀ b, (f b).activeConnections = b.activeConnections) :
    ({ s with lb := s.lb.update i f } : BalancedState).Accounted where
  counted := by
    intro j b' hb'
    obtain ⟨b, hb, rfl⟩ := LoadBalancer.getElem?_update hb'
    have hcount := h.counted j b hb
    split
    · rw [hf]
      exact hcount
    · exact hcount
  unthrown := h.unthrown

theorem recordCheck_activeConnections (alive : Bool) (b : Backend) :
    (b.recordCheck alive).activeConnections = b.activeConnections := by
  cases alive with
  | true =>
    unfold Backend.recordCheck
    cases b.isAlive <;> rfl
  | false => rw [LoadBalancer.recordCheck_false]

/-- **Step lemma**: every step keeps the counters. -/
theorem Accounted.step {s s' : BalancedState} {l : Step} (h : s.Accounted)
    (hstep : s.step l = some s') : s'.Accounted := by
  cases l with
  | arrive req =>
    obtain rfl := Option.some.inj hstep
    constructor
    · intro i b hb
      rw [holding_append]
      exact h.counted i b hb
    · intro phase hphase backend e
      rcases List.mem_append.mp hphase with hmem | hnew
      · exact h.unthrown phase hmem backend e
      · rw [List.mem_singleton.mp hnew]
        exact fun heq => by cases heq
  | getNext request =>
    dsimp only [BalancedState.step] at hstep
    split at hstep
    · next req hphase =>
      obtain rfl := Option.some.inj hstep
      exact h.takeNext hphase
    · cases hstep
  | exchange request ord socket =>
    dsimp only [BalancedState.step] at hstep
    split at hstep
    · next req backend target hphase =>
      -- `handle` has no exit but the one with a response
      rw [ProxyHandler.Throwing.handle_ok] at hstep
      obtain rfl := Option.some.inj hstep
      have hcounter : ∀ i b', s.lb.backends[i]? = some b' →
          ∃ b, s.lb.backends[i]? = some b ∧ b'.activeConnections =
            b.activeConnections - share i (.taken req backend target) +
              share i (.answered backend
                (ProxyHandler.handle ord socket req target req.clientIp)) := by
        intro i b hb
        exact ⟨b, hb, by simp [share, HandlerPhase.holder]⟩
      exact h.advance hphase hcounter (fun _ _ heq => by cases heq)
    · cases hstep
  | judge request =>
    dsimp only [BalancedState.step] at hstep
    split at hstep
    · next backend resp hphase =>
      obtain rfl := Option.some.inj hstep
      refine h.advance hphase (fun i b' hb' => ?_) (fun _ _ heq => by cases heq)
      split at hb'
      · obtain ⟨b, hb, rfl⟩ := LoadBalancer.getElem?_update hb'
        refine ⟨b, hb, ?_⟩
        split <;> simp [share, HandlerPhase.holder]
      · exact ⟨b', hb', by simp [share, HandlerPhase.holder]⟩
    · cases hstep
  | release request =>
    dsimp only [BalancedState.step] at hstep
    split at hstep
    · next backend resp hphase =>
      obtain rfl := Option.some.inj hstep
      refine h.advance hphase (fun i b' hb' => ?_) (fun _ _ heq => by cases heq)
      obtain ⟨b, hb, rfl⟩ := LoadBalancer.getElem?_update hb'
      refine ⟨b, hb, ?_⟩
      by_cases hij : backend = i
      · simp [hij, share, HandlerPhase.holder]
      · simp [hij, share, HandlerPhase.holder]
    · cases hstep
  | check backend alive =>
    obtain rfl := Option.some.inj hstep
    exact h.update backend (recordCheck_activeConnections alive)

/-! ## Section 4: Every Run -/

theorem accounted_of_reachable {s : BalancedState} (h : LTS.Reachable system s) : s.Accounted := by
  refine h.invariant (fun s hinit => ?_) (fun s l s' hs hstep => hs.step hstep)
  obtain ⟨⟨servers, hlb⟩, hnone⟩ := hinit
  constructor
  · intro i b hb
    rw [hlb] at hb
    obtain ⟨host, port, rfl⟩ := LoadBalancer.mem_create (List.mem_of_getElem? hb)
    unfold holding
    rw [hnone]
    rfl
  · intro phase hphase
    rw [hnone] at hphase
    cases hphase

/-- What the counter of a backend is for. -/
structure ConnectionsCounted (s : BalancedState) : Prop where
  counted : ∀ i b, s.lb.backends[i]? = some b → b.activeConnections = (s.holding i : Int)
  /-- The 32 bits of the `int` hold the number without a wrap: each of the requests has a
      worker thread of its own. -/
  unwrapped : ∀ i b, s.lb.backends[i]? = some b → s.holding i < 2 ^ 31 →
    b.counter.toInt = (s.holding i : Int)
  nonneg : ∀ b ∈ s.lb.backends, 0 ≤ b.activeConnections
  idle : (∀ phase ∈ s.requests, phase.inFlight = false) →
    ∀ b ∈ s.lb.backends, b.activeConnections = 0

/-- **In every interleaving the counters are the requests that hold a backend.** -/
theorem connectionsCounted_of_reachable {s : BalancedState} (h : LTS.Reachable system s) :
    ConnectionsCounted s := by
  have hacc := accounted_of_reachable h
  refine ⟨hacc.counted, fun i b hb hfew => ?_, fun b hb => ?_, fun hidle b hb => ?_⟩
  · unfold Backend.counter
    rw [hacc.counted i b hb]
    exact BitVec.toInt_ofInt_eq_self (by decide) (by omega) (by omega)
  · obtain ⟨i, hi⟩ := List.mem_iff_getElem?.mp hb
    rw [hacc.counted i b hi]
    omega
  · obtain ⟨i, hi⟩ := List.mem_iff_getElem?.mp hb
    -- a request at rest has released its backend, since none was left by an exception
    have hnone : s.holding i = 0 := by
      unfold holding
      rw [List.countP_eq_zero]
      intro phase hphase
      have hrest := hidle phase hphase
      cases phase with
      | finished resp => simp [HandlerPhase.holder]
      | thrown backend e => exact absurd rfl (hacc.unthrown _ hphase backend e)
      | _ => cases hrest
    rw [hacc.counted i b hi, hnone]
    rfl

/-- A backend that refuses connections. -/
def refusing : BackendSocket :=
  { opened := true, inetPton := fun _ => some 0x7f000001, connects := fun _ _ => false,
    sends := [], recvs := [] }

/-- Two requests at once; the first is not answered by its backend. -/
def overlapping : List Step :=
  [.arrive {}, .getNext 0, .arrive {}, .getNext 1,
    .exchange 0 UnorderedMap.IterOrder.listed refusing, .judge 0, .check 0 false, .release 0]

theorem connectionsCounted_overlapping :
    ∃ s, LTS.replay step { lb := LoadBalancer.threeBackends } overlapping = some s ∧
      ConnectionsCounted s :=
  ⟨_, rfl, connectionsCounted_of_reachable
    ⟨{ lb := LoadBalancer.threeBackends }, overlapping, ⟨⟨_, rfl⟩, rfl⟩, LTS.Run.of_replay rfl⟩⟩

end BalancedState

end VeloxServe
