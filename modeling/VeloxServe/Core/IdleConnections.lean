import VeloxServe.Core.ConnectionPersistence

/-! # Closing Idle Connections

    `cleanup_inactive_connections` judges a connection by `last_activity`, which
    only `handle_read` sets, and by `is_writing`, which `process_request` sets at
    its end. So it spares a response that is being sent, but not a request that
    is still with the thread pool, nor a client whose long response has just
    gone out.

    The steps of a connection are put on a clock here, with the times of its
    reads and of its completed responses.
-/

namespace VeloxServe

open StdString LTS

universe u

/-! ## The Clock -/

/-- The times of the `recv` calls that return data. -/
def recvTimes (results : List RecvResult) : List Time :=
  results.filterMap fun
    | .received _ now => some now
    | .wouldBlock => none
    | .error => none

/-- The times at which the `recv` loop of `handle_read` stores data. -/
def readTimes : List RecvResult → Connection → List Time
  | .received data now :: results, conn =>
    if data = [] then []
    else if conn.readBuffer.length + data.length > maxRequestSize then []
    else now :: readTimes results
      { conn with readBuffer := conn.readBuffer ++ data, lastActivity := now }
  | _, _ => []

/-- The times a step asks the clock for. -/
def ConnLabel.times {σ : Type u} : ConnLabel σ → List Time
  | .read results => recvTimes results
  | .work _ => []
  | .write _ => []
  | .hangup => []
  | .cleanup now => [now]
  | .other _ => []

/-- A connection with the time of its last step. -/
structure ClockedState (σ : Type u) where
  state : ConnState σ
  now : Time
  /-- When data was read. -/
  reads : List Time := []
  /-- When the last byte of a response was sent. -/
  responses : List Time := []

namespace ClockedState

variable {σ : Type u}

/-- What a step that ends at time `t` adds to the times of reads. -/
def readsOf (s : ClockedState σ) : ConnLabel σ → List Time
  | .read results => readTimes results s.state.conn
  | _ => []

/-- What a step that ends at time `t` adds to the times of responses. -/
def responsesOf (s : ClockedState σ) (t : Time) : ConnLabel σ → List Time
  | .write results =>
    if s.state.conn.writeBuffer ≠ [] ∧ (s.state.write results).conn.writeBuffer = [] then [t] else []
  | _ => []

/-- A step that ends at a time, no earlier than all times before it. -/
def step (svc : Service σ) (peer : Bytes) (s : ClockedState σ) (label : Time × ConnLabel σ) :
    Option (ClockedState σ) :=
  if (s.now :: (label.2.times ++ [label.1])).Pairwise (· ≤ ·) then
    (s.state.step svc peer label.2).map fun state =>
      { state := state
        now := label.1
        reads := s.reads ++ s.readsOf label.2
        responses := s.responses ++ s.responsesOf label.1 label.2 }
  else none

/-- A connection that has just been accepted. -/
def accepted (fd : Nat) (now : Time) (world : σ) : ClockedState σ where
  state := ConnState.accepted fd now world
  now := now

end ClockedState

/-- The runs of one connection from `peer`, at non-decreasing times. -/
def clockedSystem {σ : Type u} (svc : Service σ) (peer : Bytes) :
    System (ClockedState σ) (Time × ConnLabel σ) :=
  System.ofStep (fun s => ∃ fd now world, s = ClockedState.accepted fd now world)
    (ClockedState.step svc peer)

namespace ClockedState

variable {σ : Type u} {svc : Service σ} {peer : Bytes} {s s' : ClockedState σ}

/-! ## The Property -/

/-- Nothing has happened at these times in the last `TIMEOUT_SECONDS` seconds. -/
def LongAgo (now : Time) (times : List Time) : Prop :=
  ∀ t ∈ times, timeoutSeconds * 1000000000 < now - t

/-- The connection waits for the client, who has been idle. -/
structure Idle (s : ClockedState σ) (now : Time) : Prop where
  /-- No request is with the thread pool. -/
  pending : s.state.pending = 0
  /-- Every response has been sent completely. -/
  answered : s.state.conn.writeBuffer = []
  waiting : s.state.interest = .input
  reads : LongAgo now s.reads
  responses : LongAgo now s.responses

/-- `cleanup_inactive_connections` closes an open connection only when it is idle. -/
def ClosesIdle (s : ClockedState σ) (label : Time × ConnLabel σ) (s' : ClockedState σ) : Prop :=
  ∀ now, label.2 = .cleanup now → s.state.isOpen = true → s'.state.isOpen = false → s.Idle now

/-- When `cleanup_inactive_connections` finds an open connection that is not
    writing and has read nothing for more than `TIMEOUT_SECONDS`, then no task is
    pending for it and its last response was complete more than that ago. -/
def CleanedInTime (s : ClockedState σ) (label : Time × ConnLabel σ) (_ : ClockedState σ) : Prop :=
  ∀ now, label.2 = .cleanup now → s.state.isOpen = true → s.state.conn.isWriting = false →
    elapsedSeconds now s.state.conn.lastActivity > timeoutSeconds →
      s.state.pending = 0 ∧ LongAgo now s.responses

/-! ## The Invariant -/

/-- `last_activity` is the time of the last read, and `is_writing` says whether the
    connection is registered for writing. -/
structure Timed (s : ClockedState σ) : Prop where
  activity : s.state.conn.lastActivity ≤ s.now
  reads : ∀ t ∈ s.reads, t ≤ s.state.conn.lastActivity
  writing : s.state.isOpen = true → s.state.conn.isWriting = false →
    s.state.interest = .input ∧ s.state.conn.writeBuffer = []

theorem timed_accepted (fd : Nat) (now : Time) (world : σ) : (accepted fd now world).Timed :=
  ⟨Int.le_refl now, by simp [accepted], fun _ _ => ⟨rfl, rfl⟩⟩

end ClockedState

/-- The loop stores the time of the last data. -/
theorem recvLoop_times {results : List RecvResult} {conn : Connection} {first last : Time}
    (hconn : conn.lastActivity ≤ first)
    (htimes : (first :: (recvTimes results ++ [last])).Pairwise (· ≤ ·)) :
    conn.lastActivity ≤ (recvLoop results conn).2.2.lastActivity ∧
      (recvLoop results conn).2.2.lastActivity ≤ last ∧
      ∀ t ∈ readTimes results conn, t ≤ (recvLoop results conn).2.2.lastActivity := by
  have hlast : first ≤ last := (List.pairwise_cons.mp htimes).1 last (by simp)
  have hunchanged : conn.lastActivity ≤ last := Int.le_trans hconn hlast
  induction results generalizing conn first with
  | nil => exact ⟨Int.le_refl _, hunchanged, by simp [readTimes]⟩
  | cons result results ih =>
    rcases result with ⟨data, now⟩ | _ | _
    · unfold recvLoop readTimes
      split
      · exact ⟨Int.le_refl _, hunchanged, by simp⟩
      · split
        · exact ⟨Int.le_refl _, hunchanged, by simp⟩
        · obtain ⟨hfirst, hrest⟩ := List.pairwise_cons.mp htimes
          have hnow : first ≤ now := hfirst now (by simp [recvTimes])
          have hnow' : now ≤ last := (List.pairwise_cons.mp hrest).1 last (by simp)
          obtain ⟨hgrow, hend, hall⟩ :=
            @ih { conn with readBuffer := conn.readBuffer ++ data, lastActivity := now } now
              (Int.le_refl now) hrest hnow' hnow'
          refine ⟨Int.le_trans (Int.le_trans hconn hnow) hgrow, hend, fun t ht => ?_⟩
          rcases List.mem_cons.mp ht with rfl | ht
          · exact hgrow
          · exact hall t ht
    · exact ⟨Int.le_refl _, hunchanged, by simp [readTimes]⟩
    · exact ⟨Int.le_refl _, hunchanged, by simp [readTimes]⟩

theorem handleRead_times {results : List RecvResult} {conn : Connection} {first last : Time}
    (hconn : conn.lastActivity ≤ first)
    (htimes : (first :: (recvTimes results ++ [last])).Pairwise (· ≤ ·)) :
    conn.lastActivity ≤ (handleRead results conn).2.2.lastActivity ∧
      (handleRead results conn).2.2.lastActivity ≤ last ∧
      ∀ t ∈ readTimes results conn, t ≤ (handleRead results conn).2.2.lastActivity := by
  have hloop := recvLoop_times hconn htimes
  have hsame : (handleRead results conn).2.2 = (recvLoop results conn).2.2 := by
    unfold handleRead
    rcases recvLoop results conn with ⟨taken, _ | _, conn'⟩
    · rfl
    · dsimp only
      split <;> rfl
  rw [hsame]
  exact hloop

namespace ClockedState

variable {σ : Type u} {svc : Service σ} {peer : Bytes} {s s' : ClockedState σ}

/-- A step of the clocked system is a step of the connection at a later time. -/
theorem step_cases {label : Time × ConnLabel σ} (h : (clockedSystem svc peer).step s label s') :
    ∃ state, (connSystem svc peer).step s.state label.2 state ∧
      (s.now :: (label.2.times ++ [label.1])).Pairwise (· ≤ ·) ∧
      s' = { state := state
             now := label.1
             reads := s.reads ++ s.readsOf label.2
             responses := s.responses ++ s.responsesOf label.1 label.2 } := by
  have hstep : s.step svc peer label = some s' := h
  unfold step at hstep
  obtain ⟨htimes, hmap⟩ := Option.ite_none_right_eq_some.mp hstep
  obtain ⟨state, hstate, rfl⟩ := Option.map_eq_some_iff.mp hmap
  exact ⟨state, hstate, htimes, rfl⟩

/-- `is_writing` follows the registration. -/
theorem writing_step {s s' : ConnState σ} {label : ConnLabel σ}
    (h : s.isOpen = true → s.conn.isWriting = false →
      s.interest = .input ∧ s.conn.writeBuffer = [])
    (hcase : ConnState.StepCase svc peer s label s') (hopen : s'.isOpen = true)
    (hidle : s'.conn.isWriting = false) : s'.interest = .input ∧ s'.conn.writeBuffer = [] := by
  cases hcase with
  | readClosed => cases hopen
  | readWaiting hopen hin hsame =>
    have hbefore := h hopen (hsame.isWriting ▸ hidle)
    exact ⟨hin, hsame.writeBuffer.trans hbefore.2⟩
  | readDispatched hopen hin hsame =>
    have hbefore := h hopen (hsame.isWriting ▸ hidle)
    exact ⟨hin, hsame.writeBuffer.trans hbefore.2⟩
  | worked => cases hidle
  | writeEmpty => cases hopen
  | writePartly hwas hout =>
    -- a connection registered for writing is writing
    have hbefore := h hwas hidle
    rw [hout] at hbefore
    cases hbefore.1
  | writeRearmed => exact ⟨rfl, rfl⟩
  | writeClosed => cases hopen
  | hungUp => cases hopen
  | cleaned => cases hopen
  | spared => exact h hopen hidle
  | other => exact h hopen hidle

/-- `handle_read` moves `last_activity` to the last time data is stored. -/
theorem activity_of_read {results : List RecvResult} {state : ConnState σ}
    (h : (connSystem svc peer).step s.state (.read results) state) :
    state.conn = (handleRead results s.state.conn).2.2 := by
  have hstep : s.state.step svc peer (.read results) = some state := h
  unfold ConnState.step at hstep
  obtain ⟨-, hstate⟩ := Option.ite_none_right_eq_some.mp hstep
  obtain rfl : s.state.read results = state := Option.some.inj hstate
  unfold ConnState.read
  rcases handleRead results s.state.conn with ⟨taken, _ | _ | _, conn⟩ <;> rfl

/-- Nothing else moves it. -/
theorem activity_of_not_read {label : ConnLabel σ} {state : ConnState σ}
    (hlabel : ∀ results, label ≠ .read results)
    (h : (connSystem svc peer).step s.state label state) :
    state.conn.lastActivity = s.state.conn.lastActivity ∧ s.readsOf label = [] := by
  cases ConnState.step_cases h with
  | readClosed => exact absurd rfl (hlabel _)
  | readWaiting => exact absurd rfl (hlabel _)
  | readDispatched => exact absurd rfl (hlabel _)
  | _ => exact ⟨rfl, rfl⟩

/-- **Step lemma** for the clock. -/
theorem Timed.step {label : Time × ConnLabel σ} (h : s.Timed)
    (hstep : (clockedSystem svc peer).step s label s') : s'.Timed := by
  obtain ⟨state, hstate, htimes, rfl⟩ := step_cases hstep
  have hwriting := writing_step h.writing (ConnState.step_cases hstate)
  by_cases hread : ∃ results, label.2 = .read results
  · obtain ⟨results, hresults⟩ := hread
    rw [hresults] at hstate htimes
    have hconn := activity_of_read hstate
    obtain ⟨hgrow, hend, hall⟩ := handleRead_times h.activity htimes
    rw [← hconn] at hgrow hend hall
    refine ⟨hend, fun t ht => ?_, hwriting⟩
    rw [hresults] at ht
    rcases List.mem_append.mp ht with ht | ht
    · exact Int.le_trans (h.reads t ht) hgrow
    · exact hall t ht
  · have hother : ∀ results, label.2 ≠ .read results := fun results hr => hread ⟨results, hr⟩
    obtain ⟨hsame, hreads⟩ := activity_of_not_read hother hstate
    have hlater : s.now ≤ label.1 := (List.pairwise_cons.mp htimes).1 label.1 (by simp)
    refine ⟨?_, fun t ht => ?_, hwriting⟩
    · show state.conn.lastActivity ≤ label.1
      rw [hsame]
      exact Int.le_trans h.activity hlater
    · show t ≤ state.conn.lastActivity
      rw [hreads, List.append_nil] at ht
      rw [hsame]
      exact h.reads t ht

/-! ## What `cleanup_inactive_connections` Closes -/

/-- More than `TIMEOUT_SECONDS` whole seconds are more than that long. -/
theorem lt_of_elapsedSeconds {now t : Time} (hnow : t ≤ now)
    (h : elapsedSeconds now t > timeoutSeconds) : timeoutSeconds * 1000000000 < now - t := by
  unfold elapsedSeconds at h
  rw [Int.tdiv_eq_ediv_of_nonneg (Int.sub_nonneg_of_le hnow)] at h
  calc timeoutSeconds * 1000000000
      < (now - t) / 1000000000 * 1000000000 := Int.mul_lt_mul_of_pos_right h (by decide)
    _ ≤ now - t := Int.ediv_mul_le _ (by decide)

/-- A connection that is cleaned up has read nothing for long. -/
theorem Timed.idle (h : s.Timed) {now : Time} (hnow : s.now ≤ now) (hopen : s.state.isOpen = true)
    (hwriting : s.state.conn.isWriting = false)
    (helapsed : elapsedSeconds now s.state.conn.lastActivity > timeoutSeconds)
    (hpending : s.state.pending = 0) (hresponses : LongAgo now s.responses) : s.Idle now := by
  obtain ⟨hwaiting, hanswered⟩ := h.writing hopen hwriting
  have hlong := lt_of_elapsedSeconds (Int.le_trans h.activity hnow) helapsed
  refine ⟨hpending, hanswered, hwaiting, fun t ht => ?_, hresponses⟩
  exact Int.lt_of_lt_of_le hlong (Int.sub_le_sub_left (h.reads t ht) now)

/-- A step closes only an idle connection exactly when it is cleaned up in time. -/
theorem closesIdle_iff (h : s.Timed) {label : Time × ConnLabel σ}
    (hstep : (clockedSystem svc peer).step s label s') :
    s.CleanedInTime label s' ↔ s.ClosesIdle label s' := by
  obtain ⟨state, hstate, htimes, rfl⟩ := step_cases hstep
  have hcleanup : ∀ now, label.2 = .cleanup now → s.state.isOpen = true →
      s.now ≤ now ∧ state = s.state.cleanup now := by
    intro now hlabel hopen
    rw [hlabel] at hstate htimes
    have henabled : (if s.state.isOpen then some (s.state.cleanup now) else none) = some state :=
      hstate
    rw [if_pos hopen] at henabled
    exact ⟨(List.pairwise_cons.mp htimes).1 now (by simp [ConnLabel.times]),
      (Option.some.inj henabled).symm⟩
  constructor
  · intro hgood now hlabel hopen hclosed
    obtain ⟨hnow, rfl⟩ := hcleanup now hlabel hopen
    -- it was closed, so the guard held
    have hguard : elapsedSeconds now s.state.conn.lastActivity > timeoutSeconds ∧
        ¬ s.state.conn.isWriting = true := by
      by_contra hspared
      have hsame : s.state.cleanup now = s.state := if_neg hspared
      rw [hsame, hopen] at hclosed
      cases hclosed
    have hwriting : s.state.conn.isWriting = false := by simpa using hguard.2
    obtain ⟨hpending, hresponses⟩ := hgood now hlabel hopen hwriting hguard.1
    exact h.idle hnow hopen hwriting hguard.1 hpending hresponses
  · intro hcloses now hlabel hopen hwriting helapsed
    obtain ⟨-, rfl⟩ := hcleanup now hlabel hopen
    have hguard : elapsedSeconds now s.state.conn.lastActivity > timeoutSeconds ∧
        ¬ s.state.conn.isWriting = true := ⟨helapsed, by simp [hwriting]⟩
    have hclosed : (s.state.cleanup now).isOpen = false := by
      have hclose : s.state.cleanup now = s.state.close := if_pos hguard
      rw [hclose]
      rfl
    have hidle := hcloses now hlabel hopen hclosed
    exact ⟨hidle.pending, hidle.responses⟩

end ClockedState

open ClockedState

variable {σ : Type u}

/-- **Only idle connections are closed**: along a run `cleanup_inactive_connections`
    closes only connections that wait for the client, with no read and no completed
    response in the last `TIMEOUT_SECONDS` seconds, exactly when no task is pending
    and no response was completed lately whenever it finds a connection that is not
    writing and whose last read is that long ago. -/
theorem closes_idle_iff (svc : Service σ) (peer : Bytes) {s₀ s : ClockedState σ}
    {ls : List (Time × ConnLabel σ)} (h₀ : (clockedSystem svc peer).init s₀) :
    Run ((clockedSystem svc peer).restrict CleanedInTime) s₀ ls s ↔
      Run ((clockedSystem svc peer).restrict ClosesIdle) s₀ ls s := by
  obtain ⟨fd, now, world, rfl⟩ := h₀
  exact Run.restrict_iff (fun s label s' htimed hstep => closesIdle_iff htimed hstep)
    (fun s label s' htimed hstep _ => htimed.step hstep) (timed_accepted fd now world)

/-- One second, in the clock's nanoseconds. -/
def second : Time := 1000000000

/-- A client that sends half a request and then nothing. -/
theorem closes_idle_half :
    let ls : List (Time × ConnLabel Unit) :=
      [(second, .read [.received (bytes "GET /a HTTP/1.1\r\n") second, .wouldBlock]),
        (40 * second, .cleanup (40 * second))]
    ∀ s, Run ((clockedSystem healthService []).restrict CleanedInTime) (accepted 7 0 ()) ls s ↔
      Run ((clockedSystem healthService []).restrict ClosesIdle) (accepted 7 0 ()) ls s :=
  fun _ => closes_idle_iff healthService [] ⟨7, 0, (), rfl⟩

/-- A request that a worker has not answered after 39 seconds. -/
def slowRequest : List (Time × ConnLabel Unit) :=
  [(second, .read [.received (bytes "GET /a HTTP/1.1\r\n\r\n") second, .wouldBlock])]

/-- Its connection is closed while it waits for the response. -/
theorem closes_dispatched :
    ¬ ∀ (s₀ s s' : ClockedState Unit) (ls : List (Time × ConnLabel Unit))
      (label : Time × ConnLabel Unit), (clockedSystem healthService []).init s₀ →
        Run (clockedSystem healthService []) s₀ ls s →
          (clockedSystem healthService []).step s label s' → s.ClosesIdle label s' := by
  intro hall
  have hfacts : (replay (step healthService []) (accepted 7 0 ()) slowRequest).any (fun s =>
      decide (0 < s.state.pending) && (step healthService [] s (40 * second, .cleanup (40 * second))).any
        fun s' => s.state.isOpen && !s'.state.isOpen) = true := by
    decide +kernel
  obtain ⟨s, hs, hmid⟩ := (Option.any_eq_true _ _).mp hfacts
  obtain ⟨hpending, hlast⟩ := Bool.and_eq_true_iff.mp hmid
  obtain ⟨s', hs', hclosed⟩ := (Option.any_eq_true _ _).mp hlast
  obtain ⟨hopen, hshut⟩ := Bool.and_eq_true_iff.mp hclosed
  have hidle := hall _ s s' _ _ ⟨7, 0, (), rfl⟩ (Run.of_replay hs) hs' _ rfl hopen (by simpa using hshut)
  have hzero := hidle.pending
  have hpos := of_decide_eq_true hpending
  omega

end VeloxServe
