import VeloxServe.Core.EventLoopSafety

/-! # The Connection Tables in Every Run

    `handle_accept`, `handle_read`, `handle_write`, `process_request` and
    `close_connection` keep `connections_`, the interest list and the open
    descriptors together in every run, also when descriptor numbers are used
    again while a task still holds an old connection.

    * **Stale events**: the events of one `epoll_wait` are handled one after
      another, so that one may be handled after a worker has switched its
      descriptor. Reading and writing are not guarded here.
    * **Ownership**: a descriptor is open as long as it is in `connections_` or
      the rest of the process holds it, and never both.
-/

namespace VeloxServe

open StdString LTS

universe u

/-! ## Section 1: Stale Events -/

/-- The steps of the loop, with a read or write event also for a descriptor that
    waits for something else by now. -/
def LoopState.staleStep {σ : Type u} (svc : Service σ) (s : LoopState σ) :
    LoopLabel → Option (LoopState σ)
  | .read fd results => some (s.handleRead fd results)
  | .write fd results => some (s.handleWrite fd results)
  | label => s.step svc label

/-- The runs of the event loop on batches of events, from a server without connections. -/
def batchSystem {σ : Type u} (svc : Service σ) : System (LoopState σ) LoopLabel :=
  System.ofStep (fun s => ∃ world, s = { world := world }) (LoopState.staleStep svc)

/-- Every run whose events are fresh is one of these. -/
theorem batch_of_loop {σ : Type u} {svc : Service σ} {s s' : LoopState σ} {ls : List LoopLabel}
    (h : Run (loopSystem svc) s ls s') : Run (batchSystem svc) s ls s' := by
  refine h.mono fun s label s' hstep => ?_
  have hguarded : s.step svc label = some s' := hstep
  show s.staleStep svc label = some s'
  cases label with
  | read fd results => exact (Option.ite_none_right_eq_some.mp hguarded).2
  | write fd results => exact (Option.ite_none_right_eq_some.mp hguarded).2
  | _ => exact hguarded

/-- Whether the rest of the process holds `fd` after a step. -/
def LoopLabel.holds (fd : Nat) (held : Bool) : LoopLabel → Bool
  | .openOther fd' _ _ => fd' = fd || held
  | .closeOther fd' => held && fd' ≠ fd
  | _ => held

/-- Whether the rest of the process holds `fd` after a run. -/
def heldByOthers (ls : List LoopLabel) (fd : Nat) : Bool :=
  ls.foldl (fun held label => label.holds fd held) false

theorem heldByOthers_snoc (ls : List LoopLabel) (label : LoopLabel) (fd : Nat) :
    heldByOthers (ls ++ [label]) fd = label.holds fd (heldByOthers ls fd) := by
  unfold heldByOthers
  rw [List.foldl_append]
  rfl

/-! ## Section 2: Buffers -/

/-- A connection keeps no more than one request of the largest size, and has sent no
    more than there is. -/
structure Connection.Bounded (conn : Connection) : Prop where
  request : conn.readBuffer.length ≤ maxRequestSize
  sent : conn.bytesSent ≤ conn.writeBuffer.length

section

variable {conn : Connection}

theorem recvLoop_bounded (results : List RecvResult) (h : conn.readBuffer.length ≤ maxRequestSize) :
    (recvLoop results conn).2.2.readBuffer.length ≤ maxRequestSize := by
  induction results generalizing conn with
  | nil => exact h
  | cons result results ih =>
    rcases result with ⟨data, now⟩ | _ | _
    · unfold recvLoop
      split
      · exact h
      · split
        · exact h
        · next hfits =>
          refine ih ?_
          rw [List.length_append]
          omega
    · exact h
    · exact h

theorem handleRead_eq (results : List RecvResult) (conn : Connection) :
    (handleRead results conn).2.2 = (recvLoop results conn).2.2 := by
  unfold handleRead
  rcases recvLoop results conn with ⟨taken, _ | _, conn'⟩
  · rfl
  · dsimp only
    split <;> rfl

theorem Connection.Bounded.handleRead (h : conn.Bounded) (results : List RecvResult) :
    (handleRead results conn).2.2.fd = conn.fd ∧ (handleRead results conn).2.2.Bounded := by
  have hsame := (recvLoop_spec results conn).1
  rw [handleRead_eq]
  refine ⟨hsame.fd, recvLoop_bounded results h.request, ?_⟩
  rw [hsame.bytesSent, hsame.writeBuffer]
  exact h.sent

theorem Connection.Bounded.handleWrite (h : conn.Bounded) (results : List SendResult) :
    (handleWrite results conn).2.2.fd = conn.fd ∧ (handleWrite results conn).2.2.Bounded := by
  obtain ⟨n, hconn, -, hle, -⟩ := sendLoop_spec results conn
  have hsent := hle h.sent
  unfold VeloxServe.handleWrite
  split
  · exact ⟨rfl, h⟩
  · generalize sendLoop results conn = r at hconn
    obtain ⟨sent, outcome, conn'⟩ := r
    obtain rfl : conn' = { conn with bytesSent := conn.bytesSent + n } := hconn
    cases outcome with
    | complete => exact ⟨rfl, h.request, Nat.le_refl 0⟩
    | blocked => exact ⟨rfl, h.request, hsent⟩
    | failed => exact ⟨rfl, h.request, hsent⟩

theorem processRequest_bounded {σ : Type u} (svc : Service σ) (clientIp : Bytes)
    (conn : Connection) (world : σ) :
    (processRequest svc clientIp conn world).1.fd = conn.fd ∧
      (processRequest svc clientIp conn world).1.Bounded :=
  ⟨rfl, Nat.zero_le _, Nat.zero_le _⟩

end

namespace LoopState

variable {σ : Type u} {s s' : LoopState σ} {held : Nat → Bool}

/-! ## Section 3: The Tables -/

/-- **Invariant** of the tables, when the rest of the process holds the descriptors `held`. -/
structure Kept (held : Nat → Bool) (s : LoopState σ) : Prop where
  /-- `MAX_CONNECTIONS` is a bound. -/
  limit : s.connections.entries.length ≤ maxConnections
  /-- A connection is behind the number of its own open socket, -/
  mapped : ∀ fd c, s.connections.lookup fd = some c →
    (s.objects c).fd = fd ∧ ∃ file, s.kernel.files fd = some file ∧ file.id = c ∧
      file.pollable = true ∧ (file.peer = some (s.address c) ∨ file.peer = none)
  /-- which epoll watches. -/
  watched : ∀ fd c, s.connections.lookup fd = some c → s.kernel.registered fd ≠ none
  /-- Epoll watches nothing that is closed. -/
  closed : ∀ fd, s.kernel.files fd = none → s.kernel.registered fd = none
  fresh : ∀ fd file, s.kernel.files fd = some file → file.id < s.nextId
  /-- Every open descriptor has an owner, -/
  owned : ∀ fd file, s.kernel.files fd = some file →
    s.connections.lookup fd ≠ none ∨ held fd = true
  /-- which keeps it open, -/
  open_of_held : ∀ fd, held fd = true → s.kernel.files fd ≠ none
  /-- and only one. -/
  apart : ∀ fd c, s.connections.lookup fd = some c → held fd = false
  bounded : ∀ c, (s.objects c).Bounded

theorem kept_init (world : σ) : Kept (fun _ => false) ({ world := world } : LoopState σ) := by
  constructor
  · exact Nat.zero_le _
  · intro fd c h
    cases h
  · intro fd c h
    cases h
  · intro fd _
    rfl
  · intro fd file h
    cases h
  · intro fd file h
    cases h
  · intro fd h
    cases h
  · intro fd c h
    cases h
  · exact fun _ => ⟨Nat.zero_le _, Nat.le_refl 0⟩

theorem Kept.lookup_free (h : Kept held s) {fd : Nat} (hfree : s.kernel.files fd = none) :
    s.connections.lookup fd = none ∧ held fd = false := by
  constructor
  · rcases hc : s.connections.lookup fd with _ | c
    · rfl
    · obtain ⟨-, file, hfile, -⟩ := h.mapped fd c hc
      rw [hfree] at hfile
      cases hfile
  · cases hheld : held fd with
    | false => rfl
    | true => exact absurd hfree (h.open_of_held fd hheld)

/-- Closing a number takes it from its owner. -/
theorem Kept.close {held' : Nat → Bool} (h : Kept held s) (fd : Nat)
    (connections : UnorderedMap Nat Nat)
    (hmap : ∀ fd', connections.lookup fd' = if fd' = fd then none else s.connections.lookup fd')
    (hlen : connections.entries.length ≤ s.connections.entries.length)
    (hheld : ∀ fd', held' fd' = (held fd' && fd' ≠ fd)) :
    Kept held' { s with connections := connections, kernel := s.kernel.close fd } := by
  have hother {fd' : Nat} (hne : fd' ≠ fd) : held' fd' = held fd' := by
    rw [hheld, decide_eq_true hne, Bool.and_true]
  -- what is left open or mapped is what was so before under another number
  have hfiles : ∀ fd' file, (s.kernel.close fd).files fd' = some file →
      fd' ≠ fd ∧ s.kernel.files fd' = some file := by
    intro fd' file hfile
    by_cases heq : fd' = fd
    · subst heq
      simp [Kernel.close] at hfile
    · exact ⟨heq, by simpa [Kernel.close, heq] using hfile⟩
  have hlook : ∀ fd' c, connections.lookup fd' = some c →
      fd' ≠ fd ∧ s.connections.lookup fd' = some c := by
    intro fd' c hc
    rw [hmap] at hc
    by_cases heq : fd' = fd
    · rw [if_pos heq] at hc
      cases hc
    · rw [if_neg heq] at hc
      exact ⟨heq, hc⟩
  constructor
  · exact Nat.le_trans hlen h.limit
  · intro fd' c hc
    obtain ⟨hne, hc⟩ := hlook fd' c hc
    obtain ⟨hfd, file, hfile, hrest⟩ := h.mapped fd' c hc
    refine ⟨hfd, file, ?_, hrest⟩
    simpa [Kernel.close, hne] using hfile
  · intro fd' c hc
    obtain ⟨hne, hc⟩ := hlook fd' c hc
    simpa [Kernel.close, hne] using h.watched fd' c hc
  · intro fd' hnone
    show Function.update s.kernel.registered fd none fd' = none
    by_cases heq : fd' = fd
    · rw [heq, Function.update_self]
    · rw [Function.update_of_ne heq]
      refine h.closed fd' ?_
      simpa [Kernel.close, heq] using hnone
  · intro fd' file hfile
    exact h.fresh fd' file (hfiles _ _ hfile).2
  · intro fd' file hfile
    obtain ⟨hne, hfile⟩ := hfiles _ _ hfile
    show connections.lookup fd' ≠ none ∨ _
    rw [hmap, if_neg hne, hother hne]
    exact h.owned fd' file hfile
  · intro fd' hfd'
    rw [hheld, Bool.and_eq_true, decide_eq_true_eq] at hfd'
    obtain ⟨hfd', hne⟩ := hfd'
    simpa [Kernel.close, hne] using h.open_of_held fd' hfd'
  · intro fd' c hc
    obtain ⟨hne, hc⟩ := hlook fd' c hc
    rw [hother hne]
    exact h.apart fd' c hc
  · exact h.bounded

/-- A descriptor that is not watched yet is opened by the rest of the process. -/
theorem Kept.openOther {held' : Nat → Bool} (h : Kept held s) {fd : Nat}
    (hfree : s.kernel.files fd = none) (peer : Option Bytes) (pollable : Bool)
    (hheld : ∀ fd', held' fd' = (fd = fd' || held fd')) :
    Kept held' (s.openOther fd peer pollable) := by
  have hother {fd' : Nat} (hne : fd' ≠ fd) : held' fd' = held fd' := by
    rw [hheld, decide_eq_false fun heq => hne heq.symm, Bool.false_or]
  have hunmapped := (h.lookup_free hfree).1
  have hlook : ∀ fd' c, s.connections.lookup fd' = some c → fd' ≠ fd := by
    intro fd' c hc heq
    rw [heq, hunmapped] at hc
    cases hc
  have hfiles : ∀ fd', fd' ≠ fd →
      (s.openOther fd peer pollable).kernel.files fd' = s.kernel.files fd' := by
    intro fd' hne
    exact Function.update_of_ne hne _ _
  constructor
  · exact h.limit
  · intro fd' c hc
    obtain ⟨hfd, file, hfile, hrest⟩ := h.mapped fd' c hc
    refine ⟨hfd, file, ?_, hrest⟩
    rw [hfiles fd' (hlook fd' c hc)]
    exact hfile
  · exact h.watched
  · intro fd' hnone
    have hne : fd' ≠ fd := by
      intro heq
      subst heq
      simp [LoopState.openOther, Kernel.openFile] at hnone
    rw [hfiles fd' hne] at hnone
    exact h.closed fd' hnone
  · intro fd' file hfile
    show file.id < s.nextId + 1
    by_cases heq : fd' = fd
    · subst heq
      have hnew : some (⟨s.nextId, peer, pollable⟩ : Descriptor) = some file := by
        simpa [LoopState.openOther, Kernel.openFile] using hfile
      obtain rfl := Option.some.inj hnew
      exact Nat.lt_succ_self _
    · rw [hfiles fd' heq] at hfile
      have hlt := h.fresh fd' file hfile
      omega
  · intro fd' file hfile
    by_cases heq : fd' = fd
    · right
      rw [hheld, decide_eq_true heq.symm, Bool.true_or]
    · rw [hfiles fd' heq] at hfile
      rw [hother heq]
      exact h.owned fd' file hfile
  · intro fd' hfd'
    by_cases heq : fd' = fd
    · subst heq
      simp [LoopState.openOther, Kernel.openFile]
    · rw [hfiles fd' heq]
      rw [hother heq] at hfd'
      exact h.open_of_held fd' hfd'
  · intro fd' c hc
    rw [hother (hlook fd' c hc)]
    exact h.apart fd' c hc
  · exact h.bounded

/-- Epoll may watch any open file, whosever it is. -/
theorem Kept.register (h : Kept held s) {fd : Nat} (hopen : s.kernel.files fd ≠ none)
    (events : Interest) : Kept held { s with kernel := s.kernel.register fd events } := by
  refine ⟨h.limit, h.mapped, fun fd' c hc => ?_, fun fd' hnone => ?_, h.fresh, h.owned,
    h.open_of_held, h.apart, h.bounded⟩
  · show Function.update s.kernel.registered fd (some events) fd' ≠ none
    by_cases heq : fd' = fd
    · rw [heq, Function.update_self]
      exact Option.some_ne_none events
    · rw [Function.update_of_ne heq]
      exact h.watched fd' c hc
  · have hne : fd' ≠ fd := by
      intro heq
      subst heq
      exact hopen hnone
    show Function.update s.kernel.registered fd (some events) fd' = none
    rw [Function.update_of_ne hne]
    exact h.closed fd' hnone

/-- `modify` watches a file that is open, or does nothing. -/
theorem Kept.modify (h : Kept held s) (fd : Nat) (events : Interest) :
    Kept held { s with
      kernel := (EpollWrapper.modify EpollWrapper.fallbacks fd events s.kernel).2 } := by
  rw [EpollWrapper.modify_eq]
  split
  · next hwatch =>
    obtain ⟨file, hfile, -⟩ := (Option.any_eq_true _ _).mp hwatch
    refine h.register ?_ events
    rw [hfile]
    exact Option.some_ne_none file
  · exact h

theorem Kept.setObject (h : Kept held s) {c : Nat} {conn : Connection}
    (hconn : conn.fd = (s.objects c).fd ∧ conn.Bounded) :
    Kept held { s with objects := Function.update s.objects c conn } := by
  refine ⟨h.limit, fun fd c' hc => ?_, h.watched, h.closed, h.fresh, h.owned, h.open_of_held,
    h.apart, fun c' => ?_⟩
  · obtain ⟨hfd, hrest⟩ := h.mapped fd c' hc
    refine ⟨?_, hrest⟩
    show (Function.update s.objects c conn c').fd = fd
    by_cases heq : c' = c
    · rw [heq, Function.update_self, hconn.1, ← heq]
      exact hfd
    · rw [Function.update_of_ne heq]
      exact hfd
  · show (Function.update s.objects c conn c').Bounded
    by_cases heq : c' = c
    · rw [heq, Function.update_self]
      exact hconn.2
    · rw [Function.update_of_ne heq]
      exact h.bounded c'

/-- The tables do not depend on the queue or on what tasks do elsewhere. -/
theorem Kept.elsewhere (h : Kept held s) (tasks : List Nat) (charged : List (Nat × Bytes))
    (world : σ) : Kept held { s with tasks := tasks, charged := charged, world := world } :=
  ⟨h.limit, h.mapped, h.watched, h.closed, h.fresh, h.owned, h.open_of_held, h.apart, h.bounded⟩

/-! ## Section 4: Handlers -/

theorem erase_length_le {κ : Type*} {ν : Type*} [DecidableEq κ] (k : κ) (m : UnorderedMap κ ν) :
    (m.erase k).entries.length ≤ m.entries.length :=
  (List.kerase_sublist k m.entries).length_le

theorem Kept.closeConnection (h : Kept held s) (fd : Nat) : Kept held (s.closeConnection fd) := by
  unfold LoopState.closeConnection
  split
  · exact h
  · next c hc =>
    refine h.close fd (s.connections.erase fd) (fun fd' => ?_) (erase_length_le _ _) (fun fd' => ?_)
    · by_cases heq : fd' = fd
      · rw [heq, if_pos rfl, AList.lookup_erase]
      · rw [if_neg heq, AList.lookup_erase_ne heq]
    · by_cases heq : fd' = fd
      · rw [heq, h.apart fd c hc]
        rfl
      · rw [decide_eq_true heq, Bool.and_true]

theorem set_new_length {κ : Type*} {ν : Type*} [DecidableEq κ] {k : κ} {v : ν}
    {m : UnorderedMap κ ν} (h : m.lookup k = none) :
    (UnorderedMap.set k v m).entries.length = m.entries.length + 1 := by
  have hnot : k ∉ m := AList.lookup_eq_none.mp h
  unfold UnorderedMap.set
  rw [if_neg hnot, AList.entries_insert_of_notMem hnot, List.length_cons]

/-- The socket of a connection over the limit is closed again. -/
theorem Kept.refused (h : Kept held s) {fd : Nat} (hfree : s.kernel.files fd = none)
    (peer : Bytes) : Kept held { s.openOther fd (some peer) true with
      kernel := (s.openOther fd (some peer) true).kernel.close fd } := by
  obtain ⟨hunmapped, hunheld⟩ := h.lookup_free hfree
  -- for a moment the socket belongs to nobody
  have hopened : Kept (fun fd' => fd = fd' || held fd') (s.openOther fd (some peer) true) :=
    h.openOther hfree (some peer) true fun _ => rfl
  refine hopened.close fd s.connections (fun fd' => ?_) (Nat.le_refl _) (fun fd' => ?_)
  · by_cases heq : fd' = fd
    · rw [heq, if_pos rfl]
      exact hunmapped
    · rw [if_neg heq]
      rfl
  · by_cases heq : fd' = fd
    · rw [heq, hunheld]
      simp
    · simp [heq, Ne.symm heq]

/-- A connection that has been taken in owns its socket, which is watched. -/
theorem Kept.admitted (h : Kept held s) {fd : Nat} (hfree : s.kernel.files fd = none)
    (hroom : s.connections.entries.length < maxConnections) (peer : Bytes) (now : Time) :
    Kept held { s.openOther fd (some peer) true with
      kernel := (s.openOther fd (some peer) true).kernel.register fd .input
      objects := Function.update s.objects s.nextId { fd := fd, lastActivity := now }
      address := Function.update s.address s.nextId peer
      connections := UnorderedMap.set fd s.nextId s.connections } := by
  obtain ⟨hunmapped, hunheld⟩ := h.lookup_free hfree
  have hopened : Kept (fun fd' => fd = fd' || held fd') (s.openOther fd (some peer) true) :=
    h.openOther hfree (some peer) true fun _ => rfl
  have hfile : (s.openOther fd (some peer) true).kernel.files fd ≠ none := by
    simp [LoopState.openOther, Kernel.openFile]
  have hwatched := hopened.register hfile .input
  -- an older connection is behind another number and is another object
  have hlast : ∀ fd' c, fd' ≠ fd → s.connections.lookup fd' = some c → c ≠ s.nextId := by
    intro fd' c _ hc heq
    obtain ⟨-, file, hfile, hid, -⟩ := h.mapped fd' c hc
    have hlt := h.fresh fd' file hfile
    omega
  constructor
  · show (UnorderedMap.set fd s.nextId s.connections).entries.length ≤ maxConnections
    rw [set_new_length hunmapped]
    omega
  · intro fd' c hc
    rw [UnorderedMap.lookup_set] at hc
    by_cases heq : fd' = fd
    · subst heq
      rw [if_pos rfl] at hc
      obtain rfl := Option.some.inj hc
      refine ⟨by simp, ⟨s.nextId, some peer, true⟩, ?_, rfl, rfl, .inl ?_⟩
      · simp [Kernel.register, LoopState.openOther, Kernel.openFile]
      · simp
    · rw [if_neg heq] at hc
      obtain ⟨hfd, file, hfile, hid, hpoll, hpeer⟩ := h.mapped fd' c hc
      have hne := hlast fd' c heq hc
      refine ⟨?_, file, ?_, hid, hpoll, ?_⟩
      · simpa [hne] using hfd
      · simpa [Kernel.register, LoopState.openOther, Kernel.openFile, heq] using hfile
      · simpa [hne] using hpeer
  · intro fd' c hc
    show Function.update s.kernel.registered fd (some Interest.input) fd' ≠ none
    rw [UnorderedMap.lookup_set] at hc
    by_cases heq : fd' = fd
    · rw [heq, Function.update_self]
      exact Option.some_ne_none _
    · rw [if_neg heq] at hc
      rw [Function.update_of_ne heq]
      exact h.watched fd' c hc
  · exact hwatched.closed
  · exact hwatched.fresh
  · intro fd' file hfile
    rw [UnorderedMap.lookup_set]
    by_cases heq : fd' = fd
    · rw [if_pos heq]
      exact Or.inl (Option.some_ne_none _)
    · rw [if_neg heq]
      have howned : s.connections.lookup fd' ≠ none ∨ (fd = fd' || held fd' : Bool) = true :=
        hwatched.owned fd' file hfile
      simpa [Ne.symm heq] using howned
  · intro fd' hfd'
    exact hwatched.open_of_held fd' (by rw [hfd', Bool.or_true])
  · intro fd' c hc
    rw [UnorderedMap.lookup_set] at hc
    by_cases heq : fd' = fd
    · rw [heq]
      exact hunheld
    · rw [if_neg heq] at hc
      exact h.apart fd' c hc
  · intro c
    show (Function.update s.objects s.nextId _ c).Bounded
    by_cases heq : c = s.nextId
    · rw [heq, Function.update_self]
      exact ⟨Nat.zero_le _, Nat.le_refl 0⟩
    · rw [Function.update_of_ne heq]
      exact h.bounded c

/-- A new connection is refused and its socket closed, or it has a free place in the
    table and is watched. -/
theorem Kept.handleAccept (h : Kept held s) {fd : Nat} (hfree : s.kernel.files fd = none)
    (peer : Bytes) (now : Time) : Kept held (s.handleAccept fd peer now) := by
  unfold LoopState.handleAccept
  dsimp only
  split
  · exact h.refused hfree peer
  · next hroom =>
    have hwatch : EpollWrapper.watchable fd
        (s.kernel.openFile fd ⟨s.nextId, some peer, true⟩) = true := by
      simp [EpollWrapper.watchable, Kernel.openFile]
    rw [EpollWrapper.add_eq, if_pos hwatch]
    exact h.admitted hfree (Nat.lt_of_not_le hroom) peer now

theorem Kept.handleRead (h : Kept held s) (fd : Nat) (results : List RecvResult) :
    Kept held (s.handleRead fd results) := by
  unfold LoopState.handleRead
  rcases hc : s.connections.lookup fd with _ | c
  · exact h
  dsimp only
  have hconn := (h.bounded c).handleRead results
  generalize VeloxServe.handleRead results (s.objects c) = r at hconn
  obtain ⟨taken, outcome, conn⟩ := r
  have hset := h.setObject hconn
  cases outcome with
  | close => exact hset.closeConnection fd
  | wait => exact hset
  | dispatch => exact hset.elsewhere (s.tasks ++ [c]) s.charged s.world

theorem Kept.handleWrite (h : Kept held s) (fd : Nat) (results : List SendResult) :
    Kept held (s.handleWrite fd results) := by
  unfold LoopState.handleWrite
  rcases hc : s.connections.lookup fd with _ | c
  · exact h
  dsimp only
  have hconn := (h.bounded c).handleWrite results
  generalize VeloxServe.handleWrite results (s.objects c) = r at hconn
  obtain ⟨sent, outcome, conn⟩ := r
  have hset := h.setObject hconn
  cases outcome with
  | close => exact hset.closeConnection fd
  | wait => exact hset
  | rearm => exact hset.modify fd .input

/-- A task changes its own object, and the registration of whatever file now has its number. -/
theorem Kept.processTask (h : Kept held s) (svc : Service σ) (c : Nat) (tasks : List Nat) :
    Kept held { s.processTask svc c with tasks := tasks } := by
  have hconn := processRequest_bounded svc (s.getClientIp (s.objects c).fd) (s.objects c) s.world
  have hset := (h.setObject hconn).modify (s.objects c).fd .output
  exact hset.elsewhere tasks (s.charged ++ [(c, s.getClientIp (s.objects c).fd)])
    (processRequest svc (s.getClientIp (s.objects c).fd) (s.objects c) s.world).2

theorem Kept.reset (h : Kept held s) (fd : Nat) : Kept held (s.reset fd) := by
  unfold LoopState.reset
  rcases hfile : s.kernel.files fd with _ | file
  · exact h
  -- the file stays open under its number, without its peer
  have hfiles : ∀ fd', Function.update s.kernel.files fd (some { file with peer := none }) fd' =
      (s.kernel.files fd').map fun old => if fd' = fd then { old with peer := none } else old := by
    intro fd'
    by_cases heq : fd' = fd
    · rw [heq, Function.update_self, hfile]
      simp
    · rw [Function.update_of_ne heq]
      simp [heq]
  have hold : ∀ fd' file', Function.update s.kernel.files fd
      (some { file with peer := none }) fd' = some file' →
      ∃ old, s.kernel.files fd' = some old ∧ old.id = file'.id := by
    intro fd' file' hfile'
    rw [hfiles] at hfile'
    obtain ⟨old, hold, rfl⟩ := Option.map_eq_some_iff.mp hfile'
    refine ⟨old, hold, ?_⟩
    split <;> rfl
  constructor
  · exact h.limit
  · intro fd' c hc
    obtain ⟨hfd, old, hold, hid, hpoll, hpeer⟩ := h.mapped fd' c hc
    refine ⟨hfd, ?_⟩
    show ∃ new, Function.update s.kernel.files fd (some { file with peer := none }) fd' =
      some new ∧ _
    rw [hfiles, hold]
    refine ⟨_, rfl, ?_⟩
    split
    · exact ⟨hid, hpoll, .inr rfl⟩
    · exact ⟨hid, hpoll, hpeer⟩
  · exact h.watched
  · intro fd' hnone
    refine h.closed fd' ?_
    rw [show (s.kernel.openFile fd { file with peer := none }).files fd' = _ from hfiles fd'] at hnone
    exact Option.map_eq_none_iff.mp hnone
  · intro fd' file' hfile'
    obtain ⟨old, hold, hid⟩ := hold fd' file' hfile'
    rw [← hid]
    exact h.fresh fd' old hold
  · intro fd' file' hfile'
    obtain ⟨old, hold, -⟩ := hold fd' file' hfile'
    exact h.owned fd' old hold
  · intro fd' hheld hnone
    rw [show (s.kernel.openFile fd { file with peer := none }).files fd' = _ from hfiles fd'] at hnone
    exact h.open_of_held fd' hheld (Option.map_eq_none_iff.mp hnone)
  · exact h.apart
  · exact h.bounded

/-! ## Section 5: Every Run -/

/-- **Step lemma**, with the descriptors the rest of the process holds. -/
theorem Kept.step (h : Kept held s) {svc : Service σ} {label : LoopLabel}
    (hstep : s.staleStep svc label = some s') : Kept (fun fd => label.holds fd (held fd)) s' := by
  cases label with
  | accept fd peer now =>
    obtain ⟨hfree, heq⟩ := Option.ite_none_right_eq_some.mp hstep
    obtain rfl := Option.some.inj heq
    exact h.handleAccept hfree peer now
  | close fd =>
    obtain rfl := Option.some.inj hstep
    exact h.closeConnection fd
  | read fd results =>
    obtain rfl := Option.some.inj hstep
    exact h.handleRead fd results
  | write fd results =>
    obtain rfl := Option.some.inj hstep
    exact h.handleWrite fd results
  | work task =>
    dsimp only [staleStep, LoopState.step] at hstep
    split at hstep
    · cases hstep
    · next c htask =>
      obtain rfl := Option.some.inj hstep
      exact h.processTask svc c (s.tasks.eraseIdx task)
  | reset fd =>
    obtain rfl := Option.some.inj hstep
    exact h.reset fd
  | openOther fd peer pollable =>
    obtain ⟨hfree, heq⟩ := Option.ite_none_right_eq_some.mp hstep
    obtain rfl := Option.some.inj heq
    exact h.openOther hfree peer pollable fun _ => rfl
  | closeOther fd =>
    obtain ⟨hunmapped, heq⟩ := Option.ite_none_right_eq_some.mp hstep
    obtain rfl := Option.some.inj heq
    refine h.close fd s.connections (fun fd' => ?_) (Nat.le_refl _) (fun fd' => ?_)
    · by_cases heq : fd' = fd
      · rw [heq, if_pos rfl]
        exact hunmapped
      · rw [if_neg heq]
    · show (held fd' && fd ≠ fd') = (held fd' && fd' ≠ fd)
      rw [decide_eq_decide.mpr ne_comm]

theorem kept_of_run {svc : Service σ} {s₀ : LoopState σ} {ls : List LoopLabel}
    (hinit : (batchSystem svc).init s₀) (hrun : Run (batchSystem svc) s₀ ls s) :
    Kept (heldByOthers ls) s := by
  obtain ⟨world, rfl⟩ := hinit
  induction hrun with
  | nil => exact kept_init world
  | @snoc t t' past label _ hl ih =>
    have hnext := ih.step hl
    have hheld : (fun fd => label.holds fd (heldByOthers past fd)) =
        heldByOthers (past ++ [label]) := by
      funext fd
      exact (heldByOthers_snoc past label fd).symm
    rw [hheld] at hnext
    exact hnext

end LoopState

open LoopState

/-- **No descriptor is lost and none is shared**: in every run there are at most
    `MAX_CONNECTIONS` connections, each is behind the number of its own open socket and is
    watched, a number is open exactly when either it is in `connections_` or the rest of
    the process holds it, and no buffer outgrows a request. -/
theorem connections_owned {σ : Type u} (svc : Service σ) {s₀ s : LoopState σ} {ls : List LoopLabel}
    (hinit : (batchSystem svc).init s₀) (hrun : Run (batchSystem svc) s₀ ls s) :
    s.connections.entries.length ≤ maxConnections ∧
    (∀ fd, s.kernel.files fd ≠ none ↔
      Xor (s.connections.lookup fd ≠ none) (heldByOthers ls fd = true)) ∧
    (∀ fd c, s.connections.lookup fd = some c →
      (s.objects c).fd = fd ∧ s.kernel.registered fd ≠ none ∧
        ∃ file, s.kernel.files fd = some file ∧ file.id = c ∧
          (file.peer = some (s.address c) ∨ file.peer = none)) ∧
    (∀ c, (s.objects c).readBuffer.length ≤ maxRequestSize ∧
      (s.objects c).bytesSent ≤ (s.objects c).writeBuffer.length) := by
  have hkept := kept_of_run hinit hrun
  refine ⟨hkept.limit, fun fd => ?_, fun fd c hc => ?_, fun c => ?_⟩
  · constructor
    · intro hopen
      obtain ⟨file, hfile⟩ := Option.ne_none_iff_exists'.mp hopen
      rcases hkept.owned fd file hfile with hmapped | hheld
      · obtain ⟨c, hc⟩ := Option.ne_none_iff_exists'.mp hmapped
        exact Or.inl ⟨hmapped, by simp [hkept.apart fd c hc]⟩
      · refine Or.inr ⟨hheld, fun hmapped => ?_⟩
        obtain ⟨c, hc⟩ := Option.ne_none_iff_exists'.mp hmapped
        have hapart := hkept.apart fd c hc
        rw [hheld] at hapart
        cases hapart
    · intro howner
      rcases howner with ⟨hmapped, -⟩ | ⟨hheld, -⟩
      · obtain ⟨c, hc⟩ := Option.ne_none_iff_exists'.mp hmapped
        obtain ⟨-, file, hfile, -⟩ := hkept.mapped fd c hc
        rw [hfile]
        exact Option.some_ne_none file
      · exact hkept.open_of_held fd hheld
  · obtain ⟨hfd, file, hfile, hid, -, hpeer⟩ := hkept.mapped fd c hc
    exact ⟨hfd, hkept.watched fd c hc, file, hfile, hid, hpeer⟩
  · exact ⟨(hkept.bounded c).request, (hkept.bounded c).sent⟩

/-- A connection whose number is used again by the process, and then by a second client. -/
def reusedNumber : List LoopLabel :=
  [.accept 7 (bytes "10.0.0.1") 0, .read 7 [.error], .openOther 7 none true, .closeOther 7,
    .accept 7 (bytes "10.0.0.2") 1]

theorem connections_owned_reused :
    ∃ s, replay (staleStep healthService) emptyLoop reusedNumber = some s ∧
      s.connections.entries.length ≤ maxConnections ∧
      (∀ fd, s.kernel.files fd ≠ none ↔
        Xor (s.connections.lookup fd ≠ none) (heldByOthers reusedNumber fd = true)) ∧
      (∀ fd c, s.connections.lookup fd = some c →
        (s.objects c).fd = fd ∧ s.kernel.registered fd ≠ none ∧
          ∃ file, s.kernel.files fd = some file ∧ file.id = c ∧
            (file.peer = some (s.address c) ∨ file.peer = none)) ∧
      (∀ c, (s.objects c).readBuffer.length ≤ maxRequestSize ∧
        (s.objects c).bytesSent ≤ (s.objects c).writeBuffer.length) :=
  ⟨_, rfl, connections_owned healthService ⟨(), rfl⟩ (Run.of_replay rfl)⟩

end VeloxServe
