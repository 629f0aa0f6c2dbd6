import Mathlib.Data.List.Perm.Basic
import VeloxServe.Core.ConnectionTables

/-! # Stopping the Server

    `Server::stop` on the tables of the event loop. It runs on the thread of the
    loop, so while it waits for the workers no event is handled, but the queued
    requests are processed, peers go away, and the rest of the process opens and
    closes files. Then every connection and the listening socket are closed.

    * **Drained**: every queued request is processed exactly once, whatever the
      workers do in between, but its response is not sent any more.
    * **Closed**: no descriptor of the server is left open.
-/

namespace VeloxServe

open StdString LTS

universe u

/-! ## Section 1: Model -/

/-- `epoll_ctl` with `EPOLL_CTL_DEL`. -/
def epollCtlDel (fd : Nat) (k : Kernel) : Except Errno Kernel :=
  match k.files fd with
  | none => .error .badFd
  | some file =>
    if !file.pollable then .error .notPermitted
    else match k.registered fd with
      | none => .error .noEntry
      | some _ => .ok { k with registered := Function.update k.registered fd none }

/-- Stop watching. -/
def EpollWrapper.remove (fd : Nat) (k : Kernel) : Bool × Kernel :=
  match epollCtlDel fd k with
  | .ok k => (true, k)
  | .error _ => (false, k)

/-- The parts of a `Server` that `stop` looks at. -/
structure RunningServer (σ : Type u) where
  loop : LoopState σ
  running : Bool
  /-- `server_fd_`, `none` for -1. -/
  serverFd : Option Nat

namespace RunningServer

variable {σ : Type u}

/-- `remove` and `close`. -/
def removeAndClose (fd : Nat) (k : Kernel) : Kernel :=
  (EpollWrapper.remove fd k).2.close fd

/-- Close all client connections. -/
def closeClients (order : UnorderedMap.IterOrder Nat Nat) (s : LoopState σ) : LoopState σ :=
  { s with
    kernel := (order.order s.connections).foldl (fun k kv => removeAndClose kv.1 k) s.kernel
    connections := ∅ }

/-- Close the listening socket. -/
def closeListener (serverFd : Option Nat) (s : LoopState σ) : LoopState σ :=
  match serverFd with
  | none => s
  | some fd => { s with kernel := removeAndClose fd s.kernel }

/-- What can happen while `stop` waits in `ThreadPool::shutdown`. -/
def whileDraining : LoopLabel → Bool
  | .work _ => true
  | .reset _ => true
  | .openOther _ _ _ => true
  | .closeOther _ => true
  | _ => false

/-- The steps while `stop` waits. -/
def drainSystem (svc : Service σ) : System (LoopState σ) LoopLabel :=
  (batchSystem svc).restrict fun _ label _ => whileDraining label = true

/-- `stop`, with what happens before the pool has shut down. -/
inductive Stops (svc : Service σ) (order : UnorderedMap.IterOrder Nat Nat) (r : RunningServer σ) :
    List LoopLabel → RunningServer σ → Prop where
  | notRunning (stopped : r.running = false) : Stops svc order r [] r
  | drained {ls : List LoopLabel} {s : LoopState σ} (running : r.running = true)
      (drain : Run (drainSystem svc) r.loop ls s) (empty : s.tasks = []) :
      Stops svc order r ls
        { loop := closeListener r.serverFd (closeClients order s)
          running := false
          serverFd := none }

/-! ## Section 2: Closing -/

/-- Closing a descriptor takes it off the interest list anyway. -/
theorem removeAndClose_eq (fd : Nat) (k : Kernel) : removeAndClose fd k = k.close fd := by
  unfold removeAndClose EpollWrapper.remove epollCtlDel
  rcases k.files fd with _ | file
  · rfl
  · cases hpoll : file.pollable with
    | false => simp [hpoll]
    | true =>
      rcases hreg : k.registered fd with _ | events
      · simp [hpoll]
      · simp [hpoll, Kernel.close]

/-- The descriptors of a list are closed, in whatever order. -/
theorem files_closeEach (kvs : List (Nat × Nat)) (k : Kernel) (fd : Nat) :
    (kvs.foldl (fun k kv => removeAndClose kv.1 k) k).files fd =
      if fd ∈ kvs.map Prod.fst then none else k.files fd := by
  induction kvs generalizing k with
  | nil => rfl
  | cons kv kvs ih =>
    rw [List.foldl_cons, ih, removeAndClose_eq, List.map_cons]
    show (if fd ∈ kvs.map Prod.fst then none else Function.update k.files kv.1 none fd) = _
    by_cases hlater : fd ∈ kvs.map Prod.fst
    · rw [if_pos hlater, if_pos (List.mem_cons_of_mem _ hlater)]
    · rw [if_neg hlater]
      by_cases heq : fd = kv.1
      · rw [heq, Function.update_self, if_pos List.mem_cons_self]
      · rw [Function.update_of_ne heq, if_neg]
        intro hmem
        rcases List.mem_cons.mp hmem with hfirst | hrest
        · exact heq hfirst
        · exact hlater hrest

theorem mem_order_iff (order : UnorderedMap.IterOrder Nat Nat) (m : UnorderedMap Nat Nat)
    (fd : Nat) : fd ∈ (order.order m).map Prod.fst ↔ m.lookup fd ≠ none := by
  rw [((order.perm m).map Prod.fst).mem_iff, UnorderedMap.pairs_fst]
  exact AList.lookup_eq_none.not_left.symm

variable {svc : Service σ} {order : UnorderedMap.IterOrder Nat Nat}

/-- Afterwards a descriptor is open only if the rest of the process holds it. -/
theorem files_closeAll {held : Nat → Bool} {s : LoopState σ} (h : s.Kept held)
    (serverFd : Option Nat) (fd : Nat) :
    (closeListener serverFd (closeClients order s)).kernel.files fd ≠ none ↔
      held fd = true ∧ serverFd ≠ some fd := by
  have hclients : (closeClients order s).kernel.files fd ≠ none ↔ held fd = true := by
    show (List.foldl _ s.kernel _).files fd ≠ none ↔ _
    rw [files_closeEach]
    by_cases hmapped : s.connections.lookup fd = none
    · rw [if_neg fun hmem => (mem_order_iff order _ fd).mp hmem hmapped]
      constructor
      · intro hopen
        obtain ⟨file, hfile⟩ := Option.ne_none_iff_exists'.mp hopen
        exact (h.owned fd file hfile).resolve_left fun hne => hne hmapped
      · exact h.open_of_held fd
    · rw [if_pos ((mem_order_iff order _ fd).mpr hmapped)]
      obtain ⟨c, hc⟩ := Option.ne_none_iff_exists'.mp hmapped
      simp [h.apart fd c hc]
  cases serverFd with
  | none =>
    show (closeClients order s).kernel.files fd ≠ none ↔ _
    simp [hclients]
  | some listener =>
    show (removeAndClose listener (closeClients order s).kernel).files fd ≠ none ↔ _
    rw [removeAndClose_eq]
    show Function.update (closeClients order s).kernel.files listener none fd ≠ none ↔ _
    by_cases heq : fd = listener
    · rw [heq, Function.update_self]
      simp
    · rw [Function.update_of_ne heq, hclients]
      simp [Ne.symm heq]

/-! ## Section 3: Draining -/

/-- A response is in the buffer, and no byte of it is sent. -/
def Unsent (conn : Connection) : Prop := conn.writeBuffer ≠ [] ∧ conn.bytesSent = 0

/-- What has become of the queue `tasks` since the connections were charged `charged`. -/
structure DrainedFrom (tasks : List Nat) (charged : List (Nat × Bytes)) (s : LoopState σ) : Prop where
  /-- The tasks that are gone have been run, each as often as it was queued, -/
  ran : ∃ done, s.charged = charged ++ done ∧ (done.map Prod.fst ++ s.tasks).Perm tasks
  /-- and have queued their responses. -/
  answered : ∀ c ∈ tasks, c ∈ s.tasks ∨ Unsent (s.objects c)

theorem drainedFrom_refl (s : LoopState σ) : DrainedFrom s.tasks s.charged s :=
  ⟨⟨[], by simp⟩, fun _ hc => Or.inl hc⟩

/-- Whatever keeps the queue and the buffers. -/
theorem DrainedFrom.keep {tasks : List Nat} {charged : List (Nat × Bytes)} {s s' : LoopState σ}
    (h : DrainedFrom tasks charged s) (htasks : s'.tasks = s.tasks)
    (hcharged : s'.charged = s.charged) (hobjects : s'.objects = s.objects) :
    DrainedFrom tasks charged s' := by
  constructor
  · rw [htasks, hcharged]
    exact h.ran
  · rw [htasks, hobjects]
    exact h.answered

/-- **Step lemma**: one more task is done, or none. -/
theorem DrainedFrom.step {tasks : List Nat} {charged : List (Nat × Bytes)} {s s' : LoopState σ}
    {label : LoopLabel} (h : DrainedFrom tasks charged s)
    (hstep : (drainSystem svc).step s label s') : DrainedFrom tasks charged s' := by
  obtain ⟨hstep, hdraining⟩ := hstep
  have hbatch : s.staleStep svc label = some s' := hstep
  cases label with
  | work task =>
    dsimp only [LoopState.staleStep, LoopState.step] at hbatch
    split at hbatch
    · cases hbatch
    · next c htask =>
      obtain rfl := Option.some.inj hbatch
      obtain ⟨hlt, hget⟩ := List.getElem?_eq_some_iff.mp htask
      -- the task that is taken moves from the queue to those that are done
      have hperm : (c :: s.tasks.eraseIdx task).Perm s.tasks := by
        rw [← hget]
        exact List.getElem_cons_eraseIdx_perm hlt
      obtain ⟨done, hcharged, hdone⟩ := h.ran
      constructor
      · refine ⟨done ++ [(c, s.getClientIp (s.objects c).fd)], ?_, ?_⟩
        · show s.charged ++ [(c, s.getClientIp (s.objects c).fd)] = _
          rw [hcharged, List.append_assoc]
        · show (List.map Prod.fst (done ++ [_]) ++ s.tasks.eraseIdx task).Perm tasks
          rw [List.map_append, List.append_assoc]
          exact (hperm.append_left (done.map Prod.fst)).trans hdone
      · intro c' hc'
        show c' ∈ s.tasks.eraseIdx task ∨
          Unsent (Function.update s.objects c (processRequest svc _ (s.objects c) s.world).1 c')
        by_cases heq : c' = c
        · right
          rw [heq, Function.update_self]
          exact ⟨HttpResponse.build_ne_nil _ _, rfl⟩
        · rw [Function.update_of_ne heq]
          refine (h.answered c' hc').imp_left fun hqueued => ?_
          have hmem := hperm.mem_iff.mpr hqueued
          exact (List.mem_cons.mp hmem).resolve_left heq
  | reset fd =>
    obtain rfl := Option.some.inj hbatch
    refine h.keep ?_ ?_ ?_
    · unfold LoopState.reset
      split <;> rfl
    · unfold LoopState.reset
      split <;> rfl
    · unfold LoopState.reset
      split <;> rfl
  | openOther fd peer pollable =>
    obtain ⟨-, heq⟩ := Option.ite_none_right_eq_some.mp hbatch
    obtain rfl := Option.some.inj heq
    exact h.keep rfl rfl rfl
  | closeOther fd =>
    obtain ⟨-, heq⟩ := Option.ite_none_right_eq_some.mp hbatch
    obtain rfl := Option.some.inj heq
    exact h.keep rfl rfl rfl
  | accept fd peer now => cases hdraining
  | close fd => cases hdraining
  | read fd results => cases hdraining
  | write fd results => cases hdraining

theorem drainedFrom_of_run {s s' : LoopState σ} {ls : List LoopLabel}
    (hrun : Run (drainSystem svc) s ls s') : DrainedFrom s.tasks s.charged s' :=
  hrun.invariant (fun _ _ _ h hstep => h.step hstep) (drainedFrom_refl s)

/-- The workers can always finish the queue. -/
theorem exists_drain (svc : Service σ) (s : LoopState σ) :
    ∃ ls s', Run (drainSystem svc) s ls s' ∧ s'.tasks = [] := by
  generalize hn : s.tasks.length = n
  induction n generalizing s with
  | zero => exact ⟨[], s, Run.nil, List.length_eq_zero_iff.mp hn⟩
  | succ n ih =>
    obtain ⟨c, rest, htasks⟩ := List.exists_cons_of_length_eq_add_one hn
    have hstep : (drainSystem svc).step s (.work 0) { s.processTask svc c with tasks := rest } := by
      refine ⟨?_, rfl⟩
      show s.staleStep svc (.work 0) = _
      dsimp only [LoopState.staleStep, LoopState.step]
      rw [htasks]
      rfl
    rw [htasks, List.length_cons] at hn
    obtain ⟨ls, s', hrun, hempty⟩ := ih { s.processTask svc c with tasks := rest } (by
      show rest.length = n
      omega)
    exact ⟨.work 0 :: ls, s', Run.cons hstep hrun, hempty⟩

/-! ## Section 4: Stop -/

/-- The events of the batch that was being handled find no connection. -/
theorem events_ignored {s : LoopState σ} (h : ∀ fd, s.connections.lookup fd = none) (fd : Nat) :
    s.closeConnection fd = s ∧ (∀ results, s.handleRead fd results = s) ∧
      ∀ results, s.handleWrite fd results = s := by
  refine ⟨?_, fun results => ?_, fun results => ?_⟩
  · unfold LoopState.closeConnection
    rw [h fd]
  · unfold LoopState.handleRead
    rw [h fd]
  · unfold LoopState.handleWrite
    rw [h fd]

/-- Every step while `stop` waits is one of the loop's. -/
theorem batch_of_drain {s s' : LoopState σ} {ls : List LoopLabel}
    (hrun : Run (drainSystem svc) s ls s') : Run (batchSystem svc) s ls s' := by
  refine hrun.mono fun t label t' hstep => ?_
  exact hstep.1

theorem closeAll_eq (order : UnorderedMap.IterOrder Nat Nat) (serverFd : Option Nat)
    (s : LoopState σ) :
    (closeListener serverFd (closeClients order s)).connections = ∅ ∧
      (closeListener serverFd (closeClients order s)).tasks = s.tasks ∧
      (closeListener serverFd (closeClients order s)).charged = s.charged ∧
      (closeListener serverFd (closeClients order s)).objects = s.objects := by
  cases serverFd with
  | none => exact ⟨rfl, rfl, rfl, rfl⟩
  | some fd => exact ⟨rfl, rfl, rfl, rfl⟩

/-- **Stopping** a server after any run: it can always be completed, and then the
    descriptors of the server are closed, every request that was queued has been processed
    exactly once, its response is ready but unsent, and neither later events nor a second
    `stop` do anything. -/
theorem stop_closes {s₀ : LoopState σ} {ls : List LoopLabel} {r : RunningServer σ}
    (hinit : (batchSystem svc).init s₀) (hrun : Run (batchSystem svc) s₀ ls r.loop)
    (hrunning : r.running = true) :
    (∃ ms r', Stops svc order r ms r') ∧ ∀ ms r', Stops svc order r ms r' →
      (∀ fd, r'.loop.kernel.files fd ≠ none ↔
        heldByOthers (ls ++ ms) fd = true ∧ r.serverFd ≠ some fd) ∧
      (∃ done, r'.loop.charged = r.loop.charged ++ done ∧
        (done.map Prod.fst).Perm r.loop.tasks) ∧
      (∀ c ∈ r.loop.tasks, Unsent (r'.loop.objects c)) ∧
      (∀ fd, r'.loop.closeConnection fd = r'.loop ∧
        (∀ results, r'.loop.handleRead fd results = r'.loop) ∧
        ∀ results, r'.loop.handleWrite fd results = r'.loop) ∧
      (∀ ms' r'', Stops svc order r' ms' r'' → r'' = r') := by
  refine ⟨?_, fun ms r' hstop => ?_⟩
  · obtain ⟨ms, s, hdrain, hempty⟩ := exists_drain svc r.loop
    exact ⟨ms, _, .drained hrunning hdrain hempty⟩
  · cases hstop with
    | notRunning stopped =>
      rw [hrunning] at stopped
      cases stopped
    | @drained _ s _ hdrain hempty =>
      have hkept := LoopState.kept_of_run hinit (hrun.append (batch_of_drain hdrain))
      have hdone := drainedFrom_of_run hdrain
      obtain ⟨hconnections, htasks, hcharged, hobjects⟩ := closeAll_eq order r.serverFd s
      refine ⟨files_closeAll hkept r.serverFd, ?_, fun c hc => ?_, events_ignored fun fd => ?_,
        fun ms' r'' hagain => ?_⟩
      · obtain ⟨done, hadded, hperm⟩ := hdone.ran
        rw [hempty, List.append_nil] at hperm
        exact ⟨done, hcharged.trans hadded, hperm⟩
      · have hanswered := hdone.answered c hc
        rw [hempty] at hanswered
        show Unsent ((closeListener r.serverFd (closeClients order s)).objects c)
        rw [hobjects]
        exact hanswered.resolve_left List.not_mem_nil
      · rw [hconnections]
        rfl
      · cases hagain with
        | notRunning _ => rfl
        | drained running _ _ => cases running

/-- A client is connected, and the socket 3 listens. -/
def stoppedServer : RunningServer Unit :=
  { loop := (emptyLoop.openOther 3 none true).handleAccept 7 (bytes "10.0.0.1") 0
    running := true
    serverFd := some 3 }

theorem stop_closes_client :
    (∃ ms r', Stops healthService UnorderedMap.IterOrder.listed stoppedServer ms r') ∧
    ∀ ms r', Stops healthService UnorderedMap.IterOrder.listed stoppedServer ms r' →
      (∀ fd, r'.loop.kernel.files fd ≠ none ↔
        heldByOthers ([.openOther 3 none true, .accept 7 (bytes "10.0.0.1") 0] ++ ms) fd = true ∧
          stoppedServer.serverFd ≠ some fd) ∧
      (∃ done, r'.loop.charged = stoppedServer.loop.charged ++ done ∧
        (done.map Prod.fst).Perm stoppedServer.loop.tasks) ∧
      (∀ c ∈ stoppedServer.loop.tasks, Unsent (r'.loop.objects c)) ∧
      (∀ fd, r'.loop.closeConnection fd = r'.loop ∧
        (∀ results, r'.loop.handleRead fd results = r'.loop) ∧
        ∀ results, r'.loop.handleWrite fd results = r'.loop) ∧
      (∀ ms' r'', Stops healthService UnorderedMap.IterOrder.listed r' ms' r'' → r'' = r') :=
  stop_closes ⟨(), rfl⟩ (Run.of_replay rfl) rfl

end RunningServer

end VeloxServe
