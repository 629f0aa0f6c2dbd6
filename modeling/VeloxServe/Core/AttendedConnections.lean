import Mathlib.Data.Finset.Card
import VeloxServe.Core.ConnectionTables
import VeloxServe.Framework.Refinement

/-! # No Connection Is Forgotten

    The event loop hears of a connection only through epoll, so a connection
    that is registered for the wrong events, or whose request is in no task,
    would hang until it is idle for too long. In every run, stale events and
    recycled descriptor numbers included, this does not happen, as long as the
    handlers and the tasks of one connection do not overlap: each is one step here,
    but nothing in the source keeps `handle_write` and a second task apart.

    * **Attended**: what is left to send is registered for output, and a request
      whose headers have come is in the queue.
    * **Serving**: workers run tasks, and sockets take what they are offered.
      This comes to an end, whatever the order, and then every connection waits
      for its client.
-/

namespace VeloxServe

open StdString Message LTS

universe u

namespace LoopState

variable {σ : Type u} {s s' : LoopState σ} {held : Nat → Bool}

/-! ## Section 1: Attended Connections -/

/-- **Attended**: somebody will go on with each connection. -/
structure Attended (s : LoopState σ) : Prop where
  /-- The loop waits until the rest of a response can be sent. -/
  unsent : ∀ fd c, s.connections.lookup fd = some c → (s.objects c).writeBuffer ≠ [] →
    s.kernel.registered fd = some .output
  /-- A worker will take the request. -/
  unread : ∀ fd c, s.connections.lookup fd = some c → blankLine <:+: (s.objects c).readBuffer →
    c ∈ s.tasks

theorem not_blankLine_nil : ¬ blankLine <:+: ([] : Bytes) := by decide

theorem attended_init (world : σ) : Attended ({ world := world } : LoopState σ) := by
  constructor
  · intro fd c h
    cases h
  · intro fd c h
    cases h

/-- A connection that a step does not touch. -/
structure Untouched (s s' : LoopState σ) (fd c : Nat) : Prop where
  mapped : s.connections.lookup fd = some c
  object : s'.objects c = s.objects c
  registered : s'.kernel.registered fd = s.kernel.registered fd
  tasks : c ∈ s.tasks → c ∈ s'.tasks

/-- **Frame**: it is enough to look at the connections that a step touches. -/
theorem Attended.frame (h : Attended s)
    (hstep : ∀ fd c, s'.connections.lookup fd = some c → Untouched s s' fd c ∨
      ((s'.objects c).writeBuffer ≠ [] → s'.kernel.registered fd = some .output) ∧
        (blankLine <:+: (s'.objects c).readBuffer → c ∈ s'.tasks)) : Attended s' := by
  constructor
  · intro fd c hc hwrite
    obtain hsame | hnew := hstep fd c hc
    · rw [hsame.object] at hwrite
      rw [hsame.registered]
      exact h.unsent fd c hsame.mapped hwrite
    · exact hnew.1 hwrite
  · intro fd c hc hread
    obtain hsame | hnew := hstep fd c hc
    · rw [hsame.object] at hread
      exact hsame.tasks (h.unread fd c hsame.mapped hread)
    · exact hnew.2 hread

/-- Two connections are behind two numbers. -/
theorem Kept.unique (h : Kept held s) {fd fd' c : Nat} (hc : s.connections.lookup fd = some c)
    (hc' : s.connections.lookup fd' = some c) : fd' = fd := by
  rw [← (h.mapped fd c hc).1]
  exact (h.mapped fd' c hc').1.symm

/-! ## Section 2: Handlers -/

/-- What is mapped after `close_connection` was so before, behind another number. -/
theorem lookup_closeConnection {fd fd' c : Nat}
    (h : (s.closeConnection fd).connections.lookup fd' = some c) :
    fd' ≠ fd ∧ s.connections.lookup fd' = some c := by
  unfold closeConnection at h
  split at h
  · next hnone =>
    refine ⟨?_, h⟩
    intro heq
    rw [heq, hnone] at h
    cases h
  · by_cases heq : fd' = fd
    · rw [heq] at h
      rw [AList.lookup_erase] at h
      cases h
    · rw [AList.lookup_erase_ne heq] at h
      exact ⟨heq, h⟩

theorem registered_closeConnection {fd fd' : Nat} (h : fd' ≠ fd) :
    (s.closeConnection fd).kernel.registered fd' = s.kernel.registered fd' := by
  unfold closeConnection
  split
  · rfl
  · exact Function.update_of_ne h _ _

theorem objects_closeConnection (s : LoopState σ) (fd : Nat) :
    (s.closeConnection fd).objects = s.objects ∧ (s.closeConnection fd).tasks = s.tasks := by
  unfold closeConnection
  split <;> exact ⟨rfl, rfl⟩

/-- Closing touches no other connection. -/
theorem untouched_closeConnection {fd fd' c : Nat}
    (h : (s.closeConnection fd).connections.lookup fd' = some c) :
    Untouched s (s.closeConnection fd) fd' c := by
  obtain ⟨hne, hc⟩ := lookup_closeConnection h
  obtain ⟨hobjects, htasks⟩ := objects_closeConnection s fd
  exact ⟨hc, by rw [hobjects], registered_closeConnection hne, fun hmem => by rwa [htasks]⟩

theorem Attended.closeConnection (h : Attended s) (fd : Nat) : Attended (s.closeConnection fd) :=
  h.frame fun _ _ hc => .inl (untouched_closeConnection hc)

/-- A connection whose object has changed is closed. -/
theorem Attended.setClosed (h : Attended s) (hkept : Kept held s) {fd c : Nat}
    (hc : s.connections.lookup fd = some c) (conn : Connection) :
    Attended (LoopState.closeConnection fd
      { s with objects := Function.update s.objects c conn }) := by
  refine h.frame fun fd' c' hc' => .inl ?_
  obtain ⟨hne, hmapped⟩ := lookup_closeConnection hc'
  have hother : c' ≠ c := fun heq => hne (hkept.unique hc (heq ▸ hmapped))
  have hclosed := untouched_closeConnection hc'
  refine ⟨hmapped, ?_, hclosed.registered, hclosed.tasks⟩
  rw [hclosed.object]
  exact Function.update_of_ne hother _ _

/-- Only the object of one connection and the queue change. -/
theorem Attended.setObject (h : Attended s) (hkept : Kept held s) {fd c : Nat}
    (hc : s.connections.lookup fd = some c) {conn : Connection} {tasks : List Nat}
    (hsub : ∀ c' ∈ s.tasks, c' ∈ tasks)
    (hwrite : conn.writeBuffer ≠ [] → s.kernel.registered fd = some .output)
    (hread : blankLine <:+: conn.readBuffer → c ∈ tasks) :
    Attended { s with objects := Function.update s.objects c conn, tasks := tasks } := by
  refine h.frame fun fd' c' hc' => ?_
  by_cases heq : c' = c
  · obtain rfl := heq
    obtain rfl := hkept.unique hc hc'
    right
    show ((Function.update s.objects c' conn c').writeBuffer ≠ [] → _) ∧
      (blankLine <:+: (Function.update s.objects c' conn c').readBuffer → _)
    rw [Function.update_self]
    exact ⟨hwrite, hread⟩
  · exact .inl ⟨hc', Function.update_of_ne heq _ _, rfl, hsub c'⟩

theorem Attended.handleRead (h : Attended s) (hkept : Kept held s) (fd : Nat)
    (results : List RecvResult) : Attended (s.handleRead fd results) := by
  unfold LoopState.handleRead
  rcases hc : s.connections.lookup fd with _ | c
  · exact h
  dsimp only
  have hcase := handleRead_cases results (s.objects c)
  generalize VeloxServe.handleRead results (s.objects c) = r at hcase
  cases hcase with
  | closed => exact h.setClosed hkept hc _
  | waiting hsame hdata hbuffer hopen =>
    refine h.setObject hkept hc (fun _ hmem => hmem) ?_ ?_
    · rw [hsame.writeBuffer]
      exact h.unsent fd c hc
    · intro hread
      rw [hbuffer] at hread
      exact absurd hread hopen
  | dispatched hsame hdata hbuffer hended =>
    refine h.setObject hkept hc (fun _ hmem => List.mem_append_left _ hmem) ?_ ?_
    · rw [hsame.writeBuffer]
      exact h.unsent fd c hc
    · exact fun _ => List.mem_append_right _ (List.mem_singleton.mpr rfl)

/-- What epoll watches for a connection that is open. -/
theorem Kept.registered_modify (h : Kept held s) {fd c : Nat}
    (hc : s.connections.lookup fd = some c) (events : Interest) :
    (EpollWrapper.modify EpollWrapper.fallbacks fd events s.kernel).2 = s.kernel.register fd events := by
  obtain ⟨-, file, hfile, -, hpoll, -⟩ := h.mapped fd c hc
  have hwatch : EpollWrapper.watchable fd s.kernel = true := by
    simp [EpollWrapper.watchable, hfile, hpoll]
  rw [EpollWrapper.modify_eq, if_pos hwatch]

theorem Attended.handleWrite (h : Attended s) (hkept : Kept held s) (fd : Nat)
    (results : List SendResult) : Attended (s.handleWrite fd results) := by
  unfold LoopState.handleWrite
  rcases hc : s.connections.lookup fd with _ | c
  · exact h
  dsimp only
  have hcase := handleWrite_cases results (s.objects c)
  generalize VeloxServe.handleWrite results (s.objects c) = r at hcase
  cases hcase with
  -- every end of the loop but one closes the connection or leaves it registered
  | empty => exact h.setClosed hkept hc _
  | @partly n outcome hne hrearm hle =>
    cases outcome with
    | close => exact h.setClosed hkept hc _
    | wait => exact h.setObject hkept hc (fun _ hmem => hmem) (h.unsent fd c hc) (h.unread fd c hc)
    | rearm => exact absurd rfl hrearm
  | rearmed hne hkeep =>
    -- nothing is left to send
    dsimp only
    rw [hkept.registered_modify hc]
    refine h.frame fun fd' c' hc' => ?_
    by_cases heq : c' = c
    · obtain rfl := heq
      right
      show ((Function.update s.objects c' _ c').writeBuffer ≠ [] → _) ∧
        (blankLine <:+: (Function.update s.objects c' _ c').readBuffer → _)
      rw [Function.update_self]
      exact ⟨fun hwrite => absurd rfl hwrite, h.unread fd' c' hc'⟩
    · have hfd : fd' ≠ fd := by
        intro hfd
        rw [hfd, hc] at hc'
        exact heq (Option.some.inj hc').symm
      exact .inl ⟨hc', Function.update_of_ne heq _ _, Function.update_of_ne hfd _ _, id⟩
  | finished => exact h.setClosed hkept hc _

/-- A task leaves a response, for which its connection is registered. -/
theorem Attended.processTask (h : Attended s) (hkept : Kept held s) (svc : Service σ) {task c : Nat}
    (htask : s.tasks[task]? = some c) :
    Attended { s.processTask svc c with tasks := s.tasks.eraseIdx task } := by
  have hkernel : (s.processTask svc c).kernel =
      (EpollWrapper.modify EpollWrapper.fallbacks (s.objects c).fd .output s.kernel).2 := rfl
  refine h.frame fun fd' c' hc' => ?_
  have hmapped : s.connections.lookup fd' = some c' := hc'
  by_cases heq : c' = c
  · obtain rfl := heq
    right
    -- its own connection has its response now and is registered for it
    obtain rfl := (hkept.mapped fd' c' hmapped).1
    constructor
    · intro _
      show (s.processTask svc c').kernel.registered _ = _
      rw [hkernel, hkept.registered_modify hmapped]
      exact Function.update_self _ _ _
    · intro hread
      have hempty : ((s.processTask svc c').objects c').readBuffer = [] := by
        show (Function.update s.objects c' _ c').readBuffer = []
        rw [Function.update_self]
      rw [show ({ s.processTask svc c' with tasks := s.tasks.eraseIdx task } : LoopState σ).objects c' =
        (s.processTask svc c').objects c' from rfl, hempty] at hread
      exact absurd hread not_blankLine_nil
  · have hobject : (s.processTask svc c).objects c' = s.objects c' := Function.update_of_ne heq _ _
    -- one task is taken, and that is not one of this connection
    have hstays : c' ∈ s.tasks → c' ∈ s.tasks.eraseIdx task := by
      intro hmem
      obtain ⟨i, hi⟩ := List.mem_iff_getElem?.mp hmem
      refine List.mem_eraseIdx_iff_getElem?.mpr ⟨i, ?_, hi⟩
      intro hsame
      rw [hsame, htask] at hi
      exact heq (Option.some.inj hi).symm
    by_cases hfd : fd' = (s.objects c).fd
    · -- the number of an old connection has become that of this one
      right
      constructor
      · intro _
        show (s.processTask svc c).kernel.registered fd' = _
        rw [hkernel, ← hfd, hkept.registered_modify hmapped]
        exact Function.update_self _ _ _
      · intro hread
        rw [show ({ s.processTask svc c with tasks := s.tasks.eraseIdx task } : LoopState σ).objects c' =
          (s.processTask svc c).objects c' from rfl, hobject] at hread
        exact hstays (h.unread fd' c' hmapped hread)
    · refine .inl ⟨hmapped, hobject, ?_, hstays⟩
      show (s.processTask svc c).kernel.registered fd' = _
      rw [hkernel, EpollWrapper.modify_eq]
      split
      · exact Function.update_of_ne hfd _ _
      · rfl

/-- A new connection has nothing to send and has sent nothing yet. -/
theorem Attended.handleAccept (h : Attended s) (hkept : Kept held s) {fd : Nat}
    (hfree : s.kernel.files fd = none) (peer : Bytes) (now : Time) :
    Attended (s.handleAccept fd peer now) := by
  have hunmapped := (hkept.lookup_free hfree).1
  have hne : ∀ fd' c, s.connections.lookup fd' = some c → fd' ≠ fd := by
    intro fd' c hc heq
    rw [heq, hunmapped] at hc
    cases hc
  unfold LoopState.handleAccept
  dsimp only
  split
  · -- refused
    exact h.frame fun fd' c hc => .inl ⟨hc, rfl, Function.update_of_ne (hne fd' c hc) _ _, id⟩
  · have hwatch : EpollWrapper.watchable fd
        (s.kernel.openFile fd ⟨s.nextId, some peer, true⟩) = true := by
      simp [EpollWrapper.watchable, Kernel.openFile]
    rw [EpollWrapper.add_eq, if_pos hwatch]
    dsimp only
    refine h.frame fun fd' c hc => ?_
    rw [UnorderedMap.lookup_set] at hc
    by_cases heq : fd' = fd
    · rw [if_pos heq] at hc
      obtain rfl := Option.some.inj hc
      right
      show ((Function.update s.objects s.nextId _ s.nextId).writeBuffer ≠ [] → _) ∧
        (blankLine <:+: (Function.update s.objects s.nextId _ s.nextId).readBuffer → _)
      rw [Function.update_self]
      exact ⟨fun hwrite => absurd rfl hwrite, fun hread => absurd hread not_blankLine_nil⟩
    · rw [if_neg heq] at hc
      obtain ⟨-, file, hfile, hid, -⟩ := hkept.mapped fd' c hc
      have hlt := hkept.fresh fd' file hfile
      -- an older connection is another object
      have hold : c ≠ s.nextId := by omega
      exact .inl ⟨hc, Function.update_of_ne hold _ _, Function.update_of_ne heq _ _, id⟩

/-! ## Section 3: Every Run -/

/-- **Step lemma**. -/
theorem Attended.step (h : Attended s) (hkept : Kept held s) {svc : Service σ} {label : LoopLabel}
    (hstep : s.staleStep svc label = some s') : Attended s' := by
  cases label with
  | accept fd peer now =>
    obtain ⟨hfree, heq⟩ := Option.ite_none_right_eq_some.mp hstep
    obtain rfl := Option.some.inj heq
    exact h.handleAccept hkept hfree peer now
  | close fd =>
    obtain rfl := Option.some.inj hstep
    exact h.closeConnection fd
  | read fd results =>
    obtain rfl := Option.some.inj hstep
    exact h.handleRead hkept fd results
  | write fd results =>
    obtain rfl := Option.some.inj hstep
    exact h.handleWrite hkept fd results
  | work task =>
    dsimp only [staleStep, LoopState.step] at hstep
    split at hstep
    · cases hstep
    · next c htask =>
      obtain rfl := Option.some.inj hstep
      exact h.processTask hkept svc htask
  | reset fd =>
    obtain rfl := Option.some.inj hstep
    unfold LoopState.reset
    split
    · exact h
    · exact h.frame fun fd' c hc => .inl ⟨hc, rfl, rfl, id⟩
  | openOther fd peer pollable =>
    obtain ⟨-, heq⟩ := Option.ite_none_right_eq_some.mp hstep
    obtain rfl := Option.some.inj heq
    exact h.frame fun fd' c hc => .inl ⟨hc, rfl, rfl, id⟩
  | closeOther fd =>
    obtain ⟨hunmapped, heq⟩ := Option.ite_none_right_eq_some.mp hstep
    obtain rfl := Option.some.inj heq
    refine h.frame fun fd' c hc => .inl ⟨hc, rfl, ?_, id⟩
    refine Function.update_of_ne ?_ _ _
    intro heq
    rw [heq, hunmapped] at hc
    cases hc

/-- The tables are kept and every connection is attended. -/
structure Tended (s : LoopState σ) : Prop where
  kept : ∃ held, Kept held s
  attended : Attended s

theorem Tended.step (h : Tended s) {svc : Service σ} {label : LoopLabel}
    (hstep : s.staleStep svc label = some s') : Tended s' := by
  obtain ⟨held, hkept⟩ := h.kept
  exact ⟨⟨_, hkept.step hstep⟩, h.attended.step hkept hstep⟩

theorem tended_of_run {svc : Service σ} {s₀ : LoopState σ} {ls : List LoopLabel}
    (hinit : (batchSystem svc).init s₀) (hrun : Run (batchSystem svc) s₀ ls s) : Tended s := by
  obtain ⟨world, rfl⟩ := hinit
  refine hrun.invariant (fun t label t' ht hstep => ht.step hstep) ?_
  exact ⟨⟨_, kept_init world⟩, attended_init world⟩

/-! ## Section 4: Serving -/

/-- A worker runs a task, or a socket takes what it is offered: `handle_write` does
    not find it full. -/
def Serves (s : LoopState σ) : LoopLabel → Prop
  | .work _ => True
  | .write fd results => ∃ c, s.connections.lookup fd = some c ∧
      (VeloxServe.handleWrite results (s.objects c)).2.1 ≠ .wait
  | _ => False

/-- **Serving**: the steps of the server by itself. -/
def servingSystem (svc : Service σ) : System (LoopState σ) LoopLabel :=
  (loopSystem svc).restrict fun s label _ => s.Serves label

/-- The numbers of the connections that wait for output. -/
def writers (s : LoopState σ) : Finset Nat :=
  s.connections.keys.toFinset.filter fun fd => s.kernel.registered fd = some .output

/-- Every task may leave a response, and every response is written once. -/
def work (s : LoopState σ) : Nat := 2 * s.tasks.length + s.writers.card

/-- Every connection waits for its client. -/
structure Quiet (s : LoopState σ) : Prop where
  tasks : s.tasks = []
  waiting : ∀ fd c, s.connections.lookup fd = some c →
    s.kernel.registered fd = some .input ∧ (s.objects c).writeBuffer = [] ∧
      ¬ blankLine <:+: (s.objects c).readBuffer

theorem mem_writers {fd : Nat} : fd ∈ s.writers ↔
    (∃ c, s.connections.lookup fd = some c) ∧ s.kernel.registered fd = some .output := by
  unfold writers
  rw [Finset.mem_filter, List.mem_toFinset, ← AList.mem_keys, ← AList.lookup_isSome,
    Option.isSome_iff_exists]

/-- A task uses up its place in the queue and makes one more writer at most. -/
theorem work_processTask (svc : Service σ) {task c : Nat} (htask : s.tasks[task]? = some c) :
    ({ s.processTask svc c with tasks := s.tasks.eraseIdx task } : LoopState σ).work < s.work := by
  have hsub : ({ s.processTask svc c with tasks := s.tasks.eraseIdx task } : LoopState σ).writers ⊆
      insert (s.objects c).fd s.writers := by
    intro fd hfd
    obtain ⟨hmapped, hout⟩ := mem_writers.mp hfd
    rw [Finset.mem_insert, mem_writers]
    by_cases heq : fd = (s.objects c).fd
    · exact .inl heq
    · refine .inr ⟨hmapped, ?_⟩
      have hsame : (EpollWrapper.modify EpollWrapper.fallbacks (s.objects c).fd .output
          s.kernel).2.registered fd = some .output := hout
      rw [EpollWrapper.modify_eq] at hsame
      split at hsame
      · exact (Function.update_of_ne heq _ _).symm.trans hsame
      · exact hsame
  have hcard := (Finset.card_le_card hsub).trans (Finset.card_insert_le _ _)
  have hlen := List.length_eraseIdx_of_lt (List.getElem?_eq_some_iff.mp htask).1
  have hpos : 0 < s.tasks.length := List.length_pos_of_mem (List.mem_of_getElem? htask)
  unfold work
  show 2 * (s.tasks.eraseIdx task).length + _ < _
  omega

/-- A connection that is written to the end is no writer any more. -/
theorem work_handleWrite (hkept : Kept held s) {fd c : Nat} (hc : s.connections.lookup fd = some c)
    (hout : s.kernel.registered fd = some .output) {results : List SendResult}
    (hdone : (VeloxServe.handleWrite results (s.objects c)).2.1 ≠ .wait) :
    (s.handleWrite fd results).work < s.work := by
  have hmem : fd ∈ s.writers := mem_writers.mpr ⟨⟨c, hc⟩, hout⟩
  have htasks : (s.handleWrite fd results).tasks = s.tasks := by
    unfold LoopState.handleWrite
    rw [hc]
    dsimp only
    generalize VeloxServe.handleWrite results (s.objects c) = r
    obtain ⟨sent, outcome, conn⟩ := r
    cases outcome with
    | close => exact (objects_closeConnection _ _).2
    | wait => rfl
    | rearm => rfl
  have hsub : (s.handleWrite fd results).writers ⊆ s.writers.erase fd := by
    intro fd' hfd'
    obtain ⟨⟨c', hmapped⟩, hout'⟩ := mem_writers.mp hfd'
    rw [Finset.mem_erase, mem_writers]
    unfold LoopState.handleWrite at hmapped hout'
    rw [hc] at hmapped hout'
    dsimp only at hmapped hout'
    generalize VeloxServe.handleWrite results (s.objects c) = r at hmapped hout' hdone
    obtain ⟨sent, outcome, conn⟩ := r
    cases outcome with
    | close =>
      obtain ⟨hne, hold⟩ := lookup_closeConnection hmapped
      rw [registered_closeConnection hne] at hout'
      exact ⟨hne, ⟨c', hold⟩, hout'⟩
    | wait => exact absurd rfl hdone
    | rearm =>
      dsimp only at hout'
      rw [hkept.registered_modify hc] at hout'
      -- the descriptor is registered for input again
      by_cases hne : fd' = fd
      · have hinput : (s.kernel.register fd .input).registered fd = some .input :=
          Function.update_self _ _ _
        rw [hne, hinput] at hout'
        cases hout'
      · exact ⟨hne, ⟨c', hmapped⟩, (Function.update_of_ne hne _ _).symm.trans hout'⟩
  have hcard := Finset.card_le_card hsub
  have herase := Finset.card_erase_lt_of_mem hmem
  unfold work
  rw [htasks]
  omega

theorem Tended.serving (h : Tended s) {svc : Service σ} {label : LoopLabel}
    (hstep : (servingSystem svc).step s label s') : Tended s' ∧ s'.work < s.work := by
  obtain ⟨hloop, hserves⟩ := hstep
  have hguarded : s.step svc label = some s' := hloop
  have hkept := h.kept
  obtain ⟨held, hkept⟩ := hkept
  cases label with
  | write fd results =>
    obtain ⟨c, hc, hdone⟩ := hserves
    obtain ⟨hout, heq⟩ := Option.ite_none_right_eq_some.mp hguarded
    have hstale : s.staleStep svc (.write fd results) = some s' := heq
    refine ⟨h.step hstale, ?_⟩
    obtain rfl := Option.some.inj heq
    exact work_handleWrite hkept hc hout hdone
  | work task =>
    have hstale : s.staleStep svc (.work task) = some s' := hguarded
    refine ⟨h.step hstale, ?_⟩
    dsimp only [LoopState.step] at hguarded
    split at hguarded
    · cases hguarded
    · next c htask =>
      obtain rfl := Option.some.inj hguarded
      exact work_processTask svc htask
  | _ => exact hserves.elim

/-- A socket that fails does not keep the loop waiting. -/
theorem handleWrite_error (conn : Connection) :
    (VeloxServe.handleWrite [.error] conn).2.1 ≠ .wait := by
  unfold VeloxServe.handleWrite sendLoop
  by_cases hempty : conn.writeBuffer = []
  · simp [hempty]
  · by_cases hleft : conn.bytesSent < conn.writeBuffer.length
    · simp [hempty, hleft]
    · cases hkeep : conn.keepAlive <;> simp [hempty, hleft, hkeep]

/-- Where nothing is left to serve, every connection waits for its client. -/
theorem Tended.quiet (h : Tended s) {svc : Service σ} (hstuck : Stuck (servingSystem svc) s) :
    Quiet s := by
  obtain ⟨held, hkept⟩ := h.kept
  have htasks : s.tasks = [] := by
    cases htasks : s.tasks with
    | nil => rfl
    | cons c tasks =>
      -- a task can always be run
      have hstep : s.step svc (.work 0) =
          some { s.processTask svc c with tasks := s.tasks.eraseIdx 0 } := by
        unfold LoopState.step
        rw [htasks]
        rfl
      exact absurd ⟨hstep, trivial⟩ (hstuck (.work 0) _)
  have hin : ∀ fd c, s.connections.lookup fd = some c → s.kernel.registered fd = some .input := by
    intro fd c hc
    cases hreg : s.kernel.registered fd with
    | none => exact absurd hreg (hkept.watched fd c hc)
    | some events =>
      cases events with
      | input => rfl
      | output =>
        -- a socket that fails is served as well
        have hstep : s.step svc (.write fd [.error]) = some (s.handleWrite fd [.error]) := if_pos hreg
        exact absurd ⟨hstep, c, hc, handleWrite_error _⟩ (hstuck (.write fd [.error]) _)
  refine ⟨htasks, fun fd c hc => ⟨hin fd c hc, ?_, fun hread => ?_⟩⟩
  · by_contra hne
    have hout := h.attended.unsent fd c hc hne
    rw [hin fd c hc] at hout
    cases hout
  · have hmem := h.attended.unread fd c hc hread
    rw [htasks] at hmem
    cases hmem

end LoopState

open LoopState

/-- **No connection is forgotten**: in every run in which handlers and tasks do not overlap
    each connection is attended. What is pending then can always be served, every schedule
    of serving ends within a bound, and where it ends every connection waits for its client. -/
theorem connections_attended {σ : Type u} (svc : Service σ) {s₀ s : LoopState σ}
    {ls : List LoopLabel} (hinit : (batchSystem svc).init s₀)
    (hrun : Run (batchSystem svc) s₀ ls s) :
    s.Attended ∧
      (∃ more s', Run (servingSystem svc) s more s' ∧ s'.Quiet) ∧
      ∀ more s', Run (servingSystem svc) s more s' →
        more.length ≤ 2 * s.tasks.length + s.writers.card ∧
          (Stuck (servingSystem svc) s' → s'.Quiet) := by
  have htended := tended_of_run hinit hrun
  have hless : ∀ t label t', Tended t → (servingSystem svc).step t label t' →
      Tended t' ∧ t'.work < t.work := fun t label t' ht hstep => ht.serving hstep
  refine ⟨htended.attended, ?_, fun more s' hmore => ?_⟩
  · obtain ⟨more, s', hmore, hstuck⟩ := exists_stuck hless htended
    have hend := (hmore.length_le hless htended).1
    exact ⟨more, s', hmore, hend.quiet hstuck⟩
  · obtain ⟨hend, hle⟩ := hmore.length_le hless htended
    unfold work at hle
    exact ⟨by omega, hend.quiet⟩

/-- A request of a client whose connection has the number of one that was closed while
    its task was in the queue. -/
def staleTask : List LoopLabel :=
  [.accept 7 (bytes "10.0.0.1") 0, .read 7 [.received (bytes "GET / HTTP/1.1\r\n\r\n") 1],
    .close 7, .accept 7 (bytes "10.0.0.2") 2,
    .read 7 [.received (bytes "GET /health HTTP/1.1\r\n\r\n") 3]]

theorem connections_attended_stale :
    ∃ s, replay (staleStep healthService) emptyLoop staleTask = some s ∧ s.tasks.length = 2 ∧
      s.Attended ∧
      (∃ more s', Run (servingSystem healthService) s more s' ∧ s'.Quiet) ∧
      ∀ more s', Run (servingSystem healthService) s more s' →
        more.length ≤ 2 * s.tasks.length + s.writers.card ∧
          (Stuck (servingSystem healthService) s' → s'.Quiet) := by
  have hsome : ((replay (staleStep healthService) emptyLoop staleTask).any
      fun s => s.tasks.length = 2) = true := by decide +kernel
  obtain ⟨s, hs, htasks⟩ := (Option.any_eq_true _ _).mp hsome
  exact ⟨s, hs, of_decide_eq_true htasks,
    connections_attended healthService ⟨(), rfl⟩ (Run.of_replay hs)⟩

end VeloxServe
