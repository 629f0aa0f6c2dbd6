import VeloxServe.Core.ConnectionSystem
import VeloxServe.Http.ConnectionHeader

/-! # Words and Deeds of a Connection

    What a response says about the connection and what `handle_write` does after
    its last byte. The response is queued together with `conn->keep_alive`, and no
    step but `process_request` touches the flag, so the two agree later when they
    agree then.
-/

namespace VeloxServe

open StdString Message LTS

universe u

/-- **The queued response tells its fate**: it has one `Connection` line, which announces
    `keep-alive` exactly when `handle_write` leaves the connection open after the last byte. -/
def Connection.TellsFate (conn : Connection) : Prop :=
  ∃ line, fields (bytes "connection") conn.writeBuffer = [line] ∧
    ∀ results, (handleWrite results conn).2.2.writeBuffer = [] →
      (announcesKeepAlive (fieldValue line) = true ↔ (handleWrite results conn).2.1 ≠ .close)

/-- Every response has one `Connection` line, and the one being sent tells its fate. -/
structure ConnState.TellsFates {σ : Type u} (s : ConnState σ) : Prop where
  single : ∀ a ∈ s.answers, ∃ line, fields (bytes "connection") a.response = [line]
  queued : s.conn.writeBuffer ≠ [] →
    (∃ a ∈ s.answers.getLast?, a.response = s.conn.writeBuffer) ∧ s.conn.TellsFate

/-! ## The Last Byte -/

/-- When all is sent, the flag decides. -/
theorem handleWrite_finished {conn : Connection} (hne : conn.writeBuffer ≠ [])
    {results : List SendResult} (h : (handleWrite results conn).2.2.writeBuffer = []) :
    (handleWrite results conn).2.1 ≠ .close ↔ conn.keepAlive = true := by
  have hcase := handleWrite_cases results conn
  generalize handleWrite results conn = r at h hcase
  cases hcase with
  | empty hempty => exact absurd hempty hne
  | partly => exact absurd h hne
  | rearmed _ hkeep => simp [hkeep]
  | finished _ hkeep => simp [hkeep]

/-- A socket that takes everything ends the response. -/
theorem handleWrite_all {conn : Connection} (hne : conn.writeBuffer ≠ []) :
    ∃ results, (handleWrite results conn).2.2.writeBuffer = [] := by
  -- one call that takes everything, or none when nothing is left
  by_cases hlt : conn.bytesSent < conn.writeBuffer.length
  · refine ⟨[.sent conn.writeBuffer.length], ?_⟩
    have hoffered : min conn.writeBuffer.length (conn.writeBuffer.drop conn.bytesSent).length =
        conn.writeBuffer.length - conn.bytesSent := by
      rw [List.length_drop]
      omega
    have hpos : ¬ conn.writeBuffer.length - conn.bytesSent = 0 := by omega
    have hdone : ¬ conn.bytesSent + (conn.writeBuffer.length - conn.bytesSent) <
        conn.writeBuffer.length := by omega
    have hcomplete : (sendLoop [.sent conn.writeBuffer.length] conn).2.1 = .complete := by
      unfold sendLoop
      rw [if_pos hlt]
      dsimp only
      rw [hoffered, if_neg hpos]
      unfold sendLoop
      rw [if_neg hdone]
    unfold handleWrite
    rw [if_neg hne]
    generalize sendLoop [.sent conn.writeBuffer.length] conn = r at hcomplete
    obtain ⟨sent, outcome, conn'⟩ := r
    dsimp only at hcomplete
    subst hcomplete
    rfl
  · refine ⟨[], ?_⟩
    unfold handleWrite sendLoop
    rw [if_neg hne, if_neg hlt]

/-- What a response says about the flag is what it says about its fate. -/
theorem tellsFate_iff {conn : Connection} (hne : conn.writeBuffer ≠ []) :
    conn.TellsFate ↔ TellsPersistence conn.writeBuffer conn.keepAlive := by
  constructor
  · rintro ⟨line, hline, hfate⟩
    obtain ⟨results, hall⟩ := handleWrite_all hne
    have hkeep := (hfate results hall).trans (handleWrite_finished hne hall)
    exact ⟨line, hline, Bool.eq_iff_iff.mpr hkeep⟩
  · rintro ⟨line, hline, hvalue⟩
    refine ⟨line, hline, fun results hall => ?_⟩
    rw [handleWrite_finished hne hall, hvalue]

namespace ConnState

variable {σ : Type u} {svc : Service σ} {peer : Bytes} {s s' : ConnState σ} {label : ConnLabel σ}

/-! ## Steps -/

/-- Nothing has been said on a connection that has just been accepted. -/
theorem tellsFates_accepted (fd : Nat) (now : Time) (world : σ) :
    (accepted fd now world).TellsFates where
  single := by
    intro a ha
    cases ha
  queued := fun hne => absurd rfl hne

/-- A step that leaves answers, queue and flag alone. -/
theorem TellsFates.frame (h : s.TellsFates) (hanswers : s'.answers = s.answers)
    (hbuffer : s'.conn.writeBuffer = s.conn.writeBuffer)
    (hkeep : s'.conn.keepAlive = s.conn.keepAlive) : s'.TellsFates := by
  constructor
  · rw [hanswers]
    exact h.single
  · intro hne
    have hne' : s.conn.writeBuffer ≠ [] := hbuffer ▸ hne
    obtain ⟨hlast, hfate⟩ := h.queued hne'
    rw [hanswers, hbuffer]
    refine ⟨hlast, ?_⟩
    rw [tellsFate_iff hne, hbuffer, hkeep]
    exact (tellsFate_iff hne').mp hfate

/-- A step that empties the queue. -/
theorem TellsFates.drain (h : s.TellsFates) (hanswers : s'.answers = s.answers)
    (hbuffer : s'.conn.writeBuffer = []) : s'.TellsFates := by
  constructor
  · rw [hanswers]
    exact h.single
  · exact fun hne => absurd hbuffer hne

/-- The response a worker queues says what its flag says. -/
def WorkTells (svc : Service σ) (s : ConnState σ) (label : ConnLabel σ) : Prop :=
  ∀ clientIp, label = .work clientIp →
    TellsPersistence (processRequest svc clientIp s.conn s.world).1.writeBuffer
      (processRequest svc clientIp s.conn s.world).1.keepAlive

theorem work_writeBuffer_ne_nil (svc : Service σ) (clientIp : Bytes) (s : ConnState σ) :
    (s.work svc clientIp).conn.writeBuffer ≠ [] := HttpResponse.build_ne_nil _ _

/-- **Step lemma**: the words stay true when a worker adds true ones. -/
theorem TellsFates.step (h : s.TellsFates) (hcase : StepCase svc peer s label s')
    (hwork : WorkTells svc s label) : s'.TellsFates := by
  cases hcase with
  -- reading and other connections leave queue and flag alone
  | readClosed _ _ _ hsame => exact h.frame rfl hsame.writeBuffer hsame.keepAlive
  | readWaiting _ _ hsame => exact h.frame rfl hsame.writeBuffer hsame.keepAlive
  | readDispatched _ _ hsame => exact h.frame rfl hsame.writeBuffer hsame.keepAlive
  | @worked clientIp =>
    have htells := hwork clientIp rfl
    constructor
    · intro a ha
      rcases List.mem_append.mp ha with ha | ha
      · exact h.single a ha
      · obtain rfl := List.mem_singleton.mp ha
        obtain ⟨line, hline, -⟩ := htells
        exact ⟨line, hline⟩
    · intro hne
      have hlast : (s.work svc clientIp).answers.getLast? =
          some ⟨s.conn.readBuffer, (s.work svc clientIp).conn.writeBuffer⟩ := List.getLast?_concat
      exact ⟨⟨_, hlast, rfl⟩, (tellsFate_iff hne).mpr htells⟩
  | writeEmpty => exact h.frame rfl rfl rfl
  | writePartly => exact h.frame rfl rfl rfl
  | writeRearmed => exact h.drain rfl rfl
  | writeClosed => exact h.drain rfl rfl
  | hungUp => exact h.frame rfl rfl rfl
  | cleaned => exact h.frame rfl rfl rfl
  | spared => exact h
  | other => exact h.frame rfl rfl rfl

/-- After a task the words are true only when the task's are. -/
theorem workTells_of_tellsFates (hcase : StepCase svc peer s label s') (h : s'.TellsFates) :
    WorkTells svc s label := by
  rintro clientIp rfl
  cases hcase with
  | worked =>
    have hne := work_writeBuffer_ne_nil svc clientIp s
    exact (tellsFate_iff hne).mp (h.queued hne).2

end ConnState

open ConnState

variable {σ : Type u}

/-- **Run lemma**: the words are true in all states of a run exactly when all tasks of the
    run queue true ones. -/
theorem tellsFates_run_iff (svc : Service σ) (peer : Bytes) {s₀ s : ConnState σ}
    {ls : List (ConnLabel σ)} (h₀ : (connSystem svc peer).init s₀) :
    Run ((connSystem svc peer).restrict fun s label _ => WorkTells svc s label) s₀ ls s ↔
      Run ((connSystem svc peer).restrict fun _ _ s' => s'.TellsFates) s₀ ls s := by
  obtain ⟨fd, now, world, rfl⟩ := h₀
  refine Run.restrict_iff (fun s label s' hfates hstep => ?_)
    (fun s label s' hfates hstep hwork => hfates.step (step_cases hstep) hwork)
    (tellsFates_accepted fd now world)
  constructor
  · exact fun hwork => hfates.step (step_cases hstep) hwork
  · exact fun htells => workTells_of_tellsFates (step_cases hstep) htells

end VeloxServe
