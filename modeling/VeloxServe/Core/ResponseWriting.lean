import VeloxServe.Core.ConnectionPersistence

/-! # Writing a Response

    A response goes out over any number of calls of `handle_write`, each with
    any number of partial sends. `bytes_sent` counts what the socket has
    accepted: a call that the socket stops only moves it on, the call that
    reaches the end clears the buffer, and a failure closes the connection.
-/

namespace VeloxServe

open StdString LTS

universe u

/-- `handle_write` on a response, by how its calls of `send` end. -/
theorem handleWrite_accepts (results : List SendResult) {conn : Connection}
    (hne : conn.writeBuffer ≠ []) :
    ∃ n outcome, Accepts (conn.writeBuffer.length - conn.bytesSent) results n outcome ∧
      handleWrite results conn =
        ((conn.writeBuffer.drop conn.bytesSent).take n,
          match outcome with
          | .blocked => (.wait, { conn with bytesSent := conn.bytesSent + n })
          | .failed => (.close, { conn with bytesSent := conn.bytesSent + n })
          | .complete => (if conn.keepAlive then .rearm else .close,
              { conn with writeBuffer := [], bytesSent := 0, isWriting := false })) := by
  obtain ⟨n, outcome, haccepts, hloop⟩ := sendLoop_accepts results conn
  refine ⟨n, outcome, haccepts, ?_⟩
  unfold handleWrite
  rw [if_neg hne, hloop]
  cases outcome <;> rfl

namespace ConnState

variable {σ : Type u} {svc : Service σ} {peer : Bytes} {s s' : ConnState σ}

/-! ## One Call -/

/-- The connection is registered for writing. -/
def InWriteMode (s : ConnState σ) : Prop := s.isOpen = true ∧ s.interest = .output

instance (s : ConnState σ) : Decidable s.InWriteMode := inferInstanceAs (Decidable (_ ∧ _))

/-- The bytes of the response that the socket has not accepted. -/
def unsent (s : ConnState σ) : Nat := s.conn.writeBuffer.length - s.conn.bytesSent

/-- What a call of `handle_write` makes of a connection with a response, by how
    its calls of `send` end. -/
inductive CallCase (s : ConnState σ) (results : List SendResult) : ConnState σ → Prop where
  | waiting {n : Nat} (haccepts : Accepts s.unsent results n .blocked) :
      CallCase s results
        { s with
          conn := { s.conn with bytesSent := s.conn.bytesSent + n }
          sent := s.sent ++ (s.conn.writeBuffer.drop s.conn.bytesSent).take n }
  | failed {n : Nat} (haccepts : Accepts s.unsent results n .failed) :
      CallCase s results
        { s with
          conn := { s.conn with bytesSent := s.conn.bytesSent + n }
          sent := s.sent ++ (s.conn.writeBuffer.drop s.conn.bytesSent).take n
          isOpen := false }
  | rearmed (haccepts : Accepts s.unsent results s.unsent .complete)
      (hkeep : s.conn.keepAlive = true) :
      CallCase s results
        { s with
          conn := { s.conn with writeBuffer := [], bytesSent := 0, isWriting := false }
          sent := s.sent ++ s.conn.writeBuffer.drop s.conn.bytesSent
          interest := .input }
  | finished (haccepts : Accepts s.unsent results s.unsent .complete)
      (hkeep : s.conn.keepAlive = false) :
      CallCase s results
        { s with
          conn := { s.conn with writeBuffer := [], bytesSent := 0, isWriting := false }
          sent := s.sent ++ s.conn.writeBuffer.drop s.conn.bytesSent
          isOpen := false }

theorem write_cases (results : List SendResult) (hne : s.conn.writeBuffer ≠ []) :
    CallCase s results (s.write results) := by
  obtain ⟨n, outcome, haccepts, hcall⟩ := handleWrite_accepts results hne
  unfold write
  rw [hcall]
  cases outcome with
  | blocked => exact CallCase.waiting haccepts
  | failed => exact CallCase.failed haccepts
  | complete =>
    obtain rfl : n = s.unsent := haccepts.complete_iff.mp rfl
    have hall : (s.conn.writeBuffer.drop s.conn.bytesSent).take s.unsent =
        s.conn.writeBuffer.drop s.conn.bytesSent := by
      apply List.take_of_length_le
      rw [List.length_drop]
      exact Nat.le_refl _
    rw [hall]
    dsimp only
    by_cases hkeep : s.conn.keepAlive = true
    · rw [if_pos hkeep]
      exact CallCase.rearmed haccepts hkeep
    · rw [if_neg hkeep]
      exact CallCase.finished haccepts (Bool.not_eq_true _ ▸ hkeep)

/-- `handle_write` runs in write mode. -/
theorem step_write {results : List SendResult}
    (h : (connSystem svc peer).step s (.write results) s') : s.InWriteMode ∧ s.write results = s' := by
  have hstep : s.step svc peer (.write results) = some s' := h
  unfold step at hstep
  obtain ⟨hmode, hs'⟩ := Option.ite_none_right_eq_some.mp hstep
  exact ⟨hmode, Option.some.inj hs'⟩

/-! ## Between Calls -/

/-- A connection in write mode has bytes left to send, and those in front of them
    are what the socket accepted last. -/
structure HoldsResponse (s : ConnState σ) : Prop where
  left : s.conn.bytesSent < s.conn.writeBuffer.length
  accepted : s.conn.writeBuffer.take s.conn.bytesSent <:+ s.sent

theorem HoldsResponse.ne_nil (h : s.HoldsResponse) : s.conn.writeBuffer ≠ [] :=
  List.ne_nil_of_length_pos (Nat.lt_of_le_of_lt (Nat.zero_le _) h.left)

/-- **Step lemma** for write mode. -/
theorem holdsResponse_step {label : ConnLabel σ} (h : s.InWriteMode → s.HoldsResponse)
    (hstep : (connSystem svc peer).step s label s') (hmode : s'.InWriteMode) :
    s'.HoldsResponse := by
  obtain ⟨hopen, hout⟩ := hmode
  cases label with
  | write results =>
    obtain ⟨hmode, hwrite⟩ := step_write hstep
    have hholds := h hmode
    have hcase := write_cases results hholds.ne_nil
    rw [hwrite] at hcase
    cases hcase with
    | @waiting n haccepts =>
      have hle := haccepts.le
      have hmore : n ≠ s.unsent := fun hn => nomatch haccepts.complete_iff.mpr hn
      have hleft := hholds.left
      unfold unsent at hle hmore
      constructor
      · show s.conn.bytesSent + n < s.conn.writeBuffer.length
        omega
      · obtain ⟨earlier, hearlier⟩ := hholds.accepted
        refine ⟨earlier, ?_⟩
        show earlier ++ s.conn.writeBuffer.take (s.conn.bytesSent + n) =
          s.sent ++ (s.conn.writeBuffer.drop s.conn.bytesSent).take n
        rw [List.take_add, ← List.append_assoc, hearlier]
    | failed haccepts => cases hopen
    | rearmed haccepts hkeep => cases hout
    | finished haccepts hkeep => cases hopen
  | work clientIp =>
    have hne := work_writeBuffer_ne_nil svc clientIp s
    cases step_cases hstep with
    | worked hpos hip => exact ⟨List.length_pos_of_ne_nil hne, List.nil_suffix⟩
  | read results =>
    -- a connection that reads is not in write mode, before and after
    cases step_cases hstep with
    | readClosed => cases hopen
    | readWaiting _ hin => exact absurd (hin.symm.trans hout) (by simp)
    | readDispatched _ hin => exact absurd (hin.symm.trans hout) (by simp)
  | hangup =>
    cases step_cases hstep with
    | hungUp => cases hopen
  | cleanup now =>
    cases step_cases hstep with
    | cleaned => cases hopen
    | spared => exact h ⟨hopen, hout⟩
  | other world =>
    cases step_cases hstep with
    | other =>
      have hholds := h ⟨hopen, hout⟩
      exact ⟨hholds.left, hholds.accepted⟩

/-- What holds between calls. -/
def KeepsResponse (s : ConnState σ) : Prop := s.InWriteMode → s.HoldsResponse

theorem keepsResponse_of_reachable (h : Reachable (connSystem svc peer) s) : s.KeepsResponse := by
  refine h.invariant (fun s₀ h₀ hmode => ?_) fun _ _ _ ht hstep => holdsResponse_step ht hstep
  obtain ⟨fd, now, world, rfl⟩ := h₀
  cases hmode.2

/-! ## Any Number of Calls -/

/-- From `s` to `s'` the socket has accepted the response in `s` up to `b` bytes. -/
structure WrittenTo (b : Nat) (s s' : ConnState σ) : Prop where
  from_le : s.conn.bytesSent ≤ b
  le : b ≤ s.conn.writeBuffer.length
  sent : s'.sent = s.sent ++ (s.conn.writeBuffer.drop s.conn.bytesSent).take (b - s.conn.bytesSent)
  accepted : s.conn.writeBuffer.take b <:+ s'.sent
  /-- Before the end only `bytes_sent` has changed; the connection waits for the
      next call or is closed. -/
  partly : b < s.conn.writeBuffer.length →
    s'.conn = { s.conn with bytesSent := b } ∧ s'.interest = .output
  /-- At the end the buffer is cleared, and the connection reads or is closed. -/
  whole : b = s.conn.writeBuffer.length →
    s'.conn = { s.conn with writeBuffer := [], bytesSent := 0, isWriting := false } ∧
      (if s.conn.keepAlive then s'.isOpen = true ∧ s'.interest = .input else s'.isOpen = false)
  others : s'.pending = s.pending ∧ s'.world = s.world ∧ s'.received = s.received ∧
    s'.answers = s.answers

theorem HoldsResponse.writtenTo (h : s.HoldsResponse) (hmode : s.InWriteMode) :
    WrittenTo s.conn.bytesSent s s := by
  have hleft := h.left
  refine ⟨Nat.le_refl _, Nat.le_of_lt hleft, by simp, h.accepted, fun _ => ⟨rfl, hmode.2⟩, ?_,
    ⟨rfl, rfl, rfl, rfl⟩⟩
  intro hall
  omega

/-- Write mode is left exactly at the end of the response or by closing. -/
theorem WrittenTo.inWriteMode_iff {b : Nat} (h : WrittenTo b s s') :
    s'.InWriteMode ↔ b < s.conn.writeBuffer.length ∧ s'.isOpen = true := by
  constructor
  · intro hmode
    refine ⟨?_, hmode.1⟩
    by_contra hge
    obtain ⟨-, hend⟩ := h.whole (Nat.le_antisymm h.le (Nat.le_of_not_lt hge))
    split at hend
    · rw [hmode.2] at hend
      cases hend.2
    · rw [hmode.1] at hend
      cases hend
  · intro ⟨hlt, hopen⟩
    exact ⟨hopen, (h.partly hlt).2⟩

/-- Some more bytes. -/
theorem WrittenTo.more {b n : Nat} (h : WrittenTo b s s')
    (hn : b + n < s.conn.writeBuffer.length) {stillOpen : Bool} :
    WrittenTo (b + n) s
      { s' with
        conn := { s'.conn with bytesSent := s'.conn.bytesSent + n }
        sent := s'.sent ++ (s'.conn.writeBuffer.drop s'.conn.bytesSent).take n
        isOpen := stillOpen } := by
  obtain ⟨hconn, hout⟩ := h.partly (by omega)
  have hfrom := h.from_le
  constructor
  · omega
  · omega
  · show s'.sent ++ (s'.conn.writeBuffer.drop s'.conn.bytesSent).take n = _
    have hcount : b + n - s.conn.bytesSent = b - s.conn.bytesSent + n := by omega
    have hdrop : s.conn.bytesSent + (b - s.conn.bytesSent) = b := by omega
    rw [hconn, h.sent, hcount, List.take_add, List.drop_drop, hdrop, List.append_assoc]
  · show s.conn.writeBuffer.take (b + n) <:+
      s'.sent ++ (s'.conn.writeBuffer.drop s'.conn.bytesSent).take n
    obtain ⟨earlier, hearlier⟩ := h.accepted
    refine ⟨earlier, ?_⟩
    rw [hconn, List.take_add, ← List.append_assoc, hearlier]
  · intro _
    refine ⟨?_, hout⟩
    show { s'.conn with bytesSent := s'.conn.bytesSent + n } = _
    rw [hconn]
  · intro hall
    omega
  · exact h.others

/-- The rest of the bytes. -/
theorem WrittenTo.rest {b : Nat} (h : WrittenTo b s s') (hmode : s'.InWriteMode)
    {stillOpen : Bool} {interest : Interest}
    (hend : if s.conn.keepAlive then stillOpen = true ∧ interest = .input else stillOpen = false) :
    WrittenTo s.conn.writeBuffer.length s
      { s' with
        conn := { s'.conn with writeBuffer := [], bytesSent := 0, isWriting := false }
        sent := s'.sent ++ s'.conn.writeBuffer.drop s'.conn.bytesSent
        isOpen := stillOpen
        interest := interest } := by
  obtain ⟨hconn, -⟩ := h.partly (h.inWriteMode_iff.mp hmode).1
  have hfrom := h.from_le
  have hle := h.le
  constructor
  · omega
  · exact Nat.le_refl _
  · show s'.sent ++ s'.conn.writeBuffer.drop s'.conn.bytesSent = _
    have hcount : s.conn.writeBuffer.length - s.conn.bytesSent =
        b - s.conn.bytesSent + (s.conn.writeBuffer.length - b) := by omega
    have hdrop : s.conn.bytesSent + (b - s.conn.bytesSent) = b := by omega
    have hlast : (s.conn.writeBuffer.drop b).take (s.conn.writeBuffer.length - b) =
        s.conn.writeBuffer.drop b := List.take_of_length_le (by rw [List.length_drop])
    rw [hconn, h.sent, hcount, List.take_add, List.drop_drop, hdrop, hlast, List.append_assoc]
  · show s.conn.writeBuffer.take s.conn.writeBuffer.length <:+
      s'.sent ++ s'.conn.writeBuffer.drop s'.conn.bytesSent
    obtain ⟨earlier, hearlier⟩ := h.accepted
    refine ⟨earlier, ?_⟩
    rw [hconn, ← hearlier, List.append_assoc, List.take_append_drop, List.take_length]
  · intro hlt
    exact absurd hlt (Nat.lt_irrefl _)
  · intro _
    refine ⟨?_, hend⟩
    show { s'.conn with writeBuffer := [], bytesSent := 0, isWriting := false } = _
    rw [hconn]
  · exact h.others

/-- **Step lemma**: another call gets further, if only by nothing. -/
theorem WrittenTo.call {b : Nat} {results : List SendResult} {s'' : ConnState σ}
    (h : WrittenTo b s s') (hmode : s'.InWriteMode) (hcase : CallCase s' results s'') :
    ∃ b', WrittenTo b' s s'' := by
  obtain ⟨hlt, -⟩ := h.inWriteMode_iff.mp hmode
  obtain ⟨hconn, -⟩ := h.partly hlt
  have hunsent : s'.unsent = s.conn.writeBuffer.length - b := by
    unfold unsent
    rw [hconn]
  have hkeepAlive : s'.conn.keepAlive = s.conn.keepAlive := by rw [hconn]
  cases hcase with
  | @waiting n haccepts =>
    have hle := haccepts.le
    have hmore : n ≠ s'.unsent := fun hn => nomatch haccepts.complete_iff.mpr hn
    exact ⟨b + n, h.more (by omega)⟩
  | @failed n haccepts =>
    have hle := haccepts.le
    have hmore : n ≠ s'.unsent := fun hn => nomatch haccepts.complete_iff.mpr hn
    exact ⟨b + n, h.more (by omega)⟩
  | rearmed haccepts hkeep =>
    refine ⟨_, h.rest hmode ?_⟩
    rw [← hkeepAlive, if_pos hkeep]
    exact ⟨hmode.1, rfl⟩
  | finished haccepts hkeep =>
    refine ⟨_, h.rest hmode ?_⟩
    rw [← hkeepAlive, hkeep]
    rfl

/-- A connection in write mode still holds its response. -/
theorem WrittenTo.ne_nil {b : Nat} (h : WrittenTo b s s') (hmode : s'.InWriteMode) :
    s'.conn.writeBuffer ≠ [] := by
  obtain ⟨hlt, -⟩ := h.inWriteMode_iff.mp hmode
  rw [(h.partly hlt).1]
  exact List.ne_nil_of_length_pos (Nat.lt_of_le_of_lt (Nat.zero_le b) hlt)

end ConnState

open ConnState

variable {σ : Type u}

/-- **The calls of `handle_write` send the response once and in order.** From a
    reachable connection in write mode, any calls take the socket through the
    response up to some `b`, and each is decided by how its calls of `send` end. -/
theorem writes_response {svc : Service σ} {peer : Bytes} {s s' : ConnState σ}
    (hreach : Reachable (connSystem svc peer) s) (hmode : s.InWriteMode) (hidle : s.pending = 0)
    {calls : List (List SendResult)}
    (hrun : Run (connSystem svc peer) s (calls.map .write) s') :
    s'.pending = 0 ∧ (∃ b, WrittenTo b s s') ∧
      ∀ results s'', (connSystem svc peer).step s' (.write results) s'' →
        CallCase s' results s'' := by
  have hwritten : ∃ b, WrittenTo b s s' := by
    generalize hls : calls.map ConnLabel.write = ls at hrun
    induction hrun generalizing calls with
    | nil => exact ⟨_, (keepsResponse_of_reachable hreach hmode).writtenTo hmode⟩
    | snoc label _ hstep ih =>
      obtain ⟨earlier, call, rfl, hearlier, hcall⟩ := List.map_eq_append_iff.mp hls
      obtain ⟨b, hb⟩ := ih hearlier
      obtain ⟨results, -, rfl⟩ := List.map_eq_singleton_iff.mp hcall
      obtain ⟨hmode', rfl⟩ := step_write hstep
      exact hb.call hmode' (write_cases results (hb.ne_nil hmode'))
  obtain ⟨b, hb⟩ := hwritten
  refine ⟨hb.others.1.trans hidle, ⟨b, hb⟩, fun results s'' hstep => ?_⟩
  obtain ⟨hmode', rfl⟩ := step_write hstep
  exact write_cases results (hb.ne_nil hmode')

/-- A response that goes out in pieces until the peer is gone. -/
theorem writes_response_failed :
    let s := ((accepted 7 0 ()).read
      [.received (bytes "GET /a HTTP/1.1\r\n\r\n") 0, .wouldBlock]).work healthService []
    let s' := (s.write [.sent 10, .wouldBlock]).write [.sent 5, .error]
    s'.pending = 0 ∧ (∃ b, WrittenTo b s s') ∧
      ∀ results s'', (connSystem healthService []).step s' (.write results) s'' →
        CallCase s' results s'' := by
  intro s s'
  let request : List RecvResult := [.received (bytes "GET /a HTTP/1.1\r\n\r\n") 0, .wouldBlock]
  have hread : (connSystem healthService []).step (accepted 7 0 ()) (.read request)
      ((accepted 7 0 ()).read request) := step_read rfl rfl _
  have hwork : (connSystem healthService []).step ((accepted 7 0 ()).read request) (.work []) s :=
    step_work (by decide +kernel) fun _ => rfl
  have hreach : Reachable (connSystem healthService []) s :=
    ⟨accepted 7 0 (), _, ⟨7, 0, (), rfl⟩, (Run.single hread).snoc _ hwork⟩
  have hfirst : (connSystem healthService []).step s (.write [.sent 10, .wouldBlock])
      (s.write [.sent 10, .wouldBlock]) := step_write_of_mode (by decide +kernel) (by decide +kernel) _
  have hsecond : (connSystem healthService []).step (s.write [.sent 10, .wouldBlock])
      (.write [.sent 5, .error]) s' := step_write_of_mode (by decide +kernel) (by decide +kernel) _
  have hrun : Run (connSystem healthService []) s
      ([[.sent 10, .wouldBlock], [.sent 5, .error]].map .write) s' :=
    (Run.single hfirst).snoc _ hsecond
  exact writes_response hreach (by decide +kernel) (by decide +kernel) hrun

end VeloxServe
