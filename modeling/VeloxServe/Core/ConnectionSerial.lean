import VeloxServe.Core.ConnectionSystem
import VeloxServe.Http.ReceivedRequests

/-! # One Request at a Time

    `read_buffer` is cleared and the descriptor switched to output only when a
    worker gets to the request. Until then `handle_read` may run again, and a
    second task for the same buffer is enqueued. The condition under which
    this does not happen is `ReadsWhileIdle`: no task is pending when a read
    leaves the connection open with a blank line in the buffer. Under it a
    connection goes through read, process, write in turn (`Serial`), and from
    that follow one response for each dispatched buffer and an output stream made
    of whole responses.

    A request may still be answered twice, when it comes in two buffers with a
    blank line in each: its header block, and then a body with a blank line in it.
    This does not happen when the buffer answered last contains the end of a
    request (`EndsRequest`).
-/

namespace VeloxServe

open StdString Message LTS SelfDelimiting

universe u

namespace ConnState

variable {σ : Type u}

/-- The responses queued so far. -/
def queued (s : ConnState σ) : List Bytes := s.answers.map Answer.response

/-- The bytes consumed by `process_request` so far. -/
def consumed (s : ConnState σ) : Bytes := (s.answers.map Answer.request).flatten

/-- Where in the input the buffers begin, the first one at `p`. -/
def positionsFrom : Nat → List Answer → List Nat
  | _, [] => []
  | p, a :: answers => p :: positionsFrom (p + a.request.length) answers

/-- Where in the input the buffers consumed so far begin. -/
def positions (s : ConnState σ) : List Nat := positionsFrom 0 s.answers

/-! ## The Property -/

/-- No received request has two responses. A response belongs to the request in which
    its buffer begins, as `process_request` parses from there. -/
def AnswersOnce (s : ConnState σ) : Prop :=
  ∀ i n, RequestAt s.received i n → Announcer.marksIn s.positions i n ≤ 1

/-- The bytes sent are whole responses followed by a prefix of one. -/
def SentWhole (s : ConnState σ) : Prop :=
  ∃ whole part, s.sent = whole.flatten ++ part ∧
    (whole = s.queued ∧ part = [] ∨ ∃ next, whole ++ [next] <+: s.queued ∧ part <+: next)

structure OneAtATime (s : ConnState σ) : Prop where
  /-- At most one task is queued. -/
  pending : s.pending ≤ 1
  answersOnce : s.AnswersOnce
  sentWhole : s.SentWhole

/-- Only `handle_write` and closing touch a partly sent response. -/
def KeepsPartlySent (s : ConnState σ) (label : ConnLabel σ) (s' : ConnState σ) : Prop :=
  0 < s.conn.bytesSent → s.conn.bytesSent < s.conn.writeBuffer.length →
    (∀ results, label ≠ .write results) → label ≠ .hangup → (∀ now, label ≠ .cleanup now) →
    s'.conn.writeBuffer = s.conn.writeBuffer ∧ s'.conn.bytesSent = s.conn.bytesSent

/-- A read that leaves the connection open with a blank line in its buffer finds
    no task pending. -/
def ReadsWhileIdle (s : ConnState σ) (label : ConnLabel σ) (_ : ConnState σ) : Prop :=
  ∀ results data, label = .read results → Delivers results s.conn data →
    blankLine <:+: s.conn.readBuffer ++ data → s.pending = 0

/-- A worker that runs a task after another one finds that a request ends in the
    buffer the other one has consumed. -/
def EndsRequest (s : ConnState σ) (label : ConnLabel σ) (_ : ConnState σ) : Prop :=
  ∀ clientIp a, label = .work clientIp → s.answers.getLast? = some a →
    ∃ i n, RequestAt s.received i n ∧
      s.consumed.length < i + n + a.request.length ∧ i + n ≤ s.consumed.length

/-! ## The Invariant -/

/-- The connection reads, is processed and writes in turn. -/
structure Serial (s : ConnState σ) : Prop where
  pending : s.pending ≤ 1
  reading : s.isOpen = true → 0 < s.pending → s.interest = .input
  unsent : (0 < s.pending ∨ s.isOpen = true ∧ s.interest = .input) →
    s.conn.writeBuffer = [] ∧ s.conn.bytesSent = 0
  buffered : 0 < s.pending → blankLine <:+: s.conn.readBuffer
  ended : ∀ a ∈ s.answers, blankLine <:+: a.request
  disjoint : s.consumed ++ s.conn.readBuffer <+: s.received
  whole : s.isOpen = true → s.consumed ++ s.conn.readBuffer = s.received
  sent : s.sent ++ s.conn.writeBuffer.drop s.conn.bytesSent = s.queued.flatten
  last : s.conn.writeBuffer = [] ∨ s.queued.getLast? = some s.conn.writeBuffer
  inBounds : s.conn.bytesSent ≤ s.conn.writeBuffer.length

theorem serial_accepted (fd : Nat) (now : Time) (world : σ) :
    (accepted fd now world).Serial := by
  constructor <;> simp [accepted, queued, consumed]

theorem Serial.sentWhole {s : ConnState σ} (h : s.Serial) : s.SentWhole := by
  have hsent := h.sent
  -- nothing is queued, or the last response is on its way
  rcases h.last with hempty | hlast
  · refine ⟨s.queued, [], ?_, .inl ⟨rfl, rfl⟩⟩
    simpa [hempty] using hsent
  · obtain ⟨whole, hqueued⟩ := List.getLast?_eq_some_iff.mp hlast
    refine ⟨whole, s.conn.writeBuffer.take s.conn.bytesSent, ?_, .inr ⟨s.conn.writeBuffer, ?_, ?_⟩⟩
    · rw [hqueued, List.flatten_append] at hsent
      have hcut : s.sent ++ s.conn.writeBuffer.drop s.conn.bytesSent =
          (whole.flatten ++ s.conn.writeBuffer.take s.conn.bytesSent) ++
            s.conn.writeBuffer.drop s.conn.bytesSent := by
        rw [hsent, List.append_assoc, List.take_append_drop]
        simp
      exact List.append_cancel_right hcut
    · rw [hqueued]
    · exact List.take_prefix _ _

/-! ## Positions -/

theorem positionsFrom_concat (p : Nat) (answers : List Answer) (a : Answer) :
    positionsFrom p (answers ++ [a]) =
      positionsFrom p answers ++ [p + (answers.map Answer.request).flatten.length] := by
  induction answers generalizing p with
  | nil => rfl
  | cons b answers ih =>
    rw [List.cons_append, positionsFrom, positionsFrom, ih]
    simp [Nat.add_assoc]

/-- The buffers lie one behind the other, each with a blank line in it. -/
theorem positionsFrom_spec {answers : List Answer} (hended : ∀ a ∈ answers, blankLine <:+: a.request)
    {before rest : Bytes} :
    ∀ q ∈ positionsFrom before.length answers,
      q ≤ (before ++ (answers.map Answer.request).flatten).length ∧
        blankLine <:+: (before ++ (answers.map Answer.request).flatten ++ rest).drop q := by
  induction answers generalizing before with
  | nil => exact List.forall_mem_nil _
  | cons a answers ih =>
    have hflat : before ++ ((a :: answers).map Answer.request).flatten =
        (before ++ a.request) ++ (answers.map Answer.request).flatten := by simp
    have hnext := @ih (fun b hb => hended b (List.mem_cons_of_mem _ hb)) (before ++ a.request)
    rw [List.length_append] at hnext
    rw [positionsFrom, hflat]
    refine List.forall_mem_cons.mpr ⟨⟨?_, ?_⟩, hnext⟩
    · simp only [List.length_append]
      omega
    · have hdrop : ((before ++ a.request) ++ (answers.map Answer.request).flatten ++ rest).drop
          before.length = a.request ++ ((answers.map Answer.request).flatten ++ rest) := by simp
      rw [hdrop]
      exact (hended a List.mem_cons_self).trans (List.prefix_append _ _).isInfix

/-- What is told of the requests up to a place with a blank line behind it. -/
theorem told_of_blankLine {stream : Bytes} {p : Nat} (h : blankLine <:+: stream.drop p) :
    ∀ j ≤ p, (requestAnnouncer.size (stream.drop j)).isSome := by
  intro j hj
  refine requestSize_isSome_iff.mpr (h.trans ?_)
  have hdrop : stream.drop p = (stream.drop j).drop (p - j) := by
    rw [List.drop_drop]
    congr 1
    omega
  rw [hdrop]
  exact (List.drop_suffix _ _).isInfix

theorem answersOnce_accepted (fd : Nat) (now : Time) (world : σ) :
    (accepted fd now world).AnswersOnce := Announcer.apart_nil

/-- The position of the next buffer. -/
theorem positions_work (s : ConnState σ) (svc : Service σ) (clientIp : Bytes) :
    (s.work svc clientIp).positions = s.positions ++ [s.consumed.length] := by
  have hconcat := positionsFrom_concat 0 s.answers
    ⟨s.conn.readBuffer, (s.work svc clientIp).conn.writeBuffer⟩
  rw [Nat.zero_add] at hconcat
  exact hconcat

/-- The position of the buffer consumed last. -/
theorem positions_concat {s : ConnState σ} {answers : List Answer} {a : Answer}
    (h : s.answers = answers ++ [a]) :
    ∃ p, s.positions = positionsFrom 0 answers ++ [p] ∧ s.consumed.length = p + a.request.length := by
  refine ⟨(answers.map Answer.request).flatten.length, ?_, ?_⟩
  · unfold positions
    rw [h, positionsFrom_concat, Nat.zero_add]
  · unfold consumed
    rw [h]
    simp

/-- Every buffer begins where requests have been told of, not behind the last one. -/
theorem Serial.positions {s : ConnState σ} (h : s.Serial) :
    ∀ p ∈ s.positions, p ≤ s.consumed.length ∧
      ∀ j ≤ p, (requestAnnouncer.size (s.received.drop j)).isSome := by
  intro p hp
  obtain ⟨rest, hrest⟩ := (List.prefix_append s.consumed s.conn.readBuffer).trans h.disjoint
  obtain ⟨hle, hend⟩ := @positionsFrom_spec _ h.ended [] rest p hp
  refine ⟨hle, told_of_blankLine ?_⟩
  rw [← hrest]
  exact hend

/-- What else arrives does not answer a request again. -/
theorem AnswersOnce.receive {s t : ConnState σ} (h : s.AnswersOnce) (hserial : s.Serial)
    {data : Bytes} (hanswers : t.answers = s.answers) (hreceived : t.received = s.received ++ data) :
    t.AnswersOnce := by
  unfold AnswersOnce ConnState.positions
  rw [hanswers, hreceived]
  exact Announcer.Apart.append h (fun p hp => (hserial.positions p hp).2) data

/-- **The next response** is the first one to a request if and only if a request has
    ended in the buffer consumed before. -/
theorem answersOnce_work_iff {s : ConnState σ} (hserial : s.Serial) (h : s.AnswersOnce)
    (svc : Service σ) (clientIp : Bytes) :
    (s.work svc clientIp).AnswersOnce ↔ s.EndsRequest (.work clientIp) (s.work svc clientIp) := by
  have hwork : (s.work svc clientIp).AnswersOnce ↔
      requestAnnouncer.Apart s.received (s.positions ++ [s.consumed.length]) := by
    unfold AnswersOnce
    rw [positions_work]
    rfl
  rw [hwork]
  rcases List.eq_nil_or_concat s.answers with hnil | ⟨answers, a, hconcat⟩
  · -- the first response of all
    have hnone : s.positions = [] := by
      unfold ConnState.positions
      rw [hnil]
      rfl
    rw [hnone]
    constructor
    · intro _ _ a _ ha
      rw [hnil] at ha
      cases ha
    · intro _ i n _
      exact List.countP_le_length
  · rw [List.concat_eq_append] at hconcat
    have hget : s.answers.getLast? = some a := by rw [hconcat, List.getLast?_concat]
    obtain ⟨p, hpositions, hconsumed⟩ := positions_concat hconcat
    have hlast : ∀ q ∈ positionsFrom 0 answers ++ [p], q ≤ p := by
      intro q hq
      rcases List.mem_append.mp hq with hq | hq
      · -- an earlier buffer begins before the ones that follow
        have hended : ∀ b ∈ answers, blankLine <:+: b.request := fun b hb =>
          hserial.ended b (by rw [hconcat]; exact List.mem_append_left _ hb)
        have hle := (@positionsFrom_spec _ hended [] [] q hq).1
        unfold consumed at hconsumed
        rw [hconcat] at hconsumed
        simp only [List.map_append, List.map_cons, List.map_nil, List.flatten_append,
          List.flatten_singleton, List.length_append, List.nil_append] at hconsumed hle
        omega
      · exact Nat.le_of_eq (List.mem_singleton.mp hq)
    have htold := (hserial.positions p (by rw [hpositions]; simp)).2
    rw [hpositions, Announcer.apart_concat_iff hlast (by omega) htold]
    constructor
    · rintro ⟨-, i, n, hmessage, hlt, hle⟩ _ b _ hb
      obtain rfl := Option.some.inj (hget.symm.trans hb)
      exact ⟨i, n, hmessage, by omega, hle⟩
    · intro hends
      obtain ⟨i, n, hmessage, hlt, hle⟩ := hends clientIp a rfl hget
      rw [← hpositions]
      exact ⟨h, i, n, hmessage, by omega, hle⟩

/-! ## Preservation -/

variable {svc : Service σ} {peer : Bytes} {s s' : ConnState σ} {label : ConnLabel σ}

/-- Closing keeps the invariant. -/
theorem Serial.close (h : s.Serial) : Serial { s with isOpen := false } := by
  refine ⟨h.pending, fun hopen => ?_, fun hor => ?_, h.buffered, h.ended, h.disjoint,
    fun hopen => ?_, h.sent, h.last, h.inBounds⟩
  · cases hopen
  · rcases hor with hpos | ⟨hopen, -⟩
    · exact h.unsent (.inl hpos)
    · cases hopen
  · cases hopen

/-- A read leaves alone what is known of the output. -/
theorem Serial.sameOutput (h : s.Serial) {conn : Connection} (hsame : s.conn.SameOutput conn) :
    s.sent ++ conn.writeBuffer.drop conn.bytesSent = s.queued.flatten ∧
      (conn.writeBuffer = [] ∨ s.queued.getLast? = some conn.writeBuffer) ∧
      conn.bytesSent ≤ conn.writeBuffer.length := by
  rw [hsame.writeBuffer, hsame.bytesSent]
  exact ⟨h.sent, h.last, h.inBounds⟩

/-- A read only adds to the read buffer. -/
theorem Serial.read (h : s.Serial) {data : Bytes} {conn : Connection}
    (hopen : s.isOpen = true) (hsame : s.conn.SameOutput conn)
    (hbuffer : conn.readBuffer = s.conn.readBuffer ++ data) :
    Serial { s with conn := conn, received := s.received ++ data } := by
  have hwhole : s.consumed ++ conn.readBuffer = s.received ++ data := by
    rw [hbuffer, ← List.append_assoc, h.whole hopen]
  obtain ⟨hsent, hlast, hbound⟩ := h.sameOutput hsame
  constructor
  · exact h.pending
  · exact h.reading
  · intro hor
    have hunsent := h.unsent hor
    exact ⟨hsame.writeBuffer.trans hunsent.1, hsame.bytesSent.trans hunsent.2⟩
  · intro hpos
    show blankLine <:+: conn.readBuffer
    rw [hbuffer]
    exact (h.buffered hpos).trans (List.prefix_append _ _).isInfix
  · exact h.ended
  · show s.consumed ++ conn.readBuffer <+: s.received ++ data
    rw [hwhole]
  · intro _
    exact hwhole
  · exact hsent
  · exact hlast
  · exact hbound

/-- A dispatching read of an idle connection. -/
theorem Serial.dispatch (h : s.Serial) (hidle : s.pending = 0) (hopen : s.isOpen = true)
    (hin : s.interest = .input) (hend : blankLine <:+: s.conn.readBuffer) :
    Serial { s with pending := s.pending + 1 } := by
  refine ⟨?_, fun _ _ => hin, fun _ => h.unsent (.inr ⟨hopen, hin⟩), fun _ => hend, h.ended,
    h.disjoint, h.whole, h.sent, h.last, h.inBounds⟩
  show s.pending + 1 ≤ 1
  omega

/-- A read that ends in closing. -/
theorem Serial.readClosed (h : s.Serial) {taken rest : Bytes} {conn : Connection}
    (hopen : s.isOpen = true) (hin : s.interest = .input) (hsame : s.conn.SameOutput conn)
    (hbuffer : s.conn.readBuffer ++ taken = conn.readBuffer ++ rest)
    (hgrow : s.conn.readBuffer <+: conn.readBuffer) :
    Serial { s with conn := conn, received := s.received ++ taken, isOpen := false } := by
  have hunsent := h.unsent (.inr ⟨hopen, hin⟩)
  have hwhole : s.consumed ++ conn.readBuffer ++ rest = s.received ++ taken := by
    rw [List.append_assoc, ← hbuffer, ← List.append_assoc, h.whole hopen]
  obtain ⟨hsent, hlast, hbound⟩ := h.sameOutput hsame
  constructor
  · exact h.pending
  · intro hfalse
    cases hfalse
  · intro _
    exact ⟨hsame.writeBuffer.trans hunsent.1, hsame.bytesSent.trans hunsent.2⟩
  · intro hpos
    exact (h.buffered hpos).trans hgrow.isInfix
  · exact h.ended
  · -- the bytes that were not buffered are lost with the connection
    exact ⟨rest, hwhole⟩
  · intro hfalse
    cases hfalse
  · exact hsent
  · exact hlast
  · exact hbound

/-- The task consumes the buffer and queues the response. -/
theorem Serial.work (h : s.Serial) (svc : Service σ) (clientIp : Bytes) (hpos : 0 < s.pending) :
    (s.work svc clientIp).Serial := by
  have hunsent := h.unsent (.inl hpos)
  have hidle : (s.work svc clientIp).pending = 0 := by
    have := h.pending
    show s.pending - 1 = 0
    omega
  have hconsumed : (s.work svc clientIp).consumed = s.consumed ++ s.conn.readBuffer := by
    simp [ConnState.work, consumed]
  have hqueued : (s.work svc clientIp).queued =
      s.queued ++ [(s.work svc clientIp).conn.writeBuffer] := by
    simp [ConnState.work, queued]
  have hempty : (s.work svc clientIp).conn.readBuffer = [] := rfl
  constructor
  · rw [hidle]
    exact Nat.zero_le 1
  · intro _ hpos'
    rw [hidle] at hpos'
    cases hpos'
  · rintro (hpos' | ⟨hopen, hin⟩)
    · rw [hidle] at hpos'
      cases hpos'
    · -- an open connection has just been switched to output
      have hout : (s.work svc clientIp).interest = .output := if_pos hopen
      rw [hout] at hin
      cases hin
  · intro hpos'
    rw [hidle] at hpos'
    cases hpos'
  · intro a ha
    rcases List.mem_append.mp ha with ha | ha
    · exact h.ended a ha
    · obtain rfl := List.mem_singleton.mp ha
      exact h.buffered hpos
  · -- the buffer moves to the consumed bytes as a whole
    rw [hconsumed, hempty, List.append_nil]
    exact h.disjoint
  · intro hopen
    rw [hconsumed, hempty, List.append_nil]
    exact h.whole hopen
  · -- nothing was queued before, so the responses before are all sent
    have hsent := h.sent
    rw [hunsent.1, List.drop_nil, List.append_nil] at hsent
    rw [hqueued, List.flatten_append, List.flatten_singleton, ← hsent]
    rfl
  · right
    rw [hqueued, List.getLast?_concat]
  · exact Nat.zero_le _

theorem Serial.write (h : s.Serial) {n : Nat}
    (hle : s.conn.bytesSent ≤ s.conn.writeBuffer.length →
      s.conn.bytesSent + n ≤ s.conn.writeBuffer.length)
    (hquiet : ¬ (0 < s.pending ∨ s.isOpen = true ∧ s.interest = .input)) :
    Serial { s with
      conn := { s.conn with bytesSent := s.conn.bytesSent + n }
      sent := s.sent ++ (s.conn.writeBuffer.drop s.conn.bytesSent).take n } := by
  refine ⟨h.pending, h.reading, fun hor => absurd hor hquiet, h.buffered, h.ended, h.disjoint,
    h.whole, ?_, h.last, hle h.inBounds⟩
  show s.sent ++ (s.conn.writeBuffer.drop s.conn.bytesSent).take n ++
    s.conn.writeBuffer.drop (s.conn.bytesSent + n) = s.queued.flatten
  rw [List.append_assoc, ← List.drop_drop, List.take_append_drop]
  exact h.sent

theorem Serial.writeAll (h : s.Serial) (hidle : s.pending = 0) (interest : Interest) :
    Serial { s with
      conn := { s.conn with writeBuffer := [], bytesSent := 0, isWriting := false }
      sent := s.sent ++ s.conn.writeBuffer.drop s.conn.bytesSent
      interest := interest } := by
  refine ⟨h.pending, fun _ hpos => ?_, fun _ => ⟨rfl, rfl⟩, h.buffered, h.ended, h.disjoint,
    h.whole, ?_, .inl rfl, Nat.zero_le _⟩
  · exact absurd hidle (Nat.pos_iff_ne_zero.mp hpos)
  · show s.sent ++ s.conn.writeBuffer.drop s.conn.bytesSent ++ [] = s.queued.flatten
    rw [List.append_nil]
    exact h.sent

/-- While the descriptor is registered for output no task is pending. -/
theorem Serial.idle_of_output (h : s.Serial) (hopen : s.isOpen = true)
    (hout : s.interest = .output) : s.pending = 0 := by
  by_contra hne
  have hin := h.reading hopen (Nat.pos_of_ne_zero hne)
  rw [hout] at hin
  cases hin

/-- **Preservation**: a step that meets the condition keeps the connection serial. -/
theorem Serial.step (h : s.Serial) (hcase : StepCase svc peer s label s')
    (hgood : s.ReadsWhileIdle label s') : s'.Serial := by
  -- a connection that waits for output has no task
  have hsilent : s.interest = .output → s.isOpen = true →
      ¬ (0 < s.pending ∨ s.isOpen = true ∧ s.interest = .input) := by
    rintro hout hopen (hpos | ⟨-, hin⟩)
    · exact absurd (h.idle_of_output hopen hout) (Nat.pos_iff_ne_zero.mp hpos)
    · rw [hout] at hin
      cases hin
  cases hcase with
  | readClosed _ hopen hin hsame _ hgrow hbuffer _ =>
    exact h.readClosed hopen hin hsame hbuffer hgrow
  | readWaiting hopen _ hsame _ hbuffer _ => exact h.read hopen hsame hbuffer
  | readDispatched hopen hin hsame hdata hbuffer hend =>
    have hidle : s.pending = 0 := hgood _ _ rfl hdata hend
    exact (h.read hopen hsame hbuffer).dispatch hidle hopen hin (by rw [hbuffer]; exact hend)
  | worked hpos _ => exact h.work svc _ hpos
  | writeEmpty _ _ => exact h.close
  | writePartly hopen hout _ hclosed hle =>
    have hwrite := h.write hle (hsilent hout hopen)
    rcases hclosed with rfl | rfl
    · exact hwrite
    · exact hwrite.close
  | writeRearmed hopen hout _ _ => exact h.writeAll (h.idle_of_output hopen hout) .input
  | writeClosed hopen hout _ _ =>
    exact (h.writeAll (h.idle_of_output hopen hout) s.interest).close
  | hungUp => exact h.close
  | cleaned => exact h.close
  | spared => exact h
  | other =>
    exact ⟨h.pending, h.reading, h.unsent, h.buffered, h.ended, h.disjoint, h.whole, h.sent,
      h.last, h.inBounds⟩

/-- A serial connection leaves a partly sent response alone. -/
theorem Serial.keepsPartlySent (h : s.Serial) (hcase : StepCase svc peer s label s') :
    s.KeepsPartlySent label s' := by
  intro hpos _ hwrite hhangup hcleanup
  cases hcase with
  | readClosed _ _ _ hsame _ _ _ _ => exact ⟨hsame.writeBuffer, hsame.bytesSent⟩
  | readWaiting _ _ hsame _ _ _ => exact ⟨hsame.writeBuffer, hsame.bytesSent⟩
  | readDispatched _ _ hsame _ _ _ => exact ⟨hsame.writeBuffer, hsame.bytesSent⟩
  | worked hpending _ =>
    -- nothing has been sent of a response that is not there yet
    have hunsent := (h.unsent (.inl hpending)).2
    omega
  | writeEmpty _ _ => exact absurd rfl (hwrite _)
  | writePartly _ _ _ _ _ => exact absurd rfl (hwrite _)
  | writeRearmed _ _ _ _ => exact absurd rfl (hwrite _)
  | writeClosed _ _ _ _ => exact absurd rfl (hwrite _)
  | hungUp => exact absurd rfl hhangup
  | cleaned => exact absurd rfl (hcleanup _)
  | spared => exact ⟨rfl, rfl⟩
  | other => exact ⟨rfl, rfl⟩

/-- A step after which at most one task is pending meets the condition. -/
theorem readsWhileIdle_of_step (hcase : StepCase svc peer s label s') (hone : s'.pending ≤ 1) :
    s.ReadsWhileIdle label s' := by
  intro results data hlabel hdata hend
  cases hcase with
  | readClosed _ _ _ _ hnone _ _ _ =>
    obtain rfl := ConnLabel.read.inj hlabel
    exact absurd hdata (hnone data)
  | readWaiting _ _ _ hdata' _ hopen =>
    obtain rfl := ConnLabel.read.inj hlabel
    obtain rfl := Option.some.inj (hdata.1.symm.trans hdata'.1)
    exact absurd hend hopen
  | readDispatched _ _ _ _ _ _ =>
    have hone' : s.pending + 1 ≤ 1 := hone
    omega
  | worked _ _ => cases hlabel
  | writeEmpty _ _ => cases hlabel
  | writePartly _ _ _ _ _ => cases hlabel
  | writeRearmed _ _ _ _ => cases hlabel
  | writeClosed _ _ _ _ => cases hlabel
  | hungUp => cases hlabel
  | cleaned => cases hlabel
  | spared => cases hlabel
  | other => cases hlabel

/-- A step that meets the condition keeps the responses to requests of their own. -/
theorem AnswersOnce.step (h : s.AnswersOnce) (hserial : s.Serial)
    (hcase : StepCase svc peer s label s') (hgood : s.EndsRequest label s') : s'.AnswersOnce := by
  cases hcase with
  | readClosed => exact h.receive hserial rfl rfl
  | readWaiting => exact h.receive hserial rfl rfl
  | readDispatched => exact h.receive hserial rfl rfl
  | worked => exact (answersOnce_work_iff hserial h svc _).mpr hgood
  | writeEmpty => exact h
  | writePartly => exact h
  | writeRearmed => exact h
  | writeClosed => exact h
  | hungUp => exact h
  | cleaned => exact h
  | spared => exact h
  | other => exact h

/-- Only a task that answers a request again misses the condition. -/
theorem endsRequest_of_step (h : s.AnswersOnce) (hserial : s.Serial)
    (hcase : StepCase svc peer s label s') (hafter : s'.AnswersOnce) : s.EndsRequest label s' := by
  intro clientIp a hlabel ha
  subst hlabel
  cases hcase with
  | worked => exact (answersOnce_work_iff hserial h svc clientIp).mp hafter clientIp a rfl ha

end ConnState

/-! ## Runs -/

open ConnState

variable {σ : Type u}

/-- **One request at a time**: along a run, every read that finds a blank line
    in the buffer finds no task pending, and every task after the first one finds
    that a request has ended in the buffer consumed before, if and only if after
    every step at most one task is queued, no received request has two responses,
    only `handle_write` and closing touch a partly sent response, and the bytes
    sent are whole responses followed by a prefix of one. -/
theorem one_at_a_time_iff (svc : Service σ) (peer : Bytes) {s₀ s : ConnState σ}
    {ls : List (ConnLabel σ)} (h₀ : (connSystem svc peer).init s₀) :
    Run ((connSystem svc peer).restrict fun s label s' =>
        s.ReadsWhileIdle label s' ∧ s.EndsRequest label s') s₀ ls s ↔
      Run ((connSystem svc peer).restrict fun s label s' =>
        s.KeepsPartlySent label s' ∧ s'.OneAtATime) s₀ ls s := by
  obtain ⟨fd, now, world, rfl⟩ := h₀
  have hinv : ∀ s label s', s.Serial ∧ s.AnswersOnce → (connSystem svc peer).step s label s' →
      s.ReadsWhileIdle label s' ∧ s.EndsRequest label s' → s'.Serial ∧ s'.AnswersOnce := by
    rintro s label s' ⟨hserial, honce⟩ hstep ⟨hidle, hends⟩
    have hcase := step_cases hstep
    exact ⟨hserial.step hcase hidle, honce.step hserial hcase hends⟩
  refine Run.restrict_iff (fun s label s' hs hstep => ?_) hinv
    ⟨serial_accepted fd now world, answersOnce_accepted fd now world⟩
  have hcase := step_cases hstep
  constructor
  · intro hgood
    obtain ⟨hserial, honce⟩ := hinv s label s' hs hstep hgood
    exact ⟨hs.1.keepsPartlySent hcase, hserial.pending, honce, hserial.sentWhole⟩
  · rintro ⟨-, hafter⟩
    exact ⟨readsWhileIdle_of_step hcase hafter.pending,
      endsRequest_of_step hs.2 hs.1 hcase hafter.answersOnce⟩

/-- Two requests, the second one read when the first has been answered. -/
theorem one_at_a_time_single :
    let first : List RecvResult := [.received (bytes "GET /a HTTP/1.1\r\n\r\n") 0, .wouldBlock]
    let second : List RecvResult := [.received (bytes "GET /b HTTP/1.1\r\n\r\n") 1, .wouldBlock]
    let ls : List (ConnLabel Unit) := [.read first, .work [], .write [.sent 4096], .read second, .work []]
    let s := ((((accepted 7 0 ()).read first).work healthService []).write [.sent 4096]).read second
    Run ((connSystem healthService []).restrict fun s label s' =>
        s.ReadsWhileIdle label s' ∧ s.EndsRequest label s') (accepted 7 0 ()) ls
        (s.work healthService []) ↔
      Run ((connSystem healthService []).restrict fun s label s' =>
        s.KeepsPartlySent label s' ∧ s'.OneAtATime) (accepted 7 0 ()) ls (s.work healthService []) :=
  one_at_a_time_iff healthService [] ⟨7, 0, (), rfl⟩

/-- Two requests that arrive in two reads before a worker gets to the first. -/
def eagerClient : List (ConnLabel Unit) :=
  [.read [.received (bytes "GET /a HTTP/1.1\r\n\r\n") 0],
    .read [.received (bytes "GET /b HTTP/1.1\r\n\r\n") 1], .work [], .write [.sent 5]]

/-- The second task overwrites the partly sent response to the first. -/
theorem one_at_a_time_eager :
    ¬ ∀ (s₀ s s' : ConnState Unit) (ls : List (ConnLabel Unit)) (label : ConnLabel Unit),
      (connSystem healthService []).init s₀ → Run (connSystem healthService []) s₀ ls s →
        (connSystem healthService []).step s label s' →
          s.KeepsPartlySent label s' ∧ s'.OneAtATime := by
  intro hall
  have hfacts : (replay (step healthService []) (accepted 7 0 ()) eagerClient).any (fun s =>
      decide (0 < s.conn.bytesSent ∧ s.conn.bytesSent < s.conn.writeBuffer.length ∧
        0 < s.pending)) = true := by
    decide +kernel
  obtain ⟨s, hs, hmid⟩ := (Option.any_eq_true _ _).mp hfacts
  obtain ⟨hpos, hlt, hpending⟩ := of_decide_eq_true hmid
  have hstep : (connSystem healthService []).step s (.work []) (s.work healthService []) :=
    step_work hpending fun _ => rfl
  have hkeeps := (hall _ s _ _ (.work []) ⟨7, 0, (), rfl⟩ (Run.of_replay hs) hstep).1 hpos hlt
    (by simp) (by simp) (by simp)
  have hzero : (s.work healthService []).conn.bytesSent = 0 := rfl
  have hsame := hkeeps.2
  omega

/-- A request whose header block and body arrive in two reads, both with a blank line. -/
def splitClient : List (ConnLabel Unit) :=
  [.read [.received (bytes "GET /a HTTP/1.1\r\n\r\n") 0], .work [], .write [.sent 4096],
    .read [.received (bytes "POST /b HTTP/1.1\r\nContent-Length: 6\r\n\r\n") 1], .work [],
    .write [.sent 4096], .read [.received (bytes "ab\r\n\r\n") 2], .work []]

/-- It is answered twice. -/
example : (replay (step healthService []) (accepted 7 0 ()) splitClient).any (fun s =>
    requestSize s.received = some 19 ∧ requestSize (s.received.drop 19) = some 45 ∧
      Announcer.marksIn s.positions 19 45 = 2) = true := by
  decide +kernel

end VeloxServe
