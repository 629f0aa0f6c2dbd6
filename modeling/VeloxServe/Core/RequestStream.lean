import VeloxServe.Core.ConnectionSerial

/-! # Request Streams

    A client may send its requests in any grouping of reads: a request in
    several pieces, or several requests at once. `process_request` parses the
    whole read buffer as one request and then clears it. So each request of a
    stream is answered, in order and with no byte lost, when every task finds
    exactly one complete request in the buffer (`OneRequestPerRead`).

    The second part is about one request in pieces: it is answered as in a
    single read if and only if the pieces before the last one do not contain
    the end of the header block.
-/

namespace VeloxServe

open StdString Message LTS

universe u

namespace ConnState

variable {σ : Type u}

/-! ## Streams of Requests -/

/-- The response is what `process_request` builds for the request. -/
def Answers (svc : Service σ) (a : Answer) : Prop :=
  ∃ clientIp keepAlive world,
    a.response = (svc.answer clientIp a.request keepAlive world).1.2.1.build svc.headerOrder

/-- The peer has closed or the socket has failed before any byte arrives. -/
def hangsUpAtOnce : List RecvResult → Bool
  | .received data _ :: _ => data = []
  | .error :: _ => true
  | _ => false

/-- While a task is pending nothing is read, and a read that leaves the
    connection open with a blank line in the buffer leaves exactly one complete
    request there. -/
def OneRequestPerRead (s : ConnState σ) (label : ConnLabel σ) (_ : ConnState σ) : Prop :=
  ∀ results, label = .read results →
    (0 < s.pending → hangsUpAtOnce results = true) ∧
    ∀ data, Delivers results s.conn data → blankLine <:+: s.conn.readBuffer ++ data →
      IsRequest (s.conn.readBuffer ++ data)

structure InOrder (svc : Service σ) (requests : List Bytes) (s : ConnState σ) : Prop
    extends Serial s where
  requests : ∃ n, s.answers.map Answer.request = requests.take n
  answers : ∀ a ∈ s.answers, Answers svc a
  kept : s.consumed ++ s.conn.readBuffer = s.received
  complete : 0 < s.pending → IsRequest s.conn.readBuffer
  waiting : s.isOpen = true → s.pending = 0 → ¬ blankLine <:+: s.conn.readBuffer

variable {svc : Service σ} {peer : Bytes} {requests : List Bytes} {s s' : ConnState σ}
  {label : ConnLabel σ}

theorem inOrder_accepted (svc : Service σ) (requests : List Bytes) (fd : Nat) (now : Time)
    (world : σ) : (accepted fd now world).InOrder svc requests where
  toSerial := serial_accepted fd now world
  requests := ⟨0, rfl⟩
  answers := by
    intro a ha
    cases ha
  kept := rfl
  complete := by
    intro hpos
    cases hpos
  waiting := by
    intro _ _
    exact (by decide : ¬ blankLine <:+: ([] : Bytes))

/-- A read that hangs up at once leaves nothing open and takes nothing. -/
theorem not_delivers_of_hangsUp {results : List RecvResult} {conn : Connection} {data : Bytes}
    (h : hangsUpAtOnce results = true) : ¬ Delivers results conn data := by
  rintro ⟨harrived, -⟩
  rcases results with _ | ⟨⟨chunk, now⟩ | _ | _, results⟩
  · cases h
  · have hnil : chunk = [] := by simpa [hangsUpAtOnce] using h
    simp [arrived, hnil] at harrived
  · cases h
  · cases harrived

theorem handleRead_of_hangsUp {results : List RecvResult} (conn : Connection)
    (h : hangsUpAtOnce results = true) : handleRead results conn = ([], .close, conn) := by
  rcases results with _ | ⟨⟨chunk, now⟩ | _ | _, results⟩
  · cases h
  · have hnil : chunk = [] := by simpa [hangsUpAtOnce] using h
    simp [handleRead, recvLoop, hnil]
  · cases h
  · rfl

/-- The condition on streams implies the one on single requests. -/
theorem OneRequestPerRead.readsWhileIdle (h : s.OneRequestPerRead label s') :
    s.ReadsWhileIdle label s' := by
  intro results data hlabel hdata _
  by_contra hne
  have hhang := (h results hlabel).1 (Nat.pos_of_ne_zero hne)
  exact not_delivers_of_hangsUp hhang hdata

/-- A stream of requests starts with the request it starts with. -/
theorem next_request (hreqs : ∀ r ∈ requests, IsRequest r) {n : Nat} {buffer : Bytes}
    (hbuffer : IsRequest buffer)
    (hstream : (requests.take n).flatten ++ buffer <+: requests.flatten) :
    requests.take n ++ [buffer] = requests.take (n + 1) := by
  have hsplit : requests.flatten = (requests.take n).flatten ++ (requests.drop n).flatten := by
    rw [← List.flatten_append, List.take_append_drop]
  rw [hsplit, List.prefix_append_right_inj] at hstream
  rcases hdrop : requests.drop n with _ | ⟨r, rest⟩
  · rw [hdrop, List.flatten_nil, List.prefix_nil] at hstream
    exact absurd hstream hbuffer.ne_nil
  · rw [hdrop, List.flatten_cons] at hstream
    have hr : r ∈ requests := by
      apply List.mem_of_mem_drop (i := n)
      rw [hdrop]
      exact List.mem_cons_self
    have heq : buffer = r :=
      hbuffer.eq_of_prefix (hreqs r hr) hstream (List.prefix_append r rest.flatten)
    have hget : requests[n]? = some r := by
      rw [← List.head?_drop, hdrop]
      rfl
    rw [List.take_add_one, hget, heq]
    rfl

/-- No step takes back received bytes. -/
theorem received_mono (hcase : StepCase svc peer s label s') : s.received <+: s'.received := by
  cases hcase with
  | readClosed => exact List.prefix_append _ _
  | readWaiting => exact List.prefix_append _ _
  | readDispatched => exact List.prefix_append _ _
  | worked => exact List.prefix_refl _
  | writeEmpty => exact List.prefix_refl _
  | writePartly => exact List.prefix_refl _
  | writeRearmed => exact List.prefix_refl _
  | writeClosed => exact List.prefix_refl _
  | hungUp => exact List.prefix_refl _
  | cleaned => exact List.prefix_refl _
  | spared => exact List.prefix_refl _
  | other => exact List.prefix_refl _

/-! ## Preservation -/

/-- A step that changes neither the buffer, the answers nor what was received. -/
theorem InOrder.frame (h : s.InOrder svc requests) (hserial : s'.Serial)
    (hanswers : s'.answers = s.answers) (hreceived : s'.received = s.received)
    (hbuffer : s'.conn.readBuffer = s.conn.readBuffer) (hpending : s'.pending = s.pending)
    (hopen : s'.isOpen = true → s.isOpen = true) : s'.InOrder svc requests := by
  refine ⟨hserial, ?_, ?_, ?_, ?_, ?_⟩
  · rw [hanswers]
    exact h.requests
  · rw [hanswers]
    exact h.answers
  · unfold consumed
    rw [hanswers, hreceived, hbuffer]
    exact h.kept
  · rw [hpending, hbuffer]
    exact h.complete
  · intro ho hp
    rw [hbuffer]
    exact h.waiting (hopen ho) (hpending ▸ hp)

/-- The task finds the next request of the stream. -/
theorem InOrder.work (h : s.InOrder svc requests) (hreqs : ∀ r ∈ requests, IsRequest r)
    (clientIp : Bytes) (hpos : 0 < s.pending) (hstream : s.received <+: requests.flatten) :
    (s.work svc clientIp).InOrder svc requests := by
  obtain ⟨n, hn⟩ := h.requests
  have hbuffer := h.complete hpos
  have hmap : (s.work svc clientIp).answers.map Answer.request =
      s.answers.map Answer.request ++ [s.conn.readBuffer] := by
    simp [ConnState.work]
  refine ⟨h.toSerial.work svc clientIp hpos, ⟨n + 1, ?_⟩, ?_, ?_, ?_, ?_⟩
  · -- the buffer is a request, so it is the next one of the stream
    rw [hmap, hn]
    apply next_request hreqs hbuffer
    have hkept := h.kept
    unfold consumed at hkept
    rw [hn] at hkept
    rw [hkept]
    exact hstream
  · intro a ha
    rcases List.mem_append.mp ha with ha | ha
    · exact h.answers a ha
    · obtain rfl := List.mem_singleton.mp ha
      exact ⟨clientIp, s.conn.keepAlive, s.world, rfl⟩
  · have hempty : (s.work svc clientIp).conn.readBuffer = [] := rfl
    unfold consumed
    rw [hmap, hempty, List.flatten_append, List.flatten_singleton, List.append_nil]
    exact h.kept
  · intro hpos'
    have hone := h.pending
    have hzero : 0 < s.pending - 1 := hpos'
    omega
  · intro _ _
    exact (by decide : ¬ blankLine <:+: ([] : Bytes))

/-- **Preservation**: a step that meets the condition keeps the stream in order. -/
theorem InOrder.step (h : s.InOrder svc requests) (hreqs : ∀ r ∈ requests, IsRequest r)
    (hfits : requests.flatten.length ≤ maxRequestSize) (hcase : StepCase svc peer s label s')
    (hgood : s.OneRequestPerRead label s') (hstream : s'.received <+: requests.flatten) :
    s'.InOrder svc requests := by
  have hserial : s'.Serial := h.toSerial.step hcase hgood.readsWhileIdle
  cases hcase with
  | @readClosed results taken rest conn hread _ _ _ _ _ hbuffer hover =>
    have hbound : (s.received ++ taken).length ≤ maxRequestSize :=
      le_trans hstream.length_le hfits
    -- the stream fits, so nothing that was taken off the socket is dropped
    have hrest : rest = [] := by
      by_contra hne
      have hlong := hover hne
      have hlen := congrArg List.length h.kept
      simp only [List.length_append] at hlen hbound
      omega
    rw [hrest, List.append_nil] at hbuffer
    refine ⟨hserial, h.requests, h.answers, ?_, ?_, ?_⟩
    · show s.consumed ++ conn.readBuffer = s.received ++ taken
      rw [← hbuffer, ← List.append_assoc, h.kept]
    · intro hpos
      have hhang := handleRead_of_hangsUp s.conn ((hgood results rfl).1 hpos)
      rw [hread] at hhang
      obtain rfl : conn = s.conn := (Prod.mk.inj (Prod.mk.inj hhang).2).2
      exact h.complete hpos
    · intro hopen
      cases hopen
  -- a read with a task pending hangs up at once and takes nothing
  | @readWaiting results data conn hopen hin hsame hdata hbuffer hend =>
    refine ⟨hserial, h.requests, h.answers, ?_, ?_, ?_⟩
    · show s.consumed ++ conn.readBuffer = s.received ++ data
      rw [hbuffer, ← List.append_assoc, h.kept]
    · intro hpos
      have hhang := (hgood results rfl).1 hpos
      exact absurd hdata (not_delivers_of_hangsUp hhang)
    · intro _ _
      show ¬ blankLine <:+: conn.readBuffer
      rw [hbuffer]
      exact hend
  | @readDispatched results data conn hopen hin hsame hdata hbuffer hend =>
    refine ⟨hserial, h.requests, h.answers, ?_, ?_, ?_⟩
    · show s.consumed ++ conn.readBuffer = s.received ++ data
      rw [hbuffer, ← List.append_assoc, h.kept]
    · intro _
      show IsRequest conn.readBuffer
      rw [hbuffer]
      exact (hgood results rfl).2 data hdata hend
    · intro _ hzero
      cases hzero
  | worked hpos _ => exact h.work hreqs _ hpos hstream
  -- the other steps leave the input alone
  | writeEmpty => exact h.frame hserial rfl rfl rfl rfl (fun hopen => by cases hopen)
  | writePartly hopen _ _ _ _ => exact h.frame hserial rfl rfl rfl rfl (fun _ => hopen)
  | writeRearmed hopen _ _ _ => exact h.frame hserial rfl rfl rfl rfl (fun _ => hopen)
  | writeClosed => exact h.frame hserial rfl rfl rfl rfl (fun hopen => by cases hopen)
  | hungUp => exact h.frame hserial rfl rfl rfl rfl (fun hopen => by cases hopen)
  | cleaned => exact h.frame hserial rfl rfl rfl rfl (fun hopen => by cases hopen)
  | spared => exact h
  | other => exact h.frame hserial rfl rfl rfl rfl (fun hopen => hopen)

end ConnState

/-! ## Runs over Streams -/

open ConnState

variable {σ : Type u}

/-- The invariant along a run that reads a stream of requests. -/
theorem inOrder_run (svc : Service σ) (peer : Bytes) {requests : List Bytes}
    (hreqs : ∀ r ∈ requests, IsRequest r) (hfits : requests.flatten.length ≤ maxRequestSize)
    {s₀ s : ConnState σ} {ls : List (ConnLabel σ)} (h₀ : s₀.InOrder svc requests)
    (hrun : Run ((connSystem svc peer).restrict OneRequestPerRead) s₀ ls s)
    (hstream : s.received <+: requests.flatten) : s.InOrder svc requests := by
  induction hrun with
  | nil => exact h₀
  | snoc label _ hstep ih =>
    have hcase := step_cases hstep.1
    have hbefore := ih ((received_mono hcase).trans hstream)
    exact hbefore.step hreqs hfits hcase hstep.2 hstream

/-- Two requests, one after the other. -/
def twoRequests : List Bytes :=
  [bytes "GET /a HTTP/1.1\r\n\r\n", bytes "POST /b HTTP/1.1\r\nContent-Length: 2\r\n\r\nhi"]

/-- A request comes in, is answered, and the answer is sent. -/
def turn (svc : Service σ) (peer data : Bytes) (now : Time) (results : List SendResult)
    (s : ConnState σ) : ConnState σ := ((s.read [.received data now]).work svc peer).write results

/-- The connection waits for a request. -/
def Waits (s : ConnState σ) : Prop :=
  s.isOpen = true ∧ s.interest = .input ∧ s.pending = 0 ∧ s.conn.readBuffer = []

instance (s : ConnState σ) : Decidable (Waits s) :=
  inferInstanceAs (Decidable (_ ∧ _ ∧ _ ∧ _))

theorem run_turn (svc : Service σ) (peer : Bytes) {data : Bytes} (now : Time)
    (results : List SendResult) {s : ConnState σ} (hwaits : Waits s) (hr : IsRequest data)
    (hread : 0 < (s.read [.received data now]).pending)
    (hworked : ((s.read [.received data now]).work svc peer).isOpen = true) :
    Run ((connSystem svc peer).restrict OneRequestPerRead) s
      [.read [.received data now], .work peer, .write results] (turn svc peer data now results s) := by
  obtain ⟨hopen, hin, hidle, hempty⟩ := hwaits
  have hone : s.OneRequestPerRead (.read [.received data now]) (s.read [.received data now]) := by
    intro results' hlabel
    obtain rfl := ConnLabel.read.inj hlabel
    refine ⟨fun hpos => absurd hidle (Nat.ne_of_gt hpos), fun data' hdata _ => ?_⟩
    have hall : arrived [.received data now] = some (data ++ []) := by
      unfold arrived
      rw [if_neg hr.ne_nil]
      rfl
    obtain rfl := Option.some.inj (hall.symm.trans hdata.1)
    rwa [hempty, List.append_nil]
  have hout : ((s.read [.received data now]).work svc peer).interest = .output := if_pos hworked
  refine Run.cons ⟨step_read hopen hin _, hone⟩ (Run.cons ⟨step_work hread fun _ => rfl, ?_⟩
    (Run.single ⟨step_write_of_mode hworked hout results, ?_⟩))
  · intro results' hlabel
    cases hlabel
  · intro results' hlabel
    cases hlabel

/-- The rate limiter admits the client, and the response depends on the request only. -/
structure Service.Functional (svc : Service σ) (peer : Bytes) : Prop where
  admits : ∀ s, (svc.isAllowed peer s).1 = true
  route : ∀ request s s', (svc.route request s).1 = (svc.route request s').1
  serveStatic : ∀ request root index s s',
    (svc.serveStatic request root index s).1 = (svc.serveStatic request root index s').1

theorem Service.Functional.applyErrorPage {svc : Service σ} {peer : Bytes}
    (h : svc.Functional peer) (response : HttpResponse) (s s' : σ) :
    (svc.applyErrorPage response s).1 = (svc.applyErrorPage response s').1 := by
  unfold Service.applyErrorPage
  split
  · cases svc.errorPages response.statusCode with
    | none => rfl
    | some page =>
      dsimp only
      rw [h.serveStatic { path := page } svc.root (bytes "index.html") s s']
      split <;> rfl
  · rfl

theorem Service.Functional.respond {svc : Service σ} {peer : Bytes} (h : svc.Functional peer)
    (request : HttpRequest) (s s' : σ) :
    (svc.respond request s).1 = (svc.respond request s').1 := by
  unfold Service.respond
  dsimp only
  rw [h.route request s s']
  rw [h.applyErrorPage _ (svc.route request s).2 (svc.route request s').2]
  split <;> rfl

/-- Under the assumptions the answer does not depend on the state of the server. -/
theorem Service.Functional.answer {svc : Service σ} {peer : Bytes} (h : svc.Functional peer)
    (buffer : Bytes) (keepAlive : Bool) (s s' : σ) :
    (svc.answer peer buffer keepAlive s).1 = (svc.answer peer buffer keepAlive s').1 := by
  unfold Service.answer
  dsimp only
  rw [h.admits s, h.admits s']
  simp only [Bool.not_true, Bool.false_eq_true, if_false]
  split
  · rfl
  · dsimp only
    rw [h.respond _ (svc.isAllowed peer s).2 (svc.isAllowed peer s').2]

/-- The data of the `handle_read` calls, one after another. -/
def readsOf (ls : List (ConnLabel σ)) : List (Option Bytes) :=
  ls.filterMap fun label => match label with
    | .read results => some (arrived results)
    | _ => none

/-- Reading, processing, and whatever other connections do. -/
def ConnLabel.serves : ConnLabel σ → Bool
  | .read _ | .work _ | .other _ => true
  | .write _ | .hangup | .cleanup _ => false

/-- What `process_request` queues when the whole request arrives in a single read. -/
def singleResponse (svc : Service σ) (peer : Bytes) (s₀ : ConnState σ) (w : Bytes) : Bytes :=
  (processRequest svc peer { s₀.conn with readBuffer := w } s₀.world).1.writeBuffer

/-- In every schedule that reads the pieces one by one, nothing is answered
    before all of them are there, and then the answer is that to a single read. -/
def AnsweredWhole (svc : Service σ) (peer : Bytes) (s₀ : ConnState σ) (pieces : List Bytes) :
    Prop :=
  ∀ (ls : List (ConnLabel σ)) (s : ConnState σ), Run (connSystem svc peer) s₀ ls s →
    (∀ label ∈ ls, label.serves = true) → readsOf ls <+: pieces.map some →
      (s.answers = [] ∧ (readsOf ls = pieces.map some → 0 < s.pending)) ∨
      (readsOf ls = pieces.map some ∧
        s.answers = [⟨pieces.flatten, singleResponse svc peer s₀ pieces.flatten⟩])

/-! ## Reading the Pieces -/

/-- Some pieces have been read, the others have not, and none is answered. -/
structure Reading (before after : List Bytes) (s : ConnState σ) : Prop where
  isOpen : s.isOpen = true
  interest : s.interest = .input
  keepAlive : s.conn.keepAlive = false
  buffer : s.conn.readBuffer = before.flatten
  pending : s.pending = if after = [] then 1 else 0
  answers : s.answers = []

variable {svc : Service σ} {peer : Bytes} {s s' : ConnState σ} {before after : List Bytes}

/-- Reading the next piece. -/
theorem Reading.read {piece : Bytes} {results : List RecvResult}
    (h : Reading before (piece :: after) s)
    (hend : blankLine <:+: (before ++ [piece]).flatten ↔ after = [])
    (hfits : (before ++ [piece]).flatten.length ≤ maxRequestSize)
    (hdata : arrived results = some piece)
    (hcase : ConnState.StepCase svc peer s (.read results) s') :
    Reading (before ++ [piece]) after s' := by
  have hflat : (before ++ [piece]).flatten = s.conn.readBuffer ++ piece := by
    rw [List.flatten_append, List.flatten_singleton, h.buffer]
  have hzero : s.pending = 0 := by
    rw [h.pending]
    exact if_neg (List.cons_ne_nil _ _)
  have hdelivers : Delivers results s.conn piece := by
    refine ⟨hdata, .inr ?_⟩
    rw [hflat, List.length_append] at hfits
    exact hfits
  cases hcase with
  | readClosed _ _ _ _ hnone _ _ _ => exact absurd hdelivers (hnone piece)
  -- this was not the last piece
  | readWaiting hopen hin hsame hdata' hbuffer hopen' =>
    obtain rfl := Option.some.inj (hdata.symm.trans hdata'.1)
    rw [hflat] at hend
    have hne : after ≠ [] := fun hnil => hopen' (hend.mpr hnil)
    refine ⟨hopen, hin, hsame.keepAlive.trans h.keepAlive, hbuffer.trans hflat.symm, ?_, h.answers⟩
    rw [if_neg hne]
    exact hzero
  -- this was the last piece, so the task is enqueued
  | readDispatched hopen hin hsame hdata' hbuffer hended =>
    obtain rfl := Option.some.inj (hdata.symm.trans hdata'.1)
    rw [hflat] at hend
    refine ⟨hopen, hin, hsame.keepAlive.trans h.keepAlive, hbuffer.trans hflat.symm, ?_, h.answers⟩
    rw [if_pos (hend.mp hended)]
    show s.pending + 1 = 1
    rw [hzero]

/-- The task that is enqueued with the last piece answers the whole request. -/
theorem Reading.work (h : Reading before [] s) (hsvc : svc.Functional peer) (fd : Nat)
    (now : Time) (world : σ) :
    (s.work svc peer).answers =
      [⟨before.flatten, singleResponse svc peer (ConnState.accepted fd now world) before.flatten⟩] := by
  have hanswers : (s.work svc peer).answers =
      [⟨s.conn.readBuffer, ((svc.answer peer s.conn.readBuffer s.conn.keepAlive
        s.world).1.2.1).build svc.headerOrder⟩] := by
    show s.answers ++ _ = _
    rw [h.answers]
    rfl
  rw [hanswers, h.buffer, h.keepAlive, hsvc.answer before.flatten false s.world world]
  rfl

/-! ## Pieces -/

variable {pieces : List Bytes} {ls : List (ConnLabel σ)}

theorem readsOf_append (ls ms : List (ConnLabel σ)) : readsOf (ls ++ ms) = readsOf ls ++ readsOf ms :=
  List.filterMap_append

/-- When the earlier pieces do not end the header block, exactly the last one does. -/
theorem blankLine_infix_iff (hw : IsRequest pieces.flatten)
    (hcut : ¬ blankLine <:+: pieces.dropLast.flatten) {piece : Bytes}
    (hsplit : pieces = before ++ piece :: after) :
    blankLine <:+: (before ++ [piece]).flatten ↔ after = [] := by
  constructor
  · intro hend
    by_contra hne
    apply hcut
    have hdrop : pieces.dropLast = before ++ [piece] ++ after.dropLast := by
      rw [hsplit, List.append_cons, List.dropLast_append_of_ne_nil hne]
    rw [hdrop, List.flatten_append]
    exact hend.trans (List.prefix_append _ _).isInfix
  · rintro rfl
    rw [← hsplit]
    exact hw.blankLine_infix

/-- Where a schedule stands: in the middle of the pieces, or done. -/
def Served (svc : Service σ) (peer : Bytes) (s₀ : ConnState σ) (pieces : List Bytes)
    (reads : List (Option Bytes)) (s : ConnState σ) : Prop :=
  (∃ before after, pieces = before ++ after ∧ reads = before.map some ∧ Reading before after s) ∨
  (reads = pieces.map some ∧ s.pending = 0 ∧
    s.answers = [⟨pieces.flatten, singleResponse svc peer s₀ pieces.flatten⟩])

/-- One step of a schedule. -/
theorem Served.step (hsvc : svc.Functional peer) {fd : Nat} {now : Time} {world : σ}
    (hw : IsRequest pieces.flatten) (hfits : pieces.flatten.length ≤ maxRequestSize)
    (hcut : ¬ blankLine <:+: pieces.dropLast.flatten) {label : ConnLabel σ}
    (h : Served svc peer (ConnState.accepted fd now world) pieces (readsOf ls) s)
    (hcase : ConnState.StepCase svc peer s label s') (hserves : label.serves = true)
    (hreads : readsOf (ls ++ [label]) <+: pieces.map some) :
    Served svc peer (ConnState.accepted fd now world) pieces (readsOf (ls ++ [label])) s' := by
  rw [readsOf_append] at hreads ⊢
  cases label with
  -- a read takes the next piece, and there is none when all is answered
  | read results =>
    have hsnoc : readsOf [ConnLabel.read (σ := σ) results] = [arrived results] := rfl
    rw [hsnoc] at hreads ⊢
    rcases h with ⟨before, after, rfl, hbefore, hreading⟩ | ⟨hall, -, -⟩
    · rw [hbefore, List.map_append, List.prefix_append_right_inj] at hreads
      rcases after with _ | ⟨piece, after⟩
      · exact absurd hreads.length_le (by simp)
      · rw [List.map_cons, List.cons_prefix_cons] at hreads
        have hfits' : (before ++ [piece]).flatten.length ≤ maxRequestSize := by
          refine le_trans ?_ hfits
          simp only [List.flatten_append, List.flatten_cons, List.length_append, List.flatten_nil,
            List.append_nil]
          omega
        refine .inl ⟨before ++ [piece], after, by simp, ?_, ?_⟩
        · rw [hbefore, hreads.1]
          simp
        · exact hreading.read (blankLine_infix_iff hw hcut rfl) hfits' hreads.1 hcase
    · rw [hall] at hreads
      exact absurd hreads.length_le (by simp)
  -- a worker runs only on a task, which the last piece has enqueued
  | work clientIp =>
    have hsnoc : readsOf [ConnLabel.work (σ := σ) clientIp] = [] := rfl
    rw [hsnoc, List.append_nil] at hreads ⊢
    cases hcase with
    | worked hpos hip =>
      rcases h with ⟨before, after, hsplit, hbefore, hreading⟩ | ⟨hall, hzero, -⟩
      · rcases after with _ | ⟨piece, after⟩
        · rw [List.append_nil] at hsplit
          obtain rfl := hsplit
          obtain rfl : clientIp = peer := hip hreading.isOpen
          refine .inr ⟨hbefore, ?_, hreading.work hsvc fd now world⟩
          show s.pending - 1 = 0
          rw [hreading.pending]
          rfl
        · -- nothing is pending before the last piece
          have hzero : s.pending = 0 := hreading.pending
          omega
      · omega
  | other world' =>
    have hsnoc : readsOf [ConnLabel.other world'] = [] := rfl
    rw [hsnoc, List.append_nil] at hreads ⊢
    cases hcase with
    | other =>
      rcases h with ⟨before, after, hsplit, hbefore, hreading⟩ | hdone
      · exact .inl ⟨before, after, hsplit, hbefore, hreading.isOpen, hreading.interest,
          hreading.keepAlive, hreading.buffer, hreading.pending, hreading.answers⟩
      · exact .inr hdone
  | write results => cases hserves
  | hangup => cases hserves
  | cleanup time => cases hserves

/-- A schedule of pieces that end the header block only with the last one. -/
theorem answeredWhole_of_cut (hsvc : svc.Functional peer) {fd : Nat} {now : Time} {world : σ}
    (hne : pieces ≠ []) (hw : IsRequest pieces.flatten)
    (hfits : pieces.flatten.length ≤ maxRequestSize)
    (hcut : ¬ blankLine <:+: pieces.dropLast.flatten) :
    AnsweredWhole svc peer (ConnState.accepted fd now world) pieces := by
  intro ls s hrun hserves hreads
  have hserved : Served svc peer (ConnState.accepted fd now world) pieces (readsOf ls) s := by
    induction hrun with
    | nil => exact .inl ⟨[], pieces, rfl, rfl, rfl, rfl, rfl, rfl, by rw [if_neg hne]; rfl, rfl⟩
    | @snoc s' s'' ls label _ hstep ih =>
      have hbefore : readsOf ls <+: pieces.map some := by
        rw [readsOf_append] at hreads
        exact (List.prefix_append _ _).trans hreads
      have hls : ∀ label ∈ ls, label.serves = true := fun l hl => hserves l (by simp [hl])
      exact (ih hls hbefore).step hsvc hw hfits hcut (ConnState.step_cases hstep)
        (hserves label (by simp)) hreads
  rcases hserved with ⟨before, after, hsplit, hbefore, hreading⟩ | ⟨hall, -, hanswers⟩
  · refine .inl ⟨hreading.answers, fun hall => ?_⟩
    -- all pieces are read, so the last read has enqueued the task
    have hafter : after = [] := by
      have hlen := congrArg List.length (hbefore.symm.trans hall)
      rw [hsplit] at hlen
      simpa using hlen
    rw [hreading.pending, if_pos hafter]
    exact Nat.one_pos
  · exact .inr ⟨hall, hanswers⟩

/-- Reading pieces one after another, before any worker gets to run. -/
theorem run_reads (svc : Service σ) (peer : Bytes) (fd : Nat) (now : Time) (world : σ)
    (hne : ∀ piece ∈ pieces, piece ≠ []) (hfits : pieces.flatten.length ≤ maxRequestSize) :
    ∃ s, Run (connSystem svc peer) (ConnState.accepted fd now world)
        (pieces.map fun piece => .read [.received piece now]) s ∧
      s.isOpen = true ∧ s.interest = .input ∧ s.conn.readBuffer = pieces.flatten ∧
      s.answers = [] ∧ (blankLine <:+: pieces.flatten → 0 < s.pending) := by
  -- on the pieces, the last one first
  induction pieces using List.reverseRecOn with
  | nil => exact ⟨_, Run.nil, rfl, rfl, rfl, rfl, fun h => absurd h (by decide)⟩
  | append_singleton pieces piece ih =>
    have hlen : pieces.flatten.length + piece.length ≤ maxRequestSize := by
      simpa using hfits
    obtain ⟨s, hrun, hopen, hin, hbuffer, hanswers, hpending⟩ :=
      ih (fun p hp => hne p (by simp [hp])) (by omega)
    have hpiece : piece ≠ [] := hne piece (by simp)
    have harrived : arrived [.received piece now] = some piece := by
      simp [arrived, hpiece]
    have hdelivers : Delivers [.received piece now] s.conn piece :=
      ⟨harrived, .inr (by rw [hbuffer]; exact hlen)⟩
    have hstep : (connSystem svc peer).step s (.read [.received piece now])
        (s.read [.received piece now]) := ConnState.step_read hopen hin _
    refine ⟨s.read [.received piece now], ?_, ?_⟩
    · rw [List.map_append]
      exact hrun.append (Run.single hstep)
    · have hcase := ConnState.step_cases hstep
      have hflat : (pieces ++ [piece]).flatten = s.conn.readBuffer ++ piece := by
        rw [List.flatten_append, List.flatten_singleton, hbuffer]
      generalize s.read [.received piece now] = s' at hcase
      rw [hflat]
      cases hcase with
      | readClosed _ _ _ _ hnone _ _ _ => exact absurd hdelivers (hnone piece)
      | readWaiting _ _ _ hdata hbuffer' hend =>
        obtain rfl := Option.some.inj (harrived.symm.trans hdata.1)
        exact ⟨hopen, hin, hbuffer', hanswers, fun h => absurd h hend⟩
      | readDispatched _ _ _ hdata hbuffer' _ =>
        obtain rfl := Option.some.inj (harrived.symm.trans hdata.1)
        exact ⟨hopen, hin, hbuffer', hanswers, fun _ => Nat.succ_pos _⟩

theorem readsOf_pieces (now : Time) (hne : ∀ piece ∈ pieces, piece ≠ []) :
    readsOf (pieces.map fun piece => (.read [.received piece now] : ConnLabel σ)) =
      pieces.map some := by
  unfold readsOf
  rw [List.filterMap_map]
  induction pieces with
  | nil => rfl
  | cons piece pieces ih =>
    have hpiece : piece ≠ [] := hne piece List.mem_cons_self
    have harrived : arrived [.received piece now] = some piece := by
      simp [arrived, hpiece]
    rw [List.filterMap_cons, ih fun p hp => hne p (List.mem_cons_of_mem _ hp)]
    simp only [Function.comp_apply, harrived, List.map_cons]

/-- A worker that runs too early answers a part of the request. -/
theorem not_answeredWhole (svc : Service σ) (peer : Bytes) (fd : Nat) (now : Time) (world : σ)
    (hnonempty : pieces ≠ []) (hne : ∀ piece ∈ pieces, piece ≠ [])
    (hfits : pieces.flatten.length ≤ maxRequestSize)
    (hcut : blankLine <:+: pieces.dropLast.flatten) :
    ¬ AnsweredWhole svc peer (ConnState.accepted fd now world) pieces := by
  intro hall
  have hsub : ∀ piece ∈ pieces.dropLast, piece ≠ [] :=
    fun p hp => hne p (List.mem_of_mem_dropLast hp)
  have hlen : pieces.dropLast.flatten.length ≤ maxRequestSize := by
    obtain ⟨last, hlast⟩ := List.dropLast_prefix pieces
    have hflat := congrArg (fun l => l.flatten.length) hlast
    simp only [List.flatten_append, List.length_append] at hflat
    omega
  obtain ⟨s, hrun, hopen, -, -, hanswers, hpending⟩ := run_reads svc peer fd now world hsub hlen
  -- the worker runs as soon as the header block has ended
  have hrun' := hrun.append (Run.single (ConnState.step_work (hpending hcut) fun _ => rfl))
  have hreads : readsOf (pieces.dropLast.map (fun piece => .read [.received piece now]) ++
      [ConnLabel.work (σ := σ) peer]) = pieces.dropLast.map some := by
    rw [readsOf_append, readsOf_pieces now hsub]
    exact List.append_nil _
  -- the last piece has not been read then
  have hproper : pieces.dropLast.map some ≠ pieces.map some := by
    intro heq
    have hlen := congrArg List.length heq
    have hpos := List.length_pos_iff.mpr hnonempty
    rw [List.length_map, List.length_map, List.length_dropLast] at hlen
    omega
  have hbad := hall _ _ hrun' ?_ ?_
  · rw [hreads] at hbad
    rcases hbad with ⟨hnone, -⟩ | ⟨heq, -⟩
    · have hone : (s.work svc peer).answers ≠ [] := by
        show s.answers ++ _ ≠ []
        simp
      exact hone hnone
    · exact hproper heq
  · intro label hlabel
    rcases List.mem_append.mp hlabel with hmem | hmem
    · obtain ⟨piece, -, rfl⟩ := List.mem_map.mp hmem
      rfl
    · obtain rfl := List.mem_singleton.mp hmem
      rfl
  · rw [hreads]
    exact (List.dropLast_prefix pieces).map some

/-- **A request in pieces** is answered as in a single read, in every schedule,
    if and only if the pieces before the last one do not contain the end of its
    header block. -/
theorem answeredWhole_iff (svc : Service σ) (peer : Bytes) (hsvc : svc.Functional peer)
    (fd : Nat) (now : Time) (world : σ) {pieces : List Bytes}
    (hne : ∀ piece ∈ pieces, piece ≠ []) (hw : IsRequest pieces.flatten)
    (hfits : pieces.flatten.length ≤ maxRequestSize) :
    AnsweredWhole svc peer (ConnState.accepted fd now world) pieces ↔
      ¬ blankLine <:+: pieces.dropLast.flatten := by
  have hnonempty : pieces ≠ [] := by
    rintro rfl
    exact hw.ne_nil rfl
  constructor
  · intro hall hcut
    exact not_answeredWhole svc peer fd now world hnonempty hne hfits hcut hall
  · intro hcut
    exact answeredWhole_of_cut hsvc hnonempty hw hfits hcut

theorem healthService_functional : healthService.Functional [] :=
  ⟨fun _ => rfl, fun _ _ _ => rfl, fun _ _ _ _ _ => rfl⟩

/-- A cut inside the terminator of the header block does no harm. -/
theorem answeredWhole_terminator :
    let pieces : List Bytes := [bytes "GET /a HTTP/1.1\r\n\r", bytes "\n"]
    AnsweredWhole healthService [] (ConnState.accepted 7 0 ()) pieces ↔
      ¬ blankLine <:+: pieces.dropLast.flatten :=
  answeredWhole_iff healthService [] healthService_functional 7 0 () (by decide +kernel)
    (by decide +kernel) (by decide +kernel)

/-- A cut between the header block and the body does. -/
theorem answeredWhole_body :
    let pieces : List Bytes := [bytes "POST /b HTTP/1.1\r\nContent-Length: 2\r\n\r\n", bytes "hi"]
    IsRequest pieces.flatten ∧ pieces.flatten.length ≤ maxRequestSize ∧
      ¬ AnsweredWhole healthService [] (ConnState.accepted 7 0 ()) pieces := by
  intro pieces
  refine ⟨by decide +kernel, by decide +kernel, ?_⟩
  exact not_answeredWhole healthService [] 7 0 () (List.cons_ne_nil _ _) (by decide +kernel)
    (by decide +kernel) (by decide +kernel)

end VeloxServe
