import VeloxServe.Modules.FairSelection
import VeloxServe.Modules.HealthChecks

/-! # What Probes Say About a Backend

    `check_health` looks for a reply that is no failure, and counts every other
    reply as alive too: only a probe that yields no bytes is a failed check. A
    backend is taken out of the rotation after three of those in a row, never
    because of what it answers, and any bytes bring it back.
-/

namespace VeloxServe

open StdString LexicalPath LTS

/-! ## Replies -/

/-- What a probe receives; nothing when the backend is not reached. -/
def probeReply (socket : ProbeSocket) (backend : Backend) : Bytes :=
  if socket.opened then
    match socket.inetPton (cString backend.host) with
    | none => []
    | some address =>
      if socket.connects address (htons backend.port) then socket.received.getD [] else []
  else []

/-- An HTTP response with this status, of three digits. -/
def HasStatus (reply status : Bytes) : Prop :=
  ∃ version rest, reply = bytes "HTTP/" ++ version ++ bytes " " ++ status ++ rest ∧
    (∀ b ∈ version, isDigit b = true ∨ b = 46) ∧
    status.length = 3 ∧ (∀ b ∈ status, isDigit b = true) ∧
    ∀ b ∈ rest.head?, isDigit b = false

/-- A response with an HTTP status between 500 and 509. -/
def Is50x (reply : Bytes) : Prop := ∃ status, HasStatus reply status ∧ bytes "50" <+: status

/-- A response with some other status. -/
def HasOtherStatus (reply : Bytes) : Prop :=
  ∃ status, HasStatus reply status ∧ ¬ bytes "50" <+: status

/-- No bytes or a 50x response. -/
def Fails (reply : Bytes) : Prop := reply = [] ∨ Is50x reply

theorem judgeReply_eq (received : Option Bytes) :
    judgeReply received = decide (received.getD [] ≠ []) := by
  cases received with
  | none => rfl
  | some data =>
    unfold judgeReply
    dsimp only
    split
    · next h => simp [h.1]
    · rfl

/-- **Any reply at all counts as alive.** -/
theorem checkHealth_eq (socket : ProbeSocket) (backend : Backend) :
    checkHealth socket backend = decide (probeReply socket backend ≠ []) := by
  unfold checkHealth probeReply socketAddress
  by_cases hopened : socket.opened = true
  · rw [hopened, if_pos rfl, Bool.true_and]
    cases socket.inetPton (cString backend.host) with
    | none => rfl
    | some address =>
      dsimp only
      by_cases hconnects : socket.connects address (htons backend.port) = true
      · simp [hconnects, judgeReply_eq]
      · simp [hconnects]
  · simp [hopened]

/-! ## Rounds and Calls -/

/-- A balancer with what the probes of each backend have yielded, latest first. -/
structure ProbedState where
  lb : LoadBalancer
  replies : Nat → List Bytes := fun _ => []

inductive ProbedLabel where
  /-- A round of `health_check_loop`. -/
  | round (sockets : Nat → ProbeSocket)
  | getNext

namespace ProbedState

def apply (s : ProbedState) : ProbedLabel → ProbedState
  | .round sockets =>
    { lb := s.lb.healthCheckRound sockets
      replies := fun i =>
        match s.lb.backends[i]? with
        | none => s.replies i
        | some backend => probeReply (sockets i) backend :: s.replies i }
  | .getNext => { s with lb := s.lb.getNext.2 }

end ProbedState

/-- The balancers of a server under health checks and calls of `get_next`, in any order. -/
def probedSystem : System ProbedState ProbedLabel :=
  System.ofStep (fun s => ∃ servers, s = { lb := LoadBalancer.create servers })
    fun s label => some (s.apply label)

namespace ProbedState

/-! ## The Property -/

/-- The last three probes each yielded one of these. -/
def LastThree (p : Bytes → Prop) (replies : List Bytes) : Prop :=
  3 ≤ replies.length ∧ ∀ reply ∈ replies.take 3, p reply

/-- However often `get_next` is called, it does not return the backend. -/
def Skips (lb : LoadBalancer) (i : Nat) : Prop :=
  ∀ calls, some i ∉ LoadBalancer.selections lb (List.replicate calls .getNext)

/-- Three probes in a row have failed, and no later one has yielded a response with
    another status. -/
def Failing (replies : List Bytes) : Prop :=
  ∃ later earlier, replies = later ++ earlier ∧ LastThree Fails earlier ∧
    ∀ reply ∈ later, ¬ HasOtherStatus reply

/-- A failing backend is not returned before the next round. -/
def SkipsFailing (s : ProbedState) : Prop := ∀ i, Failing (s.replies i) → Skips s.lb i

/-- A failing backend has yielded no bytes in the last three probes. -/
def FailsSilently (s : ProbedState) : Prop :=
  ∀ i, Failing (s.replies i) → LastThree (· = []) (s.replies i)

/-! ## The Invariant -/

/-- The probes without a reply since the last one with. -/
def silent (replies : List Bytes) : Nat := (replies.takeWhile (· = [])).length

theorem lastThree_nil_iff (replies : List Bytes) :
    LastThree (· = []) replies ↔ 3 ≤ silent replies := by
  unfold LastThree silent
  rcases replies with _ | ⟨a, _ | ⟨b, _ | ⟨c, rest⟩⟩⟩
  · simp
  · by_cases ha : a = [] <;> simp [ha]
  · by_cases ha : a = [] <;> by_cases hb : b = [] <;> simp [ha, hb]
  · by_cases ha : a = [] <;> by_cases hb : b = [] <;> by_cases hc : c = [] <;> simp [ha, hb, hc]

/-- The flag and the counter of a backend, by its replies. -/
structure Heard (replies : List Bytes) (backend : Backend) : Prop where
  alive_iff : backend.isAlive = true ↔ silent replies < 3
  failed : silent replies < 3 → backend.failedChecks = BitVec.ofNat 32 (silent replies)

theorem silent_nil (replies : List Bytes) : silent ([] :: replies) = silent replies + 1 := by
  simp [silent]

theorem silent_reply {reply : Bytes} (h : reply ≠ []) (replies : List Bytes) :
    silent (reply :: replies) = 0 := by
  simp [silent, h]

theorem heard_reply {reply : Bytes} (hreply : reply ≠ []) (replies : List Bytes)
    (backend : Backend) : Heard (reply :: replies) (backend.recordCheck true) := by
  obtain ⟨halive, hfailed⟩ := LoadBalancer.recordCheck_true backend
  refine ⟨?_, fun _ => ?_⟩
  · rw [halive, silent_reply hreply]
    decide
  · rw [hfailed, silent_reply hreply]
    rfl

/-- The third silent probe takes a backend out of the rotation. -/
theorem Heard.silence {replies : List Bytes} {backend : Backend} (h : Heard replies backend) :
    Heard ([] :: replies) (backend.recordCheck false) := by
  rw [LoadBalancer.recordCheck_false]
  by_cases hlow : silent replies < 3
  · have hcount : backend.failedChecks + 1 = BitVec.ofNat 32 (silent replies + 1) := by
      rw [h.failed hlow, BitVec.ofNat_add]
      rfl
    have hint : (BitVec.ofNat 32 (silent replies + 1)).toInt = (silent replies + 1 : Nat) := by
      obtain hs | hs | hs : silent replies = 0 ∨ silent replies = 1 ∨ silent replies = 2 := by omega
      · rw [hs]
        rfl
      · rw [hs]
        rfl
      · rw [hs]
        rfl
    refine ⟨?_, fun _ => ?_⟩
    · show (backend.isAlive && !decide (3 ≤ (backend.failedChecks + 1).toInt)) = true ↔ _
      rw [h.alive_iff.mpr hlow, hcount, hint, silent_nil]
      simp
      omega
    · rw [silent_nil]
      exact hcount
  · have hdead : backend.isAlive = false := by
      have hnot := mt h.alive_iff.mp hlow
      simpa using hnot
    refine ⟨?_, fun hfew => ?_⟩
    · rw [silent_nil, hdead]
      simp
      omega
    · rw [silent_nil] at hfew
      omega

/-- All backends have the flag and the counter their replies give them. -/
def AllHeard (s : ProbedState) : Prop :=
  ∀ i, match s.lb.backends[i]? with
    | none => s.replies i = []
    | some backend => Heard (s.replies i) backend

theorem allHeard_create (servers : List (Bytes × Int)) :
    AllHeard { lb := LoadBalancer.create servers } := by
  intro i
  split
  · rfl
  · next backend hget =>
    obtain ⟨host, port, rfl⟩ := LoadBalancer.mem_create (List.mem_of_getElem? hget)
    exact ⟨by simp [silent], fun _ => rfl⟩

/-- **Step lemma**: a probe adds its reply, a call changes no flag. -/
theorem AllHeard.step {s : ProbedState} (h : s.AllHeard) (label : ProbedLabel) :
    (s.apply label).AllHeard := by
  intro i
  have hi := h i
  cases label with
  | round sockets =>
    show match (s.lb.healthCheckRound sockets).backends[i]? with
      | none => _
      | some backend => _
    unfold LoadBalancer.healthCheckRound apply
    dsimp only
    rw [List.getElem?_mapIdx]
    cases hget : s.lb.backends[i]? with
    | none =>
      rw [hget] at hi
      exact hi
    | some backend =>
      rw [hget] at hi
      show Heard (probeReply (sockets i) backend :: s.replies i)
        (backend.recordCheck (checkHealth (sockets i) backend))
      rw [checkHealth_eq]
      by_cases hnil : probeReply (sockets i) backend = []
      · rw [hnil]
        exact hi.silence
      · rw [decide_eq_true hnil]
        exact heard_reply hnil _ _
  | getNext =>
    show match s.lb.getNext.2.backends[i]? with
      | none => s.replies i = []
      | some backend => Heard (s.replies i) backend
    cases hget : s.lb.getNext.2.backends[i]? with
    | none =>
      have hlen : s.lb.getNext.2.backends.length = s.lb.backends.length :=
        s.lb.getNext_facts.length_eq
      rw [List.getElem?_eq_none_iff, hlen, ← List.getElem?_eq_none_iff] at hget
      rw [hget] at hi
      exact hi
    | some backend =>
      obtain ⟨b, hb, hsame⟩ := LoadBalancer.getNext_backends hget
      rw [hb] at hi
      have hflags : backend.isAlive = b.isAlive ∧ backend.failedChecks = b.failedChecks := by
        rcases hsame with rfl | rfl
        · exact ⟨rfl, rfl⟩
        · exact ⟨rfl, rfl⟩
      exact ⟨by rw [hflags.1]; exact hi.alive_iff, by rw [hflags.2]; exact hi.failed⟩

theorem allHeard_of_reachable {s : ProbedState} (h : Reachable probedSystem s) : s.AllHeard := by
  refine h.invariant (fun s₀ h₀ => ?_) fun s label s' hs hstep => ?_
  · obtain ⟨servers, rfl⟩ := h₀
    exact allHeard_create servers
  · obtain rfl := Option.some.inj hstep
    exact hs.step label

/-! ## In and Out of the Rotation -/

theorem keepsAlive_replicate (calls : Nat) :
    ∀ op ∈ List.replicate calls LoadBalancer.Operation.getNext, op.KeepsAlive := by
  intro op hop
  rw [List.eq_of_mem_replicate hop]
  trivial

/-- A backend that is not alive is skipped. -/
theorem skips_of_dead {lb : LoadBalancer} {i : Nat} (h : lb.aliveAt i = false) : Skips lb i := by
  intro calls hmem
  rw [← List.reduceOption_mem_iff, LoadBalancer.selections_reduceOption (keepsAlive_replicate calls)]
    at hmem
  rw [(List.mem_filter.mp hmem).2] at h
  cases h

/-- Each call tries at least one position. -/
theorem le_tries {lb : LoadBalancer} (hne : lb.backends ≠ []) (calls : Nat) :
    calls ≤ LoadBalancer.tries lb (List.replicate calls .getNext) := by
  induction calls generalizing lb with
  | zero => exact Nat.zero_le _
  | succ calls ih =>
    have hrest := ih (LoadBalancer.ne_nil_of_map lb.getNext_facts.alive hne)
    have hone : 1 ≤ lb.tried .getNext := by
      show 1 ≤ LoadBalancer.triesLoop lb.backends.length lb
      obtain ⟨left, hleft⟩ := Nat.exists_eq_succ_of_ne_zero (List.length_pos_of_ne_nil hne).ne'
      rw [hleft, LoadBalancer.triesLoop_succ left
        (List.getElem?_eq_getElem (LoadBalancer.positionAfter_lt hne 0))]
      split <;> omega
    rw [List.replicate_succ]
    show calls + 1 ≤ lb.tried .getNext +
      LoadBalancer.tries (lb.apply .getNext) (List.replicate calls .getNext)
    omega

/-- A backend that is alive is returned after some calls, when its position is a
    value of the counter. -/
theorem not_skips_of_alive {lb : LoadBalancer} {i : Nat} (h : lb.aliveAt i = true)
    (hlen : lb.backends.length ≤ 2 ^ 31) : ¬ Skips lb i := by
  intro hskips
  have hlt : i < lb.backends.length := by
    by_contra hge
    unfold LoadBalancer.aliveAt at h
    rw [List.getElem?_eq_none (by omega)] at h
    cases h
  have hne : lb.backends ≠ [] := List.ne_nil_of_length_pos (by omega)
  -- after some tries the counter is at the position itself
  obtain ⟨k, -, hk⟩ := LoadBalancer.exists_add_mod_eq (show i < 2 ^ 32 by omega) lb.currentIndex.toNat
  have hpos : lb.positionAfter k = i := by
    unfold LoadBalancer.positionAfter LoadBalancer.indexAfter
    dsimp only
    rw [hk, if_pos (by omega), Nat.mod_eq_of_lt hlt]
  have htries := le_tries hne (k + 1)
  apply hskips (k + 1)
  rw [← List.reduceOption_mem_iff,
    LoadBalancer.selections_reduceOption (keepsAlive_replicate (k + 1)), List.mem_filter]
  exact ⟨List.mem_map.mpr ⟨k, List.mem_range.mpr (by omega), hpos⟩, h⟩

end ProbedState

open ProbedState

/-- **Failing backends are skipped exactly when they fail silently**: in a reachable
    state, the backends that have failed three probes in a row, and have not yielded a
    response with another status since, stay out of the rotation if their last three
    probes have yielded no bytes, and only then. -/
theorem skipsFailing_iff {s : ProbedState} (h : Reachable probedSystem s) :
    (s.FailsSilently → s.SkipsFailing) ∧
      (s.lb.backends.length ≤ 2 ^ 31 → s.SkipsFailing → s.FailsSilently) := by
  have hheard := allHeard_of_reachable h
  constructor
  · intro hsilent i hfails
    have hthree := (lastThree_nil_iff _).mp (hsilent i hfails)
    have hi := hheard i
    apply skips_of_dead
    unfold LoadBalancer.aliveAt
    cases hget : s.lb.backends[i]? with
    | none => rfl
    | some backend =>
      rw [hget] at hi
      have hdead : ¬ backend.isAlive = true := fun halive => by
        have := hi.alive_iff.mp halive
        omega
      simpa using hdead
  · intro hlen hskips i hfails
    have hi := hheard i
    rw [lastThree_nil_iff]
    by_contra hfew
    cases hget : s.lb.backends[i]? with
    | none =>
      rw [hget] at hi
      rw [hi] at hfails
      obtain ⟨later, earlier, hsplit, hthree, -⟩ := hfails
      obtain ⟨-, rfl⟩ := List.append_eq_nil_iff.mp hsplit.symm
      exact absurd hthree.1 (by simp)
    | some backend =>
      rw [hget] at hi
      have halive : s.lb.aliveAt i = true := by
        unfold LoadBalancer.aliveAt
        rw [hget]
        exact hi.alive_iff.mpr (by omega)
      exact not_skips_of_alive halive hlen (hskips i hfails)

/-- A socket on which every connection yields these bytes. -/
def answering (reply : Bytes) : ProbeSocket where
  opened := true
  inetPton _ := some 0
  connects _ _ := true
  received := if reply = [] then none else some reply

/-- One backend after three rounds with the same reply. -/
def threeRounds (reply : Bytes) : ProbedState :=
  (((({ lb := LoadBalancer.create [(bytes "127.0.0.1", 3001)] } : ProbedState).apply
    (.round fun _ => answering reply)).apply (.round fun _ => answering reply)).apply
    (.round fun _ => answering reply))

theorem threeRounds_reachable (reply : Bytes) : Reachable probedSystem (threeRounds reply) :=
  ⟨_, _, ⟨_, rfl⟩, ((Run.single rfl).snoc _ rfl).snoc _ rfl⟩

theorem skipsFailing_silent :
    ((threeRounds []).FailsSilently → (threeRounds []).SkipsFailing) ∧
      ((threeRounds []).lb.backends.length ≤ 2 ^ 31 →
        (threeRounds []).SkipsFailing → (threeRounds []).FailsSilently) :=
  skipsFailing_iff (threeRounds_reachable [])

def unavailable : Bytes := bytes "HTTP/1.1 503 Service Unavailable\r\n\r\n"

theorem is50x_unavailable : Is50x unavailable := by
  refine ⟨bytes "503", ⟨bytes "1.1", bytes " Service Unavailable\r\n\r\n", ?_⟩, ?_⟩ <;> decide +kernel

/-- A backend that answers every probe with 503 is still returned. -/
theorem not_skipsFailing_unavailable :
    ¬ ∀ s : ProbedState, Reachable probedSystem s → s.SkipsFailing := by
  intro h
  have hskips := h _ (threeRounds_reachable unavailable) 0
  have hreplies : (threeRounds unavailable).replies 0 = List.replicate 3 unavailable := by
    decide +kernel
  rw [hreplies] at hskips
  refine hskips ⟨[], List.replicate 3 unavailable, rfl, ⟨Nat.le_refl 3, fun reply hreply => ?_⟩,
    List.forall_mem_nil _⟩ 1 (by decide +kernel)
  rw [List.take_replicate] at hreply
  rw [List.eq_of_mem_replicate hreply]
  exact .inr is50x_unavailable

/-- A backend that has failed three times comes back with any byte. -/
example : ((threeRounds []).apply (.round fun _ => answering (bytes "x"))).lb.getNext.1.isSome = true := by
  decide +kernel

end VeloxServe
