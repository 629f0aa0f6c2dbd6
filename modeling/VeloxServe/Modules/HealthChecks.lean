import VeloxServe.Modules.ProxyHandler
import VeloxServe.Modules.RoundRobin

/-! # Health Checks

    `check_health` and the rounds of `health_check_loop` in
    `src/modules/load_balancer.cpp`. The alive flag is set by three branches of
    the loop and by `mark_down`, which leaves the failure counter alone; both
    follow from the history of a backend since its last successful check.
-/

namespace VeloxServe

open StdString LexicalPath

/-! ## One Check -/

/-- What the socket calls of one check return. -/
structure ProbeSocket where
  /-- `socket` gives a descriptor. -/
  opened : Bool
  /-- `inet_pton` on a C string: an IPv4 address. -/
  inetPton : Bytes → Option (BitVec 32)
  /-- `connect` to an address and port. -/
  connects : BitVec 32 → BitVec 16 → Bool
  /-- The result of `recv`; `none` for an error or a timeout. -/
  received : Option Bytes

/-- The result of `check_health` once there is something received, or not. -/
def judgeReply : Option Bytes → Bool
  | none => false
  | some data =>
    let resp := cString data
    if data ≠ [] ∧ find (bytes "HTTP/1.") resp ≠ none ∧ find (bytes "502") resp = none then true
    else data ≠ []

def checkHealth (socket : ProbeSocket) (backend : Backend) : Bool :=
  socket.opened &&
    (socketAddress socket.inetPton backend.host backend.port).any fun addr =>
      socket.connects addr.1 addr.2 && judgeReply socket.received

namespace LoadBalancer

/-- The loop over the backends in `health_check_loop`. -/
def healthCheckRound (sockets : Nat → ProbeSocket) (lb : LoadBalancer) : LoadBalancer :=
  { lb with
    backends := lb.backends.mapIdx fun i backend =>
      backend.recordCheck (checkHealth (sockets i) backend) }

/-- The checks a round is made of. -/
def roundChecks (sockets : Nat → ProbeSocket) (lb : LoadBalancer) : List Operation :=
  lb.backends.mapIdx fun i backend => .check i (checkHealth (sockets i) backend)

/-- A round whose first `k` checks are done. -/
def partialRound (sockets : Nat → ProbeSocket) (lb : LoadBalancer) (k : Nat) : LoadBalancer :=
  { lb with
    backends := lb.backends.mapIdx fun i backend =>
      if i < k then backend.recordCheck (checkHealth (sockets i) backend) else backend }

theorem partialRound_succ (sockets : Nat → ProbeSocket) (lb : LoadBalancer) {k : Nat}
    {backend : Backend} (h : lb.backends[k]? = some backend) :
    partialRound sockets lb (k + 1) =
      (partialRound sockets lb k).check k (checkHealth (sockets k) backend) := by
  unfold partialRound check update
  congr 1
  refine List.ext_getElem? fun i => ?_
  rw [List.getElem?_modify, List.getElem?_mapIdx, List.getElem?_mapIdx]
  obtain hlt | rfl | hgt := Nat.lt_trichotomy i k
  · cases lb.backends[i]? with
    | none => rfl
    | some b => simp [hlt, Nat.lt_succ_of_lt hlt, Nat.ne_of_gt hlt]
  · simp [h]
  · have hnlt : ¬ i < k + 1 := by omega
    have hnlt' : ¬ i < k := by omega
    cases lb.backends[i]? with
    | none => rfl
    | some b => simp [hnlt, hnlt', Nat.ne_of_lt hgt]

/-- A round is a run of its checks, with nothing between them. -/
theorem healthCheckRound_run (sockets : Nat → ProbeSocket) (lb : LoadBalancer) :
    LTS.Run system lb (roundChecks sockets lb) (lb.healthCheckRound sockets) := by
  have hrun : ∀ k ≤ lb.backends.length,
      LTS.Run system lb ((roundChecks sockets lb).take k) (partialRound sockets lb k) := by
    intro k hk
    induction k with
    | zero =>
      have hsame : partialRound sockets lb 0 = lb := by
        have hid : lb.backends.mapIdx (fun _ backend => backend) = lb.backends :=
          List.ext_getElem? fun i => by simp
        simp [partialRound, hid]
      rw [hsame, List.take_zero]
      exact LTS.Run.nil
    | succ k ih =>
      have hget : lb.backends[k]? = some lb.backends[k] := List.getElem?_eq_getElem hk
      have hcheck : (roundChecks sockets lb)[k]? =
          some (.check k (checkHealth (sockets k) lb.backends[k])) := by
        simp [roundChecks, hget]
      rw [List.take_add_one, hcheck, partialRound_succ sockets lb hget]
      exact (ih (by omega)).snoc _ (system_step _ (.check k _))
  have hlast : partialRound sockets lb lb.backends.length = lb.healthCheckRound sockets := by
    unfold partialRound healthCheckRound
    congr 1
    refine List.ext_getElem? fun i => ?_
    rw [List.getElem?_mapIdx, List.getElem?_mapIdx]
    cases hi : lb.backends[i]? with
    | none => rfl
    | some b =>
      obtain ⟨hlt, -⟩ := List.getElem?_eq_some_iff.mp hi
      simp [hlt]
  have hall : (roundChecks sockets lb).take lb.backends.length = roundChecks sockets lb := by
    rw [List.take_of_length_le (by simp [roundChecks])]
  have hwhole := hrun lb.backends.length le_rfl
  rwa [hlast, hall] at hwhole

/-! ## The History of a Backend -/

/-- What happened since the last successful check of a backend, or since start-up. -/
def sinceSuccess (i : Nat) (ops : List Operation) : List Operation :=
  LTS.since (fun op => op = .check i true) ops

/-- The checks of a backend that failed since its last successful one. -/
def failures (i : Nat) (ops : List Operation) : Nat :=
  (sinceSuccess i ops).count (.check i false)

/-- No failure was reported and fewer than three checks failed. -/
def InService (i : Nat) (ops : List Operation) : Prop :=
  .markDown i ∉ sinceSuccess i ops ∧ failures i ops < 3

/-- The results of the checks of a backend, in order. -/
def outcomes (i : Nat) (ops : List Operation) : List Bool :=
  ops.filterMap fun
    | .check j alive => if j = i then some alive else none
    | _ => none

section

variable {i : Nat} {ops : List Operation} {op : Operation}

theorem sinceSuccess_snoc (hne : op ≠ .check i true) :
    sinceSuccess i (ops ++ [op]) = op :: sinceSuccess i ops := by
  unfold sinceSuccess
  rw [LTS.since_snoc, if_neg (by simpa using hne)]

theorem sinceSuccess_success : sinceSuccess i (ops ++ [.check i true]) = [] := by
  unfold sinceSuccess
  rw [LTS.since_snoc, if_pos (by simp)]

theorem failures_success : failures i (ops ++ [.check i true]) = 0 := by
  unfold failures
  rw [sinceSuccess_success]
  rfl

theorem inService_success : InService i (ops ++ [.check i true]) := by
  unfold InService
  rw [sinceSuccess_success, failures_success]
  exact ⟨List.not_mem_nil, by omega⟩

theorem failures_failure : failures i (ops ++ [.check i false]) = failures i ops + 1 := by
  unfold failures
  rw [sinceSuccess_snoc (by simp), List.count_cons_self]

/-- A failed check keeps a backend in service while it is not the third. -/
theorem inService_failure :
    InService i (ops ++ [.check i false]) ↔ InService i ops ∧ failures i ops + 1 < 3 := by
  unfold InService
  rw [failures_failure, sinceSuccess_snoc (by simp), List.mem_cons]
  constructor
  · intro h
    obtain ⟨hmark, hfew⟩ := h
    exact ⟨⟨fun hmem => hmark (Or.inr hmem), by omega⟩, hfew⟩
  · intro h
    obtain ⟨⟨hmark, -⟩, hfew⟩ := h
    refine ⟨fun hmem => ?_, hfew⟩
    cases hmem with
    | inl heq => cases heq
    | inr hmem => exact hmark hmem

/-- `mark_down` leaves the failures alone. -/
theorem failures_markDown : failures i (ops ++ [.markDown i]) = failures i ops := by
  unfold failures
  rw [sinceSuccess_snoc (by simp), List.count_cons_of_ne (by simp)]

theorem not_inService_markDown : ¬ InService i (ops ++ [.markDown i]) := by
  intro h
  refine h.1 ?_
  rw [sinceSuccess_snoc (by simp)]
  exact List.mem_cons_self

/-- The operations that say something about backend `i`. -/
def Concerns (i : Nat) (op : Operation) : Prop :=
  op = .markDown i ∨ op = .check i true ∨ op = .check i false

theorem failures_other (h : ¬ Concerns i op) : failures i (ops ++ [op]) = failures i ops := by
  have hup : op ≠ .check i true := fun heq => h (Or.inr (Or.inl heq))
  have hfail : op ≠ .check i false := fun heq => h (Or.inr (Or.inr heq))
  unfold failures
  rw [sinceSuccess_snoc hup, List.count_cons_of_ne hfail]

theorem inService_other (h : ¬ Concerns i op) :
    InService i (ops ++ [op]) ↔ InService i ops := by
  have hup : op ≠ .check i true := fun heq => h (Or.inr (Or.inl heq))
  have hmark : .markDown i ≠ op := fun heq => h (Or.inl heq.symm)
  unfold InService
  rw [failures_other h, sinceSuccess_snoc hup, List.mem_cons]
  simp [hmark]

end

theorem outcomes_snoc (i : Nat) (ops : List Operation) (op : Operation) :
    outcomes i (ops ++ [op]) = outcomes i ops ++ outcomes i [op] :=
  List.filterMap_append

/-- The failures are the last results in a row that are failures. -/
theorem failures_eq (i : Nat) (ops : List Operation) :
    failures i ops = ((outcomes i ops).reverse.takeWhile (!·)).length := by
  induction ops using List.reverseRecOn with
  | nil => rfl
  | append_singleton ops op ih =>
    rw [outcomes_snoc, List.reverse_append]
    by_cases hup : op = .check i true
    · rw [hup, failures_success]
      simp [outcomes]
    by_cases hfail : op = .check i false
    · rw [hfail, failures_failure, ih]
      simp [outcomes]
    · have hnone : outcomes i [op] = [] := by
        cases op with
        | check j alive =>
          have hij : j ≠ i := by
            intro heq
            subst heq
            cases alive with
            | true => exact hup rfl
            | false => exact hfail rfl
          simp [outcomes, hij]
        | _ => rfl
      have hsame : failures i (ops ++ [op]) = failures i ops := by
        unfold failures
        rw [sinceSuccess_snoc hup, List.count_cons_of_ne hfail]
      rw [hnone, hsame, ih]
      rfl

/-- Three failures in a row at the end count. -/
theorem three_le_failures {i : Nat} {ops : List Operation}
    (h : [false, false, false] <:+ outcomes i ops) : 3 ≤ failures i ops := by
  obtain ⟨before, hbefore⟩ := h
  rw [failures_eq, ← hbefore]
  simp

/-! ## The Alive Flag -/

/-- A backend with the flag and the counter its history gives it. -/
structure Vital (i : Nat) (ops : List Operation) (backend : Backend) : Prop where
  alive_iff : backend.isAlive = true ↔ InService i ops
  failed : backend.failedChecks = BitVec.ofNat 32 (failures i ops)

section

variable {i : Nat} {ops : List Operation} {backend : Backend}

theorem Vital.other (h : Vital i ops backend) {op : Operation} (hop : ¬ Concerns i op)
    {backend' : Backend} (halive : backend'.isAlive = backend.isAlive)
    (hfailed : backend'.failedChecks = backend.failedChecks) : Vital i (ops ++ [op]) backend' where
  alive_iff := by rw [halive, inService_other hop, h.alive_iff]
  failed := by rw [hfailed, failures_other hop, h.failed]

theorem Vital.markDown (h : Vital i ops backend) :
    Vital i (ops ++ [.markDown i]) { backend with isAlive := false } where
  alive_iff := by simp [not_inService_markDown]
  failed := by rw [failures_markDown, ← h.failed]

theorem recordCheck_true (backend : Backend) :
    (backend.recordCheck true).isAlive = true ∧ (backend.recordCheck true).failedChecks = 0 := by
  unfold Backend.recordCheck
  cases backend.isAlive <;> simp

/-- A successful check brings a backend back, whatever happened before. -/
theorem vital_success : Vital i (ops ++ [.check i true]) (backend.recordCheck true) where
  alive_iff := by simp [recordCheck_true, inService_success]
  failed := by
    rw [(recordCheck_true backend).2, failures_success]
    rfl

theorem recordCheck_false (backend : Backend) :
    backend.recordCheck false =
      { backend with
        failedChecks := backend.failedChecks + 1
        isAlive := backend.isAlive && !decide (3 ≤ (backend.failedChecks + 1).toInt) } := by
  unfold Backend.recordCheck
  dsimp only
  generalize backend.failedChecks + 1 = count
  by_cases hthree : 3 ≤ count.toInt
  · cases backend.isAlive <;> simp [hthree]
  · cases backend.isAlive <;> simp [hthree]

/-- A failed check takes a backend out of service when it is the third in a row. -/
theorem Vital.failure (h : Vital i ops backend)
    (hfew : failures i (ops ++ [.check i false]) < 2 ^ 31) :
    Vital i (ops ++ [.check i false]) (backend.recordCheck false) := by
  rw [failures_failure] at hfew
  have hcount : backend.failedChecks + 1 = BitVec.ofNat 32 (failures i ops + 1) := by
    rw [h.failed, BitVec.ofNat_add]
    rfl
  have hint : (BitVec.ofNat 32 (failures i ops + 1)).toInt = (failures i ops + 1 : Nat) := by
    rw [BitVec.toInt_eq_toNat_of_lt]
    · rw [BitVec.toNat_ofNat, Nat.mod_eq_of_lt (by omega)]
    · rw [BitVec.toNat_ofNat, Nat.mod_eq_of_lt (by omega)]
      omega
  rw [recordCheck_false]
  constructor
  · show (backend.isAlive && !decide (3 ≤ (backend.failedChecks + 1).toInt)) = true ↔ _
    rw [inService_failure, ← h.alive_iff, hcount, hint]
    simp
    omega
  · rw [failures_failure]
    exact hcount

end

/-- Every backend has the flag and the counter its history gives it. -/
def AllVital (ops : List Operation) (lb : LoadBalancer) : Prop :=
  ∀ i backend, lb.backends[i]? = some backend → Vital i ops backend

theorem getElem?_update {lb : LoadBalancer} {i j : Nat} {f : Backend → Backend} {b : Backend}
    (h : (lb.update i f).backends[j]? = some b) :
    ∃ b₀, lb.backends[j]? = some b₀ ∧ b = if i = j then f b₀ else b₀ := by
  unfold update at h
  dsimp only at h
  rw [List.getElem?_modify] at h
  obtain ⟨b₀, hb₀, rfl⟩ := Option.map_eq_some_iff.mp h
  refine ⟨b₀, hb₀, ?_⟩
  by_cases hij : i = j <;> simp [hij]

/-- A call of `get_next` changes the counters of one backend at most. -/
theorem getNext_backends {lb : LoadBalancer} {i : Nat} {b : Backend}
    (h : lb.getNext.2.backends[i]? = some b) :
    ∃ b₀, lb.backends[i]? = some b₀ ∧ (b = b₀ ∨ b = b₀.taken) := by
  have hscan := lb.getNext_scan
  generalize lb.getNext = result at h hscan
  cases hscan with
  | found k backend tried passed here alive =>
    obtain ⟨b₀, hb₀, heq⟩ := getElem?_update h
    refine ⟨b₀, hb₀, ?_⟩
    rw [heq]
    split
    · exact Or.inr rfl
    · exact Or.inl rfl
  | exhausted passed => exact ⟨b, h, Or.inl rfl⟩

/-- One operation. -/
theorem AllVital.step {ops : List Operation} {lb : LoadBalancer} (h : AllVital ops lb)
    (op : Operation) (hfew : ∀ i, failures i (ops ++ [op]) < 2 ^ 31) :
    AllVital (ops ++ [op]) (lb.apply op) := by
  intro i b hb
  cases op with
  | getNext =>
    obtain ⟨b₀, hb₀, hsame | htaken⟩ := getNext_backends hb
    · rw [hsame]
      exact (h i b₀ hb₀).other (by simp [Concerns]) rfl rfl
    · rw [htaken]
      exact (h i b₀ hb₀).other (by simp [Concerns]) rfl rfl
  | release j =>
    obtain ⟨b₀, hb₀, rfl⟩ := getElem?_update hb
    refine (h i b₀ hb₀).other (by simp [Concerns]) ?_ ?_
    · split <;> rfl
    · split <;> rfl
  | markDown j =>
    obtain ⟨b₀, hb₀, rfl⟩ := getElem?_update hb
    by_cases hij : j = i
    · subst hij
      rw [if_pos rfl]
      exact (h j b₀ hb₀).markDown
    · rw [if_neg hij]
      exact (h i b₀ hb₀).other (by simp [Concerns, hij]) rfl rfl
  | check j alive =>
    obtain ⟨b₀, hb₀, rfl⟩ := getElem?_update hb
    by_cases hij : j = i
    · subst hij
      rw [if_pos rfl]
      cases alive with
      | true => exact vital_success
      | false => exact (h j b₀ hb₀).failure (hfew j)
    · rw [if_neg hij]
      exact (h i b₀ hb₀).other (by simp [Concerns, hij]) rfl rfl

theorem allVital_create (servers : List (Bytes × Int)) : AllVital [] (create servers) := by
  intro i b hb
  obtain ⟨host, port, rfl⟩ := mem_create (List.mem_of_getElem? hb)
  exact ⟨by simp [InService, sinceSuccess, failures], rfl⟩

/-- What the checks are for: the flag of a backend tells its history, and `get_next`
    stops at the first try that is in service. -/
structure FollowsHealth (ops : List Operation) (lb : LoadBalancer) : Prop where
  alive_iff : ∀ i backend, lb.backends[i]? = some backend →
    (backend.isAlive = true ↔ InService i ops)
  selected : ∀ i backend, lb.getNext.1 = some (i, backend) →
    ¬ [false, false, false] <:+ outcomes i ops ∧ .markDown i ∉ sinceSuccess i ops
  notSkipped : ∀ k < lb.backends.length, InService (lb.positionAfter k) ops →
    ∃ j ≤ k, ∃ backend, lb.getNext.1 = some (lb.positionAfter j, backend)

/-- `get_next` stops at the latest where a backend is alive. -/
theorem exists_getNext_le {lb : LoadBalancer} {k : Nat} {b : Backend}
    (hk : k < lb.backends.length) (hb : lb.backends[lb.positionAfter k]? = some b)
    (halive : b.isAlive = true) :
    ∃ j ≤ k, ∃ backend, lb.getNext.1 = some (lb.positionAfter j, backend) := by
  have hscan := lb.getNext_scan
  generalize lb.getNext = result at hscan ⊢
  cases hscan with
  | found j backend tried passed here alive =>
    refine ⟨j, ?_, backend, rfl⟩
    by_contra hlt
    exact passed.not_alive (by omega) hb halive
  | exhausted passed => exact absurd halive (passed.not_alive hk hb)

theorem AllVital.followsHealth {ops : List Operation} {lb : LoadBalancer}
    (h : AllVital ops lb) : FollowsHealth ops lb where
  alive_iff := fun i backend hget => (h i backend hget).alive_iff
  selected := by
    intro i backend hnext
    obtain ⟨hget, halive, -⟩ := lb.getNext_chosen i backend hnext
    obtain ⟨hmark, hfew⟩ := (h i backend hget).alive_iff.mp halive
    refine ⟨fun hthree => ?_, hmark⟩
    have := three_le_failures hthree
    omega
  notSkipped := by
    intro k hk hservice
    have hne : lb.backends ≠ [] := List.ne_nil_of_length_pos (by omega)
    have hget := List.getElem?_eq_getElem (positionAfter_lt hne k)
    exact exists_getNext_le hk hget ((h _ _ hget).alive_iff.mpr hservice)

/-- **In every run the alive flags follow the checks and the reported failures.** -/
theorem followsHealth_of_run {lb₀ lb : LoadBalancer} {ops : List Operation}
    (hinit : system.init lb₀) (hrun : LTS.Run system lb₀ ops lb)
    (hfew : ∀ past, past <+: ops → ∀ i, failures i past < 2 ^ 31) : FollowsHealth ops lb := by
  obtain ⟨servers, rfl⟩ := hinit
  have hstep : ∀ ls s op s', (∀ i, failures i (ls ++ [op]) < 2 ^ 31) → AllVital ls s →
      system.step s op s' → AllVital (ls ++ [op]) s' := by
    intro ls s op s' hok hvital hs
    obtain rfl := Option.some.inj hs
    exact hvital.step op hok
  exact (hrun.history hstep (allVital_create servers) hfew).followsHealth

theorem failures_le_length (i : Nat) (ops : List Operation) : failures i ops ≤ ops.length := by
  have hcount : failures i ops ≤ (sinceSuccess i ops).length := List.count_le_length
  have hlen : (sinceSuccess i ops).length ≤ ops.reverse.length :=
    (List.takeWhile_sublist _).length_le
  rw [List.length_reverse] at hlen
  omega

/-- A backend that fails three times and one that is reported and recovers. -/
def outage : List Operation :=
  [.getNext, .check 0 false, .markDown 1, .check 0 false, .check 1 true, .release 0,
    .check 0 false, .getNext]

theorem followsHealth_outage : FollowsHealth outage (outage.foldl apply threeBackends) := by
  refine followsHealth_of_run ⟨_, rfl⟩ (LTS.Run.of_replay rfl) fun past hpast i => ?_
  have hcount := failures_le_length i past
  have hlen : past.length ≤ 8 := hpast.length_le
  omega

end LoadBalancer

end VeloxServe
