import VeloxServe.Modules.FairSelection
import VeloxServe.Modules.HealthChecks

/-! # The Balancer under Its Lock

    `src/modules/load_balancer.cpp` at the level of its locks and atomics. A call
    of `get_next` and a round of `health_check_loop` hold `mutex_`; inside they
    load and store the flags and counters of the backends one at a time, while
    `release` and `mark_down` of other threads, which take no lock, come between.

    * **Discipline**: one thread is inside at a time. What a call has passed over
      stays down while it is inside, and a third strike stays one.
-/

namespace VeloxServe

namespace LockedBalancer

open StdString LTS LoadBalancer

/-! ## Section 1: Model -/

/-- How far a call of `get_next` has come. -/
inductive CallPhase where
  /-- Before the lock. -/
  | calling
  | scanning (tried : Nat)
  /-- The flag of this backend was up. -/
  | found (backend : Nat)
  /-- `active_connections` has been incremented. -/
  | counted (backend : Nat)
  | returned (result : Option Nat)
  deriving DecidableEq

/-- How far the health thread has come. -/
inductive HealthPhase where
  /-- There is no thread. -/
  | absent
  /-- Before the condition of the outer loop. -/
  | top
  /-- Before the lock. -/
  | waiting
  | checking (backend : Nat)
  /-- `check_health` has returned. -/
  | judged (backend : Nat) (alive : Bool)
  /-- The flag was down, after a good check. -/
  | recovering (backend : Nat)
  /-- The flag was up, after the third bad check. -/
  | failing (backend : Nat)
  | asleep (ticks : Nat)
  | finished
  deriving DecidableEq

/-- The thread that starts and stops the checks. -/
inductive Control where
  | idle
  | joining
  deriving DecidableEq

/-- Who holds `mutex_`. -/
inductive Holder where
  | caller (call : Nat)
  | health
  deriving DecidableEq

structure State where
  lb : LoadBalancer
  lock : Option Holder := none
  calls : List CallPhase := []
  health : HealthPhase := .absent
  running : Bool := false
  checkInterval : Int := 5
  control : Control := .idle

inductive Label where
  | arrive
  | lock (call : Nat)
  /-- The flag that is loaded is down. -/
  | passOver (call tried : Nat)
  /-- The flag that is loaded is up. -/
  | find (call tried : Nat)
  /-- All backends have been tried. -/
  | giveUp (call : Nat)
  | count (call backend : Nat)
  | leave (call backend : Nat)
  | release (backend : Nat)
  | markDown (backend : Nat)
  | start (interval : Int)
  | stop
  | join
  /-- The health thread tests `running_`. -/
  | test
  | lockRound
  | probe (backend : Nat) (socket : ProbeSocket)
  /-- A good check of a backend that is up. -/
  | confirm (backend : Nat)
  | seeDown (backend : Nat)
  | markUp (backend : Nat)
  /-- A bad check that changes nothing but the count. -/
  | strike (backend : Nat)
  | thirdStrike (backend : Nat)
  | strikeOut (backend : Nat)
  | unlockRound
  | sleep (ticks : Nat)

/-- Whether one more failed check takes the backend out. -/
def strikesOut (lb : LoadBalancer) (i : Nat) : Bool :=
  lb.backends[i]?.any fun b => 3 ≤ (b.failedChecks + 1).toInt && b.isAlive

/-- One more failed check. -/
def struck (b : Backend) : Backend := { b with failedChecks := b.failedChecks + 1 }

def counted (b : Backend) : Backend := { b with activeConnections := b.activeConnections + 1 }

def totalled (b : Backend) : Backend := { b with totalRequests := b.totalRequests + 1 }

/-- A call goes on, and leaves this balancer. -/
def State.setCall (s : State) (call : Nat) (phase : CallPhase) (lb : LoadBalancer) : State :=
  { s with lb := lb, calls := s.calls.set call phase }

/-- One atomic step; `none` when the thread is not at this point. -/
def step (s : State) : Label → Option State
  | .arrive => some { s with calls := s.calls ++ [.calling] }
  | .lock call =>
    if s.calls[call]? = some .calling ∧ s.lock = none then
      some { s.setCall call (.scanning 0) s.lb with lock := some (.caller call) }
    else none
  | .passOver call tried =>
    if s.calls[call]? = some (.scanning tried) ∧ tried < s.lb.backends.length ∧
        s.lb.aliveAt s.lb.currentPosition = false then
      some (s.setCall call (.scanning (tried + 1)) (s.lb.advance 1))
    else none
  | .find call tried =>
    if s.calls[call]? = some (.scanning tried) ∧ tried < s.lb.backends.length ∧
        s.lb.aliveAt s.lb.currentPosition = true then
      some (s.setCall call (.found s.lb.currentPosition) (s.lb.advance 1))
    else none
  | .giveUp call =>
    if s.calls[call]? = some (.scanning s.lb.backends.length) then
      some { s.setCall call (.returned none) s.lb with lock := none }
    else none
  | .count call i =>
    if s.calls[call]? = some (.found i) then
      some (s.setCall call (.counted i) (s.lb.update i counted))
    else none
  | .leave call i =>
    if s.calls[call]? = some (.counted i) then
      some { s.setCall call (.returned (some i)) (s.lb.update i totalled) with lock := none }
    else none
  | .release i => some { s with lb := s.lb.release i }
  | .markDown i => some { s with lb := s.lb.markDown i }
  | .start interval =>
    if s.control = .idle then
      some (if s.running then s
        else { s with running := true, checkInterval := interval, health := .top })
    else none
  | .stop =>
    if s.control = .idle then
      some (if s.running then { s with running := false, control := .joining } else s)
    else none
  | .join =>
    if s.control = .joining ∧ s.health = .finished then
      some { s with health := .absent, control := .idle }
    else none
  | .test =>
    if s.health = .top then
      some { s with health := if s.running then .waiting else .finished }
    else none
  | .lockRound =>
    if s.health = .waiting ∧ s.lock = none then
      some { s with lock := some .health, health := .checking 0 }
    else none
  | .probe i socket =>
    if s.health = .checking i then
      s.lb.backends[i]?.map fun b => { s with health := .judged i (checkHealth socket b) }
    else none
  | .confirm i =>
    if s.health = .judged i true ∧ s.lb.aliveAt i = true then
      some { s with
        lb := s.lb.update i fun b => { b with failedChecks := 0 }
        health := .checking (i + 1) }
    else none
  | .seeDown i =>
    if s.health = .judged i true ∧ s.lb.aliveAt i = false then
      some { s with health := .recovering i }
    else none
  | .markUp i =>
    if s.health = .recovering i then
      some { s with
        lb := s.lb.update i fun b => { b with isAlive := true, failedChecks := 0 }
        health := .checking (i + 1) }
    else none
  | .strike i =>
    if s.health = .judged i false ∧ strikesOut s.lb i = false then
      some { s with lb := s.lb.update i struck, health := .checking (i + 1) }
    else none
  | .thirdStrike i =>
    if s.health = .judged i false ∧ strikesOut s.lb i = true then
      some { s with lb := s.lb.update i struck, health := .failing i }
    else none
  | .strikeOut i =>
    if s.health = .failing i then
      some { s with
        lb := s.lb.update i fun b => { b with isAlive := false }
        health := .checking (i + 1) }
    else none
  | .unlockRound =>
    if s.health = .checking s.lb.backends.length then
      some { s with lock := none, health := .asleep 0 }
    else none
  | .sleep ticks =>
    if s.health = .asleep ticks then
      some { s with
        health := if (ticks : Int) < s.checkInterval * 10 ∧ s.running = true then
            .asleep (ticks + 1)
          else .top }
    else none

/-- All interleavings, from a balancer as the server creates it. -/
def system : System State Label :=
  System.ofStep (fun s => ∃ servers, s = { lb := create servers }) step

/-! ## Section 2: Discipline -/

/-- The counter before some increments. -/
def rewind (k : Nat) (lb : LoadBalancer) : LoadBalancer :=
  { lb with currentIndex := lb.currentIndex - BitVec.ofNat 32 k }

/-- The phases between lock and unlock. -/
def CallPhase.inside : CallPhase → Bool
  | .scanning _ => true
  | .found _ => true
  | .counted _ => true
  | _ => false

def HealthPhase.inside : HealthPhase → Bool
  | .checking _ => true
  | .judged _ _ => true
  | .recovering _ => true
  | .failing _ => true
  | _ => false

namespace State

def inside (s : State) : Holder → Bool
  | .caller call => (s.calls[call]?).any CallPhase.inside
  | .health => s.health.inside

/-- What the lock and the flags keep. -/
structure Sound (s : State) : Prop where
  owner : ∀ h, s.inside h = true ↔ s.lock = some h
  /-- The backends a call has passed over are still down. -/
  passed : ∀ (call tried : Nat), s.calls[call]? = some (.scanning tried) →
    tried ≤ s.lb.backends.length ∧ (rewind tried s.lb).PassesOver tried
  strikes : ∀ i, s.health = .failing i → ∀ b, s.lb.backends[i]? = some b → 3 ≤ b.failedChecks.toInt
  absent : s.control = .idle → s.running = false → s.health = .absent

end State

/-! ## Section 3: Backends One by One -/

section

variable {lb : LoadBalancer} {i : Nat} {f : Backend → Backend}

theorem aliveAt_update {k : Nat} (hdown : ∀ b, (f b).isAlive = true → b.isAlive = true)
    (h : (lb.update i f).aliveAt k = true) : lb.aliveAt k = true := by
  unfold aliveAt at h ⊢
  obtain ⟨b, hb, halive⟩ := (Option.any_eq_true _ _).mp h
  obtain ⟨b₀, hb₀, rfl⟩ := getElem?_update hb
  refine (Option.any_eq_true _ _).mpr ⟨b₀, hb₀, ?_⟩
  split at halive
  · exact hdown b₀ halive
  · exact halive

theorem aliveAt_some {b : Backend} (hb : lb.backends[i]? = some b) : lb.aliveAt i = b.isAlive := by
  unfold aliveAt
  rw [hb]
  rfl

theorem length_update (lb : LoadBalancer) (i : Nat) (f : Backend → Backend) :
    (lb.update i f).backends.length = lb.backends.length := by
  unfold LoadBalancer.update
  exact List.length_modify _ _ _

/-- A flag that was passed over stays down unless it is put up. -/
theorem passesOver_update {k : Nat} (hdown : ∀ b, (f b).isAlive = true → b.isAlive = true)
    (h : lb.PassesOver k) : (lb.update i f).PassesOver k := by
  intro j hj b hb
  have hposition : (lb.update i f).positionAfter j = lb.positionAfter j := by
    unfold LoadBalancer.positionAfter
    rw [length_update]
    rfl
  rw [hposition] at hb
  obtain ⟨b₀, hb₀, rfl⟩ := getElem?_update hb
  have hdead := h j hj b₀ hb₀
  split
  · cases hf : (f b₀).isAlive with
    | false => rfl
    | true => exact absurd (hdown b₀ hf) (by simp [hdead])
  · exact hdead

/-- One more try, counted from where the scan began. -/
theorem rewind_advance (lb : LoadBalancer) (k : Nat) :
    rewind (k + 1) (lb.advance 1) = rewind k lb := by
  unfold rewind LoadBalancer.advance
  congr 1
  rw [BitVec.ofNat_add]
  grind

theorem advance_rewind (lb : LoadBalancer) (k : Nat) : (rewind k lb).advance k = lb := by
  unfold rewind LoadBalancer.advance
  congr 1
  grind

theorem positionAfter_rewind (lb : LoadBalancer) (k : Nat) :
    (rewind k lb).positionAfter k = lb.currentPosition := by
  rw [← currentPosition_advance, advance_rewind]

end

/-! ## Section 4: The Lock -/

namespace State

section

variable {s s' : State}

theorem inside_setCall {call : Nat} {phase : CallPhase} (phase' : CallPhase) (lb : LoadBalancer)
    (h : s.calls[call]? = some phase) (k : Holder) :
    (s.setCall call phase' lb).inside k = if k = .caller call then phase'.inside else s.inside k := by
  obtain ⟨hlt, -⟩ := List.getElem?_eq_some_iff.mp h
  cases k with
  | health => rfl
  | caller c =>
    show ((s.calls.set call phase')[c]?).any CallPhase.inside = _
    rw [List.getElem?_set]
    by_cases hc : call = c
    · obtain rfl := hc
      simp [hlt]
    · have hne : ¬ Holder.caller c = .caller call := fun heq => hc (Holder.caller.inj heq).symm
      rw [if_neg hc, if_neg hne]
      rfl

/-- Nobody enters or leaves. -/
theorem owner_same (h : ∀ k, s.inside k = true ↔ s.lock = some k)
    (hinside : ∀ k, s'.inside k = s.inside k) (hlock : s'.lock = s.lock) (k : Holder) :
    s'.inside k = true ↔ s'.lock = some k := by
  rw [hinside, hlock]
  exact h k

/-- One thread takes the free lock. -/
theorem owner_lock (h : ∀ k, s.inside k = true ↔ s.lock = some k) (hfree : s.lock = none)
    {k₀ : Holder} (hinside : ∀ k, s'.inside k = if k = k₀ then true else s.inside k)
    (hlock : s'.lock = some k₀) (k : Holder) : s'.inside k = true ↔ s'.lock = some k := by
  rw [hinside, hlock]
  by_cases hk : k = k₀
  · rw [if_pos hk, hk]
    exact iff_of_true rfl rfl
  · rw [if_neg hk, h k, hfree]
    constructor
    · intro hnone
      cases hnone
    · intro hsome
      exact absurd (Option.some.inj hsome).symm hk

/-- The thread that holds the lock lets go of it. -/
theorem owner_unlock (h : ∀ k, s.inside k = true ↔ s.lock = some k) {k₀ : Holder}
    (hheld : s.lock = some k₀)
    (hinside : ∀ k, s'.inside k = if k = k₀ then false else s.inside k)
    (hlock : s'.lock = none) (k : Holder) : s'.inside k = true ↔ s'.lock = some k := by
  rw [hinside, hlock]
  by_cases hk : k = k₀
  · rw [if_pos hk]
    constructor
    · intro hfalse
      cases hfalse
    · intro hnone
      cases hnone
  · rw [if_neg hk, h k, hheld]
    constructor
    · intro hsome
      exact absurd (Option.some.inj hsome).symm hk
    · intro hnone
      cases hnone

/-- A call that is inside holds the lock. -/
theorem Sound.caller (h : s.Sound) {call : Nat} {phase : CallPhase}
    (hcall : s.calls[call]? = some phase) (hinside : phase.inside = true) :
    s.lock = some (.caller call) := by
  refine (h.owner (.caller call)).mp ?_
  show (s.calls[call]?).any CallPhase.inside = true
  rw [hcall]
  exact hinside

/-- No call is inside while the health thread is. -/
theorem Sound.alone (h : s.Sound) (hhealth : s.health.inside = true) {call : Nat}
    {phase : CallPhase} (hcall : s.calls[call]? = some phase) : phase.inside = false := by
  cases hinside : phase.inside with
  | false => rfl
  | true =>
    have hlock := h.caller hcall hinside
    have hheld := (h.owner .health).mp hhealth
    rw [hheld] at hlock
    cases hlock

/-- Two calls are not inside together. -/
theorem Sound.same_call (h : s.Sound) {call call' : Nat} {phase phase' : CallPhase}
    (hcall : s.calls[call]? = some phase) (hinside : phase.inside = true)
    (hcall' : s.calls[call']? = some phase') (hinside' : phase'.inside = true) : call' = call := by
  have hlock := h.caller hcall hinside
  have hlock' := h.caller hcall' hinside'
  rw [hlock] at hlock'
  exact (Holder.caller.inj (Option.some.inj hlock')).symm

/-- No check is under way while a call is inside. -/
theorem Sound.not_failing (h : s.Sound) {call i : Nat} (hlock : s.lock = some (.caller call))
    (hfailing : s.health = .failing i) : False := by
  have hinside : s.health.inside = true := by
    rw [hfailing]
    rfl
  have hheld := (h.owner .health).mp hinside
  rw [hlock] at hheld
  cases hheld

/-- Nothing is known of a balancer of which nobody holds the lock. -/
theorem Sound.not_scanning (h : s.Sound) (hfree : s.lock = none) {call tried : Nat}
    (hcall : s.calls[call]? = some (.scanning tried)) : False := by
  have hlock := h.caller hcall rfl
  rw [hfree] at hlock
  cases hlock

/-- **The health thread goes on**, and changes backends only while it holds the lock. -/
theorem Sound.healthStep (h : s.Sound) (hcalls : s'.calls = s.calls) (hlock : s'.lock = s.lock)
    (hinside : s'.health.inside = s.health.inside)
    (hlb : s'.lb = s.lb ∨ s.health.inside = true)
    (hstruck : ∀ i, s'.health = .failing i → ∀ b, s'.lb.backends[i]? = some b →
      3 ≤ b.failedChecks.toInt)
    (habsent : s'.control = .idle → s'.running = false → s'.health = .absent) : s'.Sound := by
  refine ⟨owner_same h.owner ?_ hlock, ?_, hstruck, habsent⟩
  · intro k
    cases k with
    | health => exact hinside
    | caller call =>
      show (s'.calls[call]?).any CallPhase.inside = (s.calls[call]?).any CallPhase.inside
      rw [hcalls]
  · intro call tried hcall
    rw [hcalls] at hcall
    rcases hlb with hsame | hheld
    · rw [hsame]
      exact h.passed call tried hcall
    · have hout := h.alone hheld hcall
      cases hout

/-- A health thread that exists was started and has not been joined. -/
theorem Sound.started (h : s.Sound) {phase : HealthPhase} (hphase : s.health = phase)
    (hne : phase ≠ .absent) (hidle : s.control = .idle) (hstopped : s.running = false) : False :=
  hne (hphase.symm.trans (h.absent hidle hstopped))

theorem Sound.not_held (h : s.Sound) {phase : HealthPhase} (hphase : s.health = phase)
    (hout : phase.inside = false) : s.lock ≠ some .health := by
  intro hheld
  have hin : s.health.inside = true := (h.owner .health).mpr hheld
  rw [hphase, hout] at hin
  cases hin

theorem Sound.held (h : s.Sound) {phase : HealthPhase} (hphase : s.health = phase)
    (hin : phase.inside = true) : s.lock = some .health := by
  refine (h.owner .health).mp ?_
  show s.health.inside = true
  rw [hphase]
  exact hin

/-- The health thread goes on inside the lock. -/
theorem Sound.roundStep (h : s.Sound) {phase phase' : HealthPhase} {lb : LoadBalancer}
    (hphase : s.health = phase) (hin : phase.inside = true) (hin' : phase'.inside = true)
    (hstruck : ∀ i, phase' = .failing i → ∀ b, lb.backends[i]? = some b →
      3 ≤ b.failedChecks.toInt) :
    State.Sound { s with lb := lb, health := phase' } := by
  have hinside : s.health.inside = true := hphase ▸ hin
  have hne : phase ≠ .absent := by
    intro habsent
    rw [habsent] at hin
    cases hin
  refine h.healthStep rfl rfl (hin'.trans hinside.symm) (Or.inr hinside) hstruck ?_
  intro hidle hstopped
  exact (h.started hphase hne hidle hstopped).elim

/-- **A call goes on** inside the lock. -/
theorem Sound.callStep (h : s.Sound) {call : Nat} {phase phase' : CallPhase} {lb : LoadBalancer}
    (hcall : s.calls[call]? = some phase) (hin : phase.inside = true)
    (hin' : phase'.inside = true)
    (hpassed : ∀ tried, phase' = .scanning tried →
      tried ≤ lb.backends.length ∧ (rewind tried lb).PassesOver tried) :
    (s.setCall call phase' lb).Sound := by
  have hlock := h.caller hcall hin
  obtain ⟨hlt, -⟩ := List.getElem?_eq_some_iff.mp hcall
  -- no other call is scanning, and no check is under way
  refine ⟨owner_same h.owner ?_ rfl, ?_, ?_, h.absent⟩
  · intro k
    rw [inside_setCall phase' lb hcall]
    split
    · next hk =>
      rw [hk, hin']
      exact ((h.owner (.caller call)).mpr hlock).symm
    · rfl
  · intro call' tried hcall'
    have hget : (s.calls.set call phase')[call']? = some (.scanning tried) := hcall'
    rw [List.getElem?_set] at hget
    by_cases hc : call = call'
    · rw [if_pos hc, if_pos hlt] at hget
      exact hpassed tried (Option.some.inj hget)
    · rw [if_neg hc] at hget
      exact absurd (h.same_call hcall hin hget rfl).symm hc
  · intro i hfailing
    exact (h.not_failing hlock hfailing).elim

/-- **A call leaves** the lock. -/
theorem Sound.callLeave (h : s.Sound) {call : Nat} {phase : CallPhase} {result : Option Nat}
    {lb : LoadBalancer} (hcall : s.calls[call]? = some phase) (hin : phase.inside = true) :
    State.Sound { s.setCall call (.returned result) lb with lock := none } := by
  have hlock := h.caller hcall hin
  obtain ⟨hlt, -⟩ := List.getElem?_eq_some_iff.mp hcall
  refine ⟨owner_unlock h.owner hlock ?_ rfl, ?_, ?_, h.absent⟩
  · intro k
    exact inside_setCall (.returned result) lb hcall k
  · intro call' tried hcall'
    have hget : (s.calls.set call (.returned result))[call']? = some (.scanning tried) := hcall'
    rw [List.getElem?_set] at hget
    by_cases hc : call = call'
    · rw [if_pos hc, if_pos hlt] at hget
      cases hget
    · rw [if_neg hc] at hget
      exact absurd (h.same_call hcall hin hget rfl).symm hc
  · intro i hfailing
    exact (h.not_failing hlock hfailing).elim

/-- A call takes the free lock. -/
theorem Sound.callLock (h : s.Sound) {call : Nat} (hcall : s.calls[call]? = some .calling)
    (hfree : s.lock = none) :
    State.Sound { s.setCall call (.scanning 0) s.lb with lock := some (.caller call) } := by
  obtain ⟨hlt, -⟩ := List.getElem?_eq_some_iff.mp hcall
  refine ⟨owner_lock h.owner hfree ?_ rfl, ?_, h.strikes, h.absent⟩
  · intro k
    exact inside_setCall (.scanning 0) s.lb hcall k
  · intro call' tried hcall'
    have hget : (s.calls.set call (.scanning 0))[call']? = some (.scanning tried) := hcall'
    rw [List.getElem?_set] at hget
    by_cases hc : call = call'
    · rw [if_pos hc, if_pos hlt] at hget
      obtain rfl : 0 = tried := CallPhase.scanning.inj (Option.some.inj hget)
      exact ⟨Nat.zero_le _, fun j hj => absurd hj (Nat.not_lt_zero j)⟩
    · rw [if_neg hc] at hget
      exact (h.not_scanning hfree hget).elim

/-- A thread without the lock takes a flag down, or touches none. -/
theorem Sound.outside (h : s.Sound) (i : Nat) {f : Backend → Backend}
    (hdown : ∀ b, (f b).isAlive = true → b.isAlive = true)
    (hchecks : ∀ b, (f b).failedChecks = b.failedChecks) :
    State.Sound { s with lb := s.lb.update i f } := by
  refine ⟨owner_same h.owner (fun _ => rfl) rfl, ?_, ?_, h.absent⟩
  · intro call tried hcall
    obtain ⟨hle, hpassed⟩ := h.passed call tried hcall
    refine ⟨?_, passesOver_update hdown hpassed⟩
    show tried ≤ (s.lb.update i f).backends.length
    rw [length_update]
    exact hle
  · intro j hfailing b hb
    obtain ⟨b₀, hb₀, rfl⟩ := getElem?_update hb
    have hthree := h.strikes j hfailing b₀ hb₀
    split
    · rw [hchecks]
      exact hthree
    · exact hthree

theorem sound_create (servers : List (Bytes × Int)) :
    State.Sound { lb := create servers } where
  owner := by
    intro k
    cases k with
    | caller call => exact iff_of_false (by simp [State.inside]) nofun
    | health => exact iff_of_false (by simp [State.inside, HealthPhase.inside]) nofun
  passed := nofun
  strikes := nofun
  absent := fun _ _ => rfl

/-- **Every step keeps the discipline of the lock.** -/
theorem Sound.step (h : s.Sound) {l : Label} (hstep : LockedBalancer.step s l = some s') :
    s'.Sound := by
  cases l with
  | arrive =>
    obtain rfl := Option.some.inj hstep
    -- the new call is not inside, and the others keep their places
    refine ⟨owner_same h.owner ?_ rfl, ?_, h.strikes, h.absent⟩
    · intro k
      cases k with
      | health => rfl
      | caller call =>
        show ((s.calls ++ [CallPhase.calling])[call]?).any CallPhase.inside =
          (s.calls[call]?).any CallPhase.inside
        rw [List.getElem?_append]
        split
        · rfl
        · next hge =>
          rw [List.getElem?_eq_none (Nat.le_of_not_lt hge), List.getElem?_singleton]
          split <;> rfl
    · intro call tried hcall
      have hget : (s.calls ++ [CallPhase.calling])[call]? = some (.scanning tried) := hcall
      rw [List.getElem?_append] at hget
      split at hget
      · exact h.passed call tried hget
      · rw [List.getElem?_singleton] at hget
        split at hget <;> cases hget
  | lock call =>
    obtain ⟨⟨hcall, hfree⟩, hs'⟩ := Option.ite_none_right_eq_some.mp hstep
    obtain rfl := Option.some.inj hs'
    exact h.callLock hcall hfree
  | passOver call tried =>
    obtain ⟨⟨hcall, hlt, hdead⟩, hs'⟩ := Option.ite_none_right_eq_some.mp hstep
    obtain rfl := Option.some.inj hs'
    refine h.callStep hcall rfl rfl fun tried' htried' => ?_
    obtain rfl := CallPhase.scanning.inj htried'
    refine ⟨hlt, ?_⟩
    rw [rewind_advance]
    -- the backend that has just been looked at is down as well
    intro j hj b hb
    obtain ⟨-, hpassed⟩ := h.passed call tried hcall
    rcases Nat.lt_succ_iff_lt_or_eq.mp hj with hj | rfl
    · exact hpassed j hj b hb
    · rw [positionAfter_rewind] at hb
      have hhere : s.lb.backends[s.lb.currentPosition]? = some b := hb
      rw [aliveAt_some hhere] at hdead
      exact hdead
  | find call tried =>
    obtain ⟨⟨hcall, -, -⟩, hs'⟩ := Option.ite_none_right_eq_some.mp hstep
    obtain rfl := Option.some.inj hs'
    exact h.callStep hcall rfl rfl nofun
  | giveUp call =>
    obtain ⟨hcall, hs'⟩ := Option.ite_none_right_eq_some.mp hstep
    obtain rfl := Option.some.inj hs'
    exact h.callLeave hcall rfl
  | count call i =>
    obtain ⟨hcall, hs'⟩ := Option.ite_none_right_eq_some.mp hstep
    obtain rfl := Option.some.inj hs'
    exact h.callStep hcall rfl rfl nofun
  | leave call i =>
    obtain ⟨hcall, hs'⟩ := Option.ite_none_right_eq_some.mp hstep
    obtain rfl := Option.some.inj hs'
    exact h.callLeave hcall rfl
  | release i =>
    obtain rfl := Option.some.inj hstep
    exact h.outside i (fun _ hb => hb) fun _ => rfl
  | markDown i =>
    obtain rfl := Option.some.inj hstep
    exact h.outside i nofun fun _ => rfl
  | start interval =>
    obtain ⟨hidle, hs'⟩ := Option.ite_none_right_eq_some.mp hstep
    obtain rfl := Option.some.inj hs'
    cases hrunning : s.running with
    | true => exact h
    | false =>
      -- there is no thread yet, so the new one is the only one
      have habsent := h.absent hidle hrunning
      refine h.healthStep rfl rfl ?_ (Or.inl rfl) nofun nofun
      rw [habsent]
      rfl
  | stop =>
    obtain ⟨hidle, hs'⟩ := Option.ite_none_right_eq_some.mp hstep
    obtain rfl := Option.some.inj hs'
    cases hrunning : s.running with
    | true => exact h.healthStep rfl rfl rfl (Or.inl rfl) h.strikes nofun
    | false => exact h
  | join =>
    obtain ⟨⟨-, hfinished⟩, hs'⟩ := Option.ite_none_right_eq_some.mp hstep
    obtain rfl := Option.some.inj hs'
    refine h.healthStep rfl rfl ?_ (Or.inl rfl) nofun fun _ _ => rfl
    rw [hfinished]
    rfl
  | test =>
    obtain ⟨htop, hs'⟩ := Option.ite_none_right_eq_some.mp hstep
    obtain rfl := Option.some.inj hs'
    -- the thread is outside before the test and behind it
    refine h.healthStep rfl rfl ?_ (Or.inl rfl) ?_ fun hidle hstopped =>
      (h.started htop HealthPhase.noConfusion hidle hstopped).elim
    · rw [htop]
      dsimp only
      split <;> rfl
    · intro i hfailing
      dsimp only at hfailing
      split at hfailing <;> cases hfailing
  | lockRound =>
    obtain ⟨⟨hwaiting, hfree⟩, hs'⟩ := Option.ite_none_right_eq_some.mp hstep
    obtain rfl := Option.some.inj hs'
    refine ⟨owner_lock h.owner hfree ?_ rfl, h.passed, nofun, fun hidle hstopped =>
      (h.started hwaiting HealthPhase.noConfusion hidle hstopped).elim⟩
    intro k
    cases k <;> rfl
  | probe i socket =>
    obtain ⟨hchecking, hs'⟩ := Option.ite_none_right_eq_some.mp hstep
    obtain ⟨b, -, rfl⟩ := Option.map_eq_some_iff.mp hs'
    exact h.roundStep hchecking rfl rfl nofun
  | confirm i =>
    obtain ⟨⟨hjudged, -⟩, hs'⟩ := Option.ite_none_right_eq_some.mp hstep
    obtain rfl := Option.some.inj hs'
    exact h.roundStep hjudged rfl rfl nofun
  | seeDown i =>
    obtain ⟨⟨hjudged, -⟩, hs'⟩ := Option.ite_none_right_eq_some.mp hstep
    obtain rfl := Option.some.inj hs'
    exact h.roundStep hjudged rfl rfl nofun
  | markUp i =>
    obtain ⟨hrecovering, hs'⟩ := Option.ite_none_right_eq_some.mp hstep
    obtain rfl := Option.some.inj hs'
    exact h.roundStep hrecovering rfl rfl nofun
  | strike i =>
    obtain ⟨⟨hjudged, -⟩, hs'⟩ := Option.ite_none_right_eq_some.mp hstep
    obtain rfl := Option.some.inj hs'
    exact h.roundStep hjudged rfl rfl nofun
  | thirdStrike i =>
    obtain ⟨⟨hjudged, hthird⟩, hs'⟩ := Option.ite_none_right_eq_some.mp hstep
    obtain rfl := Option.some.inj hs'
    refine h.roundStep hjudged rfl rfl ?_
    intro j hfailing b hb
    -- the count that was loaded has just been stored
    obtain rfl : i = j := HealthPhase.failing.inj hfailing
    obtain ⟨b₀, hb₀, rfl⟩ := getElem?_update hb
    unfold strikesOut at hthird
    rw [hb₀] at hthird
    rw [if_pos rfl]
    exact of_decide_eq_true (Bool.and_eq_true _ _ ▸ hthird).1
  | strikeOut i =>
    obtain ⟨hfailing, hs'⟩ := Option.ite_none_right_eq_some.mp hstep
    obtain rfl := Option.some.inj hs'
    exact h.roundStep hfailing rfl rfl nofun
  | unlockRound =>
    obtain ⟨hchecking, hs'⟩ := Option.ite_none_right_eq_some.mp hstep
    obtain rfl := Option.some.inj hs'
    have hin : s.inside .health = true := by
      show s.health.inside = true
      rw [hchecking]
      rfl
    refine ⟨owner_unlock h.owner ((h.owner .health).mp hin) ?_ rfl, h.passed, nofun,
      fun hidle hstopped => (h.started hchecking HealthPhase.noConfusion hidle hstopped).elim⟩
    intro k
    cases k <;> rfl
  | sleep ticks =>
    obtain ⟨hasleep, hs'⟩ := Option.ite_none_right_eq_some.mp hstep
    obtain rfl := Option.some.inj hs'
    refine h.healthStep rfl rfl ?_ (Or.inl rfl) ?_ fun hidle hstopped =>
      (h.started hasleep HealthPhase.noConfusion hidle hstopped).elim
    · rw [hasleep]
      dsimp only
      split <;> rfl
    · intro i hfailing
      dsimp only at hfailing
      split at hfailing <;> cases hfailing

end

end State

theorem sound_run {s₀ s : State} {ls : List Label} (h₀ : system.init s₀)
    (hrun : Run system s₀ ls s) : s.Sound := by
  obtain ⟨servers, rfl⟩ := h₀
  exact hrun.invariant (fun _ _ _ h hstep => h.step hstep) (State.sound_create servers)

end LockedBalancer

end VeloxServe
