import VeloxServe.Framework.Refinement
import VeloxServe.Modules.LockedBalancer

/-! # Stopping the Health Checks

    `stop_health_checks` clears `running_` and joins the thread. The thread may be
    asleep, before its lock, or in the middle of a round at that moment.

    * **Rank**: how many steps the thread can still take once `running_` is clear,
      and how many the call of `get_next` that holds the lock.
    * So the join returns after a bounded number of steps of these two, and nothing
      is checked after it until the checks are started again.
-/

namespace VeloxServe

namespace LockedBalancer

open StdString LTS LoadBalancer

/-! ## Section 1: Positions -/

/-- The backend a round has come to exists, or all have been checked. -/
def HealthPhase.InRange (n : Nat) : HealthPhase → Prop
  | .checking i => i ≤ n
  | .judged i _ => i < n
  | .recovering i => i < n
  | .failing i => i < n
  | _ => True

/-- What is known of the thread that is joined. -/
structure Threaded (s : State) : Prop where
  inRange : s.health.InRange s.lb.backends.length
  running : s.running = true → s.health ≠ .absent
  joining : s.control = .joining → s.running = false ∧ s.health ≠ .absent

/-- The steps of the health thread. -/
def Label.byHealth : Label → Bool
  | .test => true
  | .lockRound => true
  | .probe _ _ => true
  | .confirm _ => true
  | .seeDown _ => true
  | .markUp _ => true
  | .strike _ => true
  | .thirdStrike _ => true
  | .strikeOut _ => true
  | .unlockRound => true
  | .sleep _ => true
  | _ => false

/-- The steps of a call of `get_next` inside the lock. -/
def Label.byHolder : Label → Bool
  | .passOver _ _ => true
  | .find _ _ => true
  | .giveUp _ => true
  | .count _ _ => true
  | .leave _ _ => true
  | _ => false

/-- What it takes to finish `stop_health_checks`. -/
def Label.finishes : Label → Bool
  | .join => true
  | l => l.byHealth || l.byHolder

/-- The checks are started. -/
def Label.starts : Label → Bool
  | .start _ => true
  | _ => false

/-- How many steps the health thread can take with `running_` clear. -/
def HealthPhase.rank (n : Nat) : HealthPhase → Nat
  | .absent => 0
  | .finished => 0
  | .top => 1
  | .asleep _ => 2
  | .checking i => 3 * (n - i) + 3
  | .judged i _ => 3 * (n - i) + 2
  | .recovering i => 3 * (n - i) + 1
  | .failing i => 3 * (n - i) + 1
  | .waiting => 3 * n + 4

/-- How many steps a call can take inside the lock. -/
def CallPhase.rank (n : Nat) : CallPhase → Nat
  | .scanning tried => n - tried + 3
  | .found _ => 2
  | .counted _ => 1
  | _ => 0

/-- What a step of another thread does to the health thread. -/
inductive StaysOut (s s' : State) : Prop where
  | same (health : s'.health = s.health) (running : s'.running = s.running)
      (control : s'.control = s.control)
  | stopped (health : s'.health = s.health) (running : s.running = true)
      (running' : s'.running = false) (control : s'.control = .joining)
  | joined (health : s'.health = .absent) (running : s'.running = s.running)
      (control : s'.control = .idle) (joining : s.control = .joining)

/-- No step of another thread moves the health thread. -/
theorem staysOut {s s' : State} {l : Label} (hstep : step s l = some s')
    (hhealth : l.byHealth = false) (hstart : l.starts = false) :
    StaysOut s s' ∧ s'.lb.backends.length = s.lb.backends.length := by
  cases l with
  | arrive =>
    obtain rfl := Option.some.inj hstep
    exact ⟨.same rfl rfl rfl, rfl⟩
  | lock call =>
    obtain ⟨-, hs'⟩ := Option.ite_none_right_eq_some.mp hstep
    obtain rfl := Option.some.inj hs'
    exact ⟨.same rfl rfl rfl, rfl⟩
  | passOver call tried =>
    obtain ⟨-, hs'⟩ := Option.ite_none_right_eq_some.mp hstep
    obtain rfl := Option.some.inj hs'
    exact ⟨.same rfl rfl rfl, rfl⟩
  | find call tried =>
    obtain ⟨-, hs'⟩ := Option.ite_none_right_eq_some.mp hstep
    obtain rfl := Option.some.inj hs'
    exact ⟨.same rfl rfl rfl, rfl⟩
  | giveUp call =>
    obtain ⟨-, hs'⟩ := Option.ite_none_right_eq_some.mp hstep
    obtain rfl := Option.some.inj hs'
    exact ⟨.same rfl rfl rfl, rfl⟩
  | count call i =>
    obtain ⟨-, hs'⟩ := Option.ite_none_right_eq_some.mp hstep
    obtain rfl := Option.some.inj hs'
    exact ⟨.same rfl rfl rfl, length_update _ _ _⟩
  | leave call i =>
    obtain ⟨-, hs'⟩ := Option.ite_none_right_eq_some.mp hstep
    obtain rfl := Option.some.inj hs'
    exact ⟨.same rfl rfl rfl, length_update _ _ _⟩
  | release i =>
    obtain rfl := Option.some.inj hstep
    exact ⟨.same rfl rfl rfl, length_update _ _ _⟩
  | markDown i =>
    obtain rfl := Option.some.inj hstep
    exact ⟨.same rfl rfl rfl, length_update _ _ _⟩
  | stop =>
    obtain ⟨-, hs'⟩ := Option.ite_none_right_eq_some.mp hstep
    obtain rfl := Option.some.inj hs'
    split
    · next hrunning => exact ⟨.stopped rfl hrunning rfl rfl, rfl⟩
    · exact ⟨.same rfl rfl rfl, rfl⟩
  | join =>
    obtain ⟨⟨hjoining, -⟩, hs'⟩ := Option.ite_none_right_eq_some.mp hstep
    obtain rfl := Option.some.inj hs'
    exact ⟨.joined rfl rfl rfl hjoining, rfl⟩
  | start interval => cases hstart
  | _ => cases hhealth

/-- What a step of the health thread does to its phase. -/
structure HealthMoves (s s' : State) : Prop where
  length : s'.lb.backends.length = s.lb.backends.length
  control : s'.control = s.control
  running : s'.running = s.running
  present : s'.health ≠ .absent
  inRange : s'.health.InRange s.lb.backends.length
  /-- With `running_` clear the thread comes nearer to its end. -/
  rank : s.running = false →
    s'.health.rank s.lb.backends.length < s.health.rank s.lb.backends.length

theorem healthMoves {s s' : State} {l : Label} (h : s.health.InRange s.lb.backends.length)
    (hstep : step s l = some s') (hhealth : l.byHealth = true) : HealthMoves s s' := by
  cases l with
  | test =>
    obtain ⟨htop, hs'⟩ := Option.ite_none_right_eq_some.mp hstep
    obtain rfl := Option.some.inj hs'
    cases hrunning : s.running with
    | true => exact ⟨rfl, rfl, hrunning.symm, HealthPhase.noConfusion, trivial, by simp [hrunning]⟩
    | false =>
      -- this is where the thread ends
      refine ⟨rfl, rfl, hrunning.symm, HealthPhase.noConfusion, trivial, fun _ => ?_⟩
      rw [htop]
      exact Nat.zero_lt_one
  | lockRound =>
    obtain ⟨⟨hwaiting, -⟩, hs'⟩ := Option.ite_none_right_eq_some.mp hstep
    obtain rfl := Option.some.inj hs'
    refine ⟨rfl, rfl, rfl, HealthPhase.noConfusion, Nat.zero_le _, fun _ => ?_⟩
    rw [hwaiting]
    -- a whole round is still to come, without a look at `running_`
    show 3 * (s.lb.backends.length - 0) + 3 < 3 * s.lb.backends.length + 4
    omega
  | probe i socket =>
    obtain ⟨hchecking, hs'⟩ := Option.ite_none_right_eq_some.mp hstep
    obtain ⟨b, hb, rfl⟩ := Option.map_eq_some_iff.mp hs'
    obtain ⟨hlt, -⟩ := List.getElem?_eq_some_iff.mp hb
    refine ⟨rfl, rfl, rfl, HealthPhase.noConfusion, hlt, fun _ => ?_⟩
    rw [hchecking]
    exact Nat.lt_succ_self _
  | confirm i =>
    obtain ⟨⟨hjudged, -⟩, hs'⟩ := Option.ite_none_right_eq_some.mp hstep
    obtain rfl := Option.some.inj hs'
    rw [hjudged] at h
    have hlt : i < s.lb.backends.length := h
    refine ⟨length_update _ _ _, rfl, rfl, HealthPhase.noConfusion, hlt, fun _ => ?_⟩
    rw [hjudged]
    show 3 * (s.lb.backends.length - (i + 1)) + 3 < 3 * (s.lb.backends.length - i) + 2
    omega
  | seeDown i =>
    obtain ⟨⟨hjudged, -⟩, hs'⟩ := Option.ite_none_right_eq_some.mp hstep
    obtain rfl := Option.some.inj hs'
    rw [hjudged] at h
    refine ⟨rfl, rfl, rfl, HealthPhase.noConfusion, h, fun _ => ?_⟩
    rw [hjudged]
    exact Nat.lt_succ_self _
  | markUp i =>
    obtain ⟨hrecovering, hs'⟩ := Option.ite_none_right_eq_some.mp hstep
    obtain rfl := Option.some.inj hs'
    rw [hrecovering] at h
    have hlt : i < s.lb.backends.length := h
    refine ⟨length_update _ _ _, rfl, rfl, HealthPhase.noConfusion, hlt, fun _ => ?_⟩
    rw [hrecovering]
    show 3 * (s.lb.backends.length - (i + 1)) + 3 < 3 * (s.lb.backends.length - i) + 1
    omega
  | strike i =>
    obtain ⟨⟨hjudged, -⟩, hs'⟩ := Option.ite_none_right_eq_some.mp hstep
    obtain rfl := Option.some.inj hs'
    rw [hjudged] at h
    have hlt : i < s.lb.backends.length := h
    refine ⟨length_update _ _ _, rfl, rfl, HealthPhase.noConfusion, hlt, fun _ => ?_⟩
    rw [hjudged]
    show 3 * (s.lb.backends.length - (i + 1)) + 3 < 3 * (s.lb.backends.length - i) + 2
    omega
  | thirdStrike i =>
    obtain ⟨⟨hjudged, -⟩, hs'⟩ := Option.ite_none_right_eq_some.mp hstep
    obtain rfl := Option.some.inj hs'
    rw [hjudged] at h
    refine ⟨length_update _ _ _, rfl, rfl, HealthPhase.noConfusion, h, fun _ => ?_⟩
    rw [hjudged]
    exact Nat.lt_succ_self _
  | strikeOut i =>
    obtain ⟨hfailing, hs'⟩ := Option.ite_none_right_eq_some.mp hstep
    obtain rfl := Option.some.inj hs'
    rw [hfailing] at h
    have hlt : i < s.lb.backends.length := h
    refine ⟨length_update _ _ _, rfl, rfl, HealthPhase.noConfusion, hlt, fun _ => ?_⟩
    rw [hfailing]
    show 3 * (s.lb.backends.length - (i + 1)) + 3 < 3 * (s.lb.backends.length - i) + 1
    omega
  | unlockRound =>
    obtain ⟨hchecking, hs'⟩ := Option.ite_none_right_eq_some.mp hstep
    obtain rfl := Option.some.inj hs'
    refine ⟨rfl, rfl, rfl, HealthPhase.noConfusion, trivial, fun _ => ?_⟩
    rw [hchecking]
    show 2 < 3 * _ + 3
    omega
  | sleep ticks =>
    obtain ⟨hasleep, hs'⟩ := Option.ite_none_right_eq_some.mp hstep
    obtain rfl := Option.some.inj hs'
    refine ⟨rfl, rfl, rfl, ?_, ?_, fun hstopped => ?_⟩
    · dsimp only
      split <;> exact HealthPhase.noConfusion
    · dsimp only
      split <;> trivial
    · -- the sleep is cut short
      have hover : ¬ ((ticks : Int) < s.checkInterval * 10 ∧ s.running = true) := by
        rw [hstopped]
        exact fun hboth => Bool.noConfusion hboth.2
      dsimp only
      rw [if_neg hover, hasleep]
      exact Nat.lt_succ_self _
  | _ => cases hhealth

/-! ## Section 2: Runs -/

theorem threaded_create (servers : List (Bytes × Int)) : Threaded { lb := create servers } where
  inRange := trivial
  running := nofun
  joining := nofun

theorem Threaded.step {s s' : State} (h : Threaded s) {l : Label}
    (hstep : LockedBalancer.step s l = some s') : Threaded s' := by
  cases hhealth : l.byHealth with
  | true =>
    -- the thread itself
    have hmoves := healthMoves h.inRange hstep hhealth
    refine ⟨?_, fun _ => hmoves.present, fun hjoining => ?_⟩
    · rw [hmoves.length]
      exact hmoves.inRange
    · rw [hmoves.running]
      exact ⟨(h.joining (hmoves.control ▸ hjoining)).1, hmoves.present⟩
  | false =>
    cases hstart : l.starts with
    | true =>
      cases l with
      | start interval =>
        obtain ⟨hidle, hs'⟩ := Option.ite_none_right_eq_some.mp hstep
        obtain rfl := Option.some.inj hs'
        split
        · exact h
        · refine ⟨trivial, fun _ => HealthPhase.noConfusion, fun hjoining => ?_⟩
          -- nobody joins while the checks are being started
          have hcontrol : s.control = .joining := hjoining
          rw [hidle] at hcontrol
          cases hcontrol
      | _ => cases hstart
    | false =>
      obtain ⟨hout, hlength⟩ := staysOut hstep hhealth hstart
      cases hout with
      | same health running control =>
        refine ⟨?_, ?_, ?_⟩
        · rw [health, hlength]
          exact h.inRange
        · rw [health, running]
          exact h.running
        · rw [health, running, control]
          exact h.joining
      | stopped health running running' control =>
        refine ⟨?_, fun _ => ?_, fun _ => ⟨running', ?_⟩⟩
        · rw [health, hlength]
          exact h.inRange
        · rw [health]
          exact h.running running
        · rw [health]
          exact h.running running
      | joined health running control joining =>
        -- the join has taken the thread away
        have hclear := (h.joining joining).1
        refine ⟨?_, fun hrunning => ?_, fun hjoining => ?_⟩
        · rw [health]
          exact trivial
        · rw [running, hclear] at hrunning
          cases hrunning
        · rw [control] at hjoining
          cases hjoining

/-- The health steps of a run. -/
def healthSteps (ls : List Label) : Nat := ls.countP Label.byHealth

/-- **The thread runs out**: with `running_` clear and no start, its steps use up its rank. -/
theorem rank_run {s s' : State} {ls : List Label} (h : Threaded s) (hstopped : s.running = false)
    (hrun : Run system s ls s') (hstarts : ∀ l ∈ ls, l.starts = false) :
    Threaded s' ∧ s'.running = false ∧ s'.lb.backends.length = s.lb.backends.length ∧
      healthSteps ls + s'.health.rank s.lb.backends.length ≤
        s.health.rank s.lb.backends.length := by
  induction hrun with
  | nil => exact ⟨h, hstopped, rfl, by simp [healthSteps]⟩
  | @snoc t t' past l _ hl ih =>
    obtain ⟨hthreaded, hclear, hlength, hle⟩ :=
      ih fun l' hl' => hstarts l' (List.mem_append_left _ hl')
    have hstart := hstarts l (List.mem_append_right _ (List.mem_singleton_self l))
    have hcount : healthSteps (past ++ [l]) =
        healthSteps past + if l.byHealth = true then 1 else 0 := by
      unfold healthSteps
      rw [List.countP_append, List.countP_singleton]
    have hthreaded' := hthreaded.step hl
    rw [hcount]
    cases hhealth : l.byHealth with
    | true =>
      have hmoves := healthMoves hthreaded.inRange hl hhealth
      have hless := hmoves.rank hclear
      rw [hlength] at hless
      refine ⟨hthreaded', hmoves.running.trans hclear, hmoves.length.trans hlength, ?_⟩
      rw [if_pos rfl]
      omega
    | false =>
      obtain ⟨hout, hsame⟩ := staysOut hl hhealth hstart
      rw [if_neg Bool.false_ne_true]
      cases hout with
      | same health running control =>
        refine ⟨hthreaded', running.trans hclear, hsame.trans hlength, ?_⟩
        rw [health]
        exact hle
      | stopped health running running' control =>
        refine ⟨hthreaded', running', hsame.trans hlength, ?_⟩
        rw [health]
        exact hle
      | joined health running control joining =>
        refine ⟨hthreaded', running.trans hclear, hsame.trans hlength, ?_⟩
        rw [health]
        show _ + 0 ≤ _
        omega

theorem threaded_run {s₀ s : State} {ls : List Label} (h₀ : system.init s₀)
    (hrun : Run system s₀ ls s) : Threaded s := by
  obtain ⟨servers, rfl⟩ := h₀
  exact hrun.invariant (fun _ _ _ h hstep => h.step hstep) (threaded_create servers)

/-! ## Section 3: The Join -/

/-- A thread that is being joined, with `running_` clear. -/
structure Finishing (s : State) : Prop where
  sound : s.Sound
  threaded : Threaded s
  stopped : s.running = false

/-- The steps left to the health thread, to the call inside the lock, and to the join. -/
def State.left (s : State) : Nat :=
  s.health.rank s.lb.backends.length + weigh (CallPhase.rank s.lb.backends.length) s.calls +
    if s.control = .joining then 1 else 0

/-- A call that goes on inside the lock has less left to do. -/
theorem weigh_setCall {s : State} {call : Nat} {phase : CallPhase} (phase' : CallPhase)
    (lb : LoadBalancer) (n : Nat) (hcall : s.calls[call]? = some phase)
    (hless : phase'.rank n < phase.rank n) :
    weigh (CallPhase.rank n) (s.setCall call phase' lb).calls < weigh (CallPhase.rank n) s.calls := by
  have hset : weigh (CallPhase.rank n) (s.calls.set call phase') + phase.rank n =
      weigh (CallPhase.rank n) s.calls + phase'.rank n := weigh_set _ hcall phase'
  show weigh (CallPhase.rank n) (s.calls.set call phase') < _
  omega

theorem holder_step {s s' : State} {l : Label} (hstep : step s l = some s')
    (hholder : l.byHolder = true) :
    s'.health = s.health ∧ s'.control = s.control ∧
      s'.lb.backends.length = s.lb.backends.length ∧
      weigh (CallPhase.rank s.lb.backends.length) s'.calls <
        weigh (CallPhase.rank s.lb.backends.length) s.calls := by
  cases l with
  | passOver call tried =>
    obtain ⟨⟨hcall, hlt, -⟩, hs'⟩ := Option.ite_none_right_eq_some.mp hstep
    obtain rfl := Option.some.inj hs'
    refine ⟨rfl, rfl, rfl, weigh_setCall _ _ _ hcall ?_⟩
    show s.lb.backends.length - (tried + 1) + 3 < s.lb.backends.length - tried + 3
    omega
  | find call tried =>
    obtain ⟨⟨hcall, -, -⟩, hs'⟩ := Option.ite_none_right_eq_some.mp hstep
    obtain rfl := Option.some.inj hs'
    refine ⟨rfl, rfl, rfl, weigh_setCall _ _ _ hcall ?_⟩
    show 2 < s.lb.backends.length - tried + 3
    omega
  | giveUp call =>
    obtain ⟨hcall, hs'⟩ := Option.ite_none_right_eq_some.mp hstep
    obtain rfl := Option.some.inj hs'
    refine ⟨rfl, rfl, rfl, weigh_setCall (.returned none) s.lb _ hcall ?_⟩
    exact Nat.succ_pos _
  | count call i =>
    obtain ⟨hcall, hs'⟩ := Option.ite_none_right_eq_some.mp hstep
    obtain rfl := Option.some.inj hs'
    exact ⟨rfl, rfl, length_update _ _ _, weigh_setCall _ _ _ hcall Nat.one_lt_two⟩
  | leave call i =>
    obtain ⟨hcall, hs'⟩ := Option.ite_none_right_eq_some.mp hstep
    obtain rfl := Option.some.inj hs'
    exact ⟨rfl, rfl, length_update _ _ _,
      weigh_setCall (.returned (some i)) (s.lb.update i totalled) _ hcall Nat.zero_lt_one⟩
  | _ => cases hholder

theorem health_calls {s s' : State} {l : Label} (hstep : step s l = some s')
    (hhealth : l.byHealth = true) : s'.calls = s.calls := by
  cases l with
  | probe i socket =>
    obtain ⟨-, hs'⟩ := Option.ite_none_right_eq_some.mp hstep
    obtain ⟨b, -, rfl⟩ := Option.map_eq_some_iff.mp hs'
    rfl
  | test | lockRound | confirm | seeDown | markUp | strike | thirdStrike | strikeOut | unlockRound
    | sleep =>
    obtain ⟨-, hs'⟩ := Option.ite_none_right_eq_some.mp hstep
    obtain rfl := Option.some.inj hs'
    rfl
  | _ => cases hhealth

/-- Each of these steps leaves fewer of them. -/
theorem Finishing.step {s s' : State} (h : Finishing s) {l : Label}
    (hstep : LockedBalancer.step s l = some s') (hl : l.finishes = true) :
    Finishing s' ∧ s'.left < s.left := by
  have hsound := h.sound.step hstep
  have hthreaded := h.threaded.step hstep
  unfold State.left
  cases hhealth : l.byHealth with
  | true =>
    have hmoves := healthMoves h.threaded.inRange hstep hhealth
    have hless := hmoves.rank h.stopped
    refine ⟨⟨hsound, hthreaded, hmoves.running.trans h.stopped⟩, ?_⟩
    rw [hmoves.length, health_calls hstep hhealth, hmoves.control]
    omega
  | false =>
    cases hholder : l.byHolder with
    | true =>
      obtain ⟨hsame, hcontrol, hlength, hless⟩ := holder_step hstep hholder
      have hstart : l.starts = false := by cases l <;> first | rfl | cases hholder
      obtain ⟨hout, -⟩ := staysOut hstep hhealth hstart
      have hstopped : s'.running = false := by
        cases hout with
        | same health running control => exact running.trans h.stopped
        | stopped health running running' control => exact running'
        | joined health running control joining => exact running.trans h.stopped
      refine ⟨⟨hsound, hthreaded, hstopped⟩, ?_⟩
      rw [hlength, hsame, hcontrol]
      omega
    | false =>
      cases l with
      | join =>
        obtain ⟨⟨hjoining, hfinished⟩, hs'⟩ := Option.ite_none_right_eq_some.mp hstep
        obtain rfl := Option.some.inj hs'
        refine ⟨⟨hsound, hthreaded, h.stopped⟩, ?_⟩
        rw [hjoining, hfinished]
        exact Nat.lt_succ_self _
      | _ => simp [Label.finishes, hhealth, hholder] at hl

/-- The system of these steps. -/
def finishing : System State Label := system.restrict fun _ l _ => l.finishes = true

/-- The call that holds the lock can go on. -/
theorem Finishing.holder_enabled {s : State} (h : Finishing s) {call : Nat}
    (hlock : s.lock = some (.caller call)) : ∃ l s', Label.finishes l = true ∧ LockedBalancer.step s l = some s' := by
  obtain ⟨phase, hcall, hinside⟩ :=
    (Option.any_eq_true _ _).mp ((h.sound.owner (.caller call)).mpr hlock)
  cases phase with
  | calling => cases hinside
  | returned result => cases hinside
  | found i => exact ⟨.count call i, _, rfl, if_pos hcall⟩
  | counted i => exact ⟨.leave call i, _, rfl, if_pos hcall⟩
  | scanning tried =>
    obtain ⟨hle, -⟩ := h.sound.passed call tried hcall
    rcases Nat.lt_or_eq_of_le hle with hlt | rfl
    · cases halive : s.lb.aliveAt s.lb.currentPosition with
      | true => exact ⟨.find call tried, _, rfl, if_pos ⟨hcall, hlt, halive⟩⟩
      | false => exact ⟨.passOver call tried, _, rfl, if_pos ⟨hcall, hlt, halive⟩⟩
    · exact ⟨.giveUp call, _, rfl, if_pos hcall⟩

/-- A socket that cannot be opened. -/
def closedSocket : ProbeSocket where
  opened := false
  inetPton := fun _ => none
  connects := fun _ _ => false
  received := none

/-- **No deadlock**: as long as the thread is joined one of these steps can be taken. -/
theorem Finishing.enabled {s : State} (h : Finishing s) (hjoining : s.control = .joining) :
    ∃ l s', Label.finishes l = true ∧ LockedBalancer.step s l = some s' := by
  have hrange := h.threaded.inRange
  cases hhealth : s.health with
  | absent => exact absurd hhealth (h.threaded.joining hjoining).2
  | finished => exact ⟨.join, _, rfl, if_pos ⟨hjoining, hhealth⟩⟩
  | top => exact ⟨.test, _, rfl, if_pos hhealth⟩
  | asleep ticks => exact ⟨.sleep ticks, _, rfl, if_pos hhealth⟩
  | recovering i => exact ⟨.markUp i, _, rfl, if_pos hhealth⟩
  | failing i => exact ⟨.strikeOut i, _, rfl, if_pos hhealth⟩
  | checking i =>
    rw [hhealth] at hrange
    rcases Nat.lt_or_eq_of_le hrange with hlt | rfl
    · have hb := List.getElem?_eq_getElem hlt
      refine ⟨.probe i closedSocket,
        { s with health := .judged i (checkHealth closedSocket s.lb.backends[i]) }, rfl, ?_⟩
      refine (if_pos hhealth).trans ?_
      rw [hb]
      rfl
    · exact ⟨.unlockRound, _, rfl, if_pos hhealth⟩
  | judged i alive =>
    cases alive with
    | true =>
      cases hflag : s.lb.aliveAt i with
      | true => exact ⟨.confirm i, _, rfl, if_pos ⟨hhealth, hflag⟩⟩
      | false => exact ⟨.seeDown i, _, rfl, if_pos ⟨hhealth, hflag⟩⟩
    | false =>
      cases hout : strikesOut s.lb i with
      | true => exact ⟨.thirdStrike i, _, rfl, if_pos ⟨hhealth, hout⟩⟩
      | false => exact ⟨.strike i, _, rfl, if_pos ⟨hhealth, hout⟩⟩
  | waiting =>
    cases hlock : s.lock with
    | none => exact ⟨.lockRound, _, rfl, if_pos ⟨hhealth, hlock⟩⟩
    | some holder =>
      cases holder with
      | caller call => exact h.holder_enabled hlock
      | health => exact absurd hlock (h.sound.not_held hhealth rfl)

/-- After the join a flag goes down only. -/
theorem aliveAt_other {s s' : State} {l : Label} (hstep : step s l = some s')
    (hhealth : l.byHealth = false) {i : Nat} (halive : s'.lb.aliveAt i = true) :
    s.lb.aliveAt i = true := by
  cases l with
  | arrive =>
    obtain rfl := Option.some.inj hstep
    exact halive
  | lock | passOver | find | giveUp | join =>
    obtain ⟨-, hs'⟩ := Option.ite_none_right_eq_some.mp hstep
    obtain rfl := Option.some.inj hs'
    exact halive
  | count call j =>
    obtain ⟨-, hs'⟩ := Option.ite_none_right_eq_some.mp hstep
    obtain rfl := Option.some.inj hs'
    exact aliveAt_update (f := counted) (fun _ hb => hb) halive
  | leave call j =>
    obtain ⟨-, hs'⟩ := Option.ite_none_right_eq_some.mp hstep
    obtain rfl := Option.some.inj hs'
    exact aliveAt_update (f := totalled) (fun _ hb => hb) halive
  | release j =>
    obtain rfl := Option.some.inj hstep
    exact aliveAt_update (f := fun b => { b with activeConnections := b.activeConnections - 1 })
      (fun _ hb => hb) halive
  | markDown j =>
    obtain rfl := Option.some.inj hstep
    exact aliveAt_update (f := fun b => { b with isAlive := false }) nofun halive
  | start | stop =>
    obtain ⟨-, hs'⟩ := Option.ite_none_right_eq_some.mp hstep
    obtain rfl := Option.some.inj hs'
    split at halive <;> exact halive
  | _ => cases hhealth

/-- Without a thread and without a start nothing is checked. -/
theorem unchecked_run {s s' : State} {ls : List Label} (h : Threaded s)
    (hstopped : s.running = false) (habsent : s.health = .absent) (hrun : Run system s ls s')
    (hstarts : ∀ l ∈ ls, l.starts = false) :
    healthSteps ls = 0 ∧ ∀ i, s'.lb.aliveAt i = true → s.lb.aliveAt i = true := by
  have hnone : healthSteps ls = 0 := by
    obtain ⟨-, -, -, hle⟩ := rank_run h hstopped hrun hstarts
    have hzero : s.health.rank s.lb.backends.length = 0 := by
      rw [habsent]
      rfl
    omega
  refine ⟨hnone, ?_⟩
  have hother : ∀ l ∈ ls, l.byHealth = false := by
    intro l hl
    cases hhealth : l.byHealth with
    | false => rfl
    | true => exact absurd hnone (Nat.ne_of_gt (List.countP_pos_iff.mpr ⟨l, hl, hhealth⟩))
  clear hnone hstarts
  induction hrun with
  | nil => exact fun _ halive => halive
  | snoc l _ hl ih =>
    intro i halive
    have hlast := hother l (List.mem_append_right _ (List.mem_singleton_self l))
    exact ih (fun l' hl' => hother l' (List.mem_append_left _ hl')) i
      (aliveAt_other hl hlast halive)

theorem rank_le {n : Nat} {phase : HealthPhase} : phase.rank n ≤ 3 * n + 4 := by
  cases phase with
  | checking i =>
    show 3 * (n - i) + 3 ≤ 3 * n + 4
    omega
  | judged i alive =>
    show 3 * (n - i) + 2 ≤ 3 * n + 4
    omega
  | recovering i | failing i =>
    show 3 * (n - i) + 1 ≤ 3 * n + 4
    omega
  | waiting => exact Nat.le_refl _
  | absent | finished => exact Nat.zero_le _
  | top | asleep ticks =>
    show _ ≤ 3 * n + 4
    simp only [HealthPhase.rank]
    omega

/-- **`stop_health_checks` comes to an end.** Once it has cleared `running_`:

    * the health thread, the call that holds the lock and the join can always finish it, and
      no schedule of these goes on for ever;
    * whatever the other threads do, the health thread takes at most three steps for each
      backend and four more;
    * and when it has returned, there is no check and no flag goes up until the checks are
      started again. -/
theorem stop_ends {s₀ s : State} {past : List Label} (h₀ : system.init s₀)
    (hpast : Run system s₀ past s) (hjoining : s.control = .joining) :
    (∃ ls s', Run finishing s ls s' ∧ s'.control = .idle) ∧
      (∀ ls s', Run finishing s ls s' → ls.length ≤ s.left) ∧
      ∀ ls s', Run system s ls s' → (∀ l ∈ ls, l.starts = false) →
        healthSteps ls ≤ 3 * s.lb.backends.length + 4 ∧
          (s'.control = .idle → ∀ ms s'', Run system s' ms s'' → (∀ l ∈ ms, l.starts = false) →
            healthSteps ms = 0 ∧ ∀ i, s''.lb.aliveAt i = true → s'.lb.aliveAt i = true) := by
  have hthreaded := threaded_run h₀ hpast
  have hstopped := (hthreaded.joining hjoining).1
  have hfinishing : Finishing s := ⟨sound_run h₀ hpast, hthreaded, hstopped⟩
  have hless : ∀ t l t', Finishing t → finishing.step t l t' → Finishing t' ∧ t'.left < t.left :=
    fun t l t' ht hl => ht.step hl.1 hl.2
  refine ⟨?_, ?_, ?_⟩
  · obtain ⟨ls, s', hrun, hstuck⟩ := exists_stuck hless hfinishing
    have hend := (hrun.length_le hless hfinishing).1
    refine ⟨ls, s', hrun, ?_⟩
    cases hcontrol : s'.control with
    | idle => rfl
    | joining =>
      obtain ⟨l, s'', hl, hstep⟩ := hend.enabled hcontrol
      exact absurd ⟨hstep, hl⟩ (hstuck l s'')
  · intro ls s' hrun
    obtain ⟨-, hle⟩ := hrun.length_le hless hfinishing
    omega
  · intro ls s' hrun hstarts
    obtain ⟨hthreaded', hstopped', -, hle⟩ := rank_run hthreaded hstopped hrun hstarts
    have hrank : s.health.rank s.lb.backends.length ≤ 3 * s.lb.backends.length + 4 := rank_le
    refine ⟨by omega, fun hidle ms s'' hrun' hstarts' => ?_⟩
    have habsent := (sound_run h₀ (hpast.append hrun)).absent hidle hstopped'
    exact unchecked_run hthreaded' hstopped' habsent hrun' hstarts'

/-- The checks are stopped in the middle of a round, while a call waits for the lock. -/
def stoppedInRound : List Label := [.start 5, .test, .arrive, .lockRound, .stop]

theorem stop_ends_inRound :
    ∃ s, replay step { lb := create [(bytes "127.0.0.1", 3000)] } stoppedInRound = some s ∧
      (∃ ls s', Run finishing s ls s' ∧ s'.control = .idle) ∧
      (∀ ls s', Run finishing s ls s' → ls.length ≤ s.left) ∧
      ∀ ls s', Run system s ls s' → (∀ l ∈ ls, l.starts = false) →
        healthSteps ls ≤ 3 * s.lb.backends.length + 4 ∧
          (s'.control = .idle → ∀ ms s'', Run system s' ms s'' → (∀ l ∈ ms, l.starts = false) →
            healthSteps ms = 0 ∧ ∀ i, s''.lb.aliveAt i = true → s'.lb.aliveAt i = true) := by
  have hsome : ((replay step { lb := create [(bytes "127.0.0.1", 3000)] } stoppedInRound).any
      fun s => s.control = .joining) = true := by decide +kernel
  obtain ⟨s, hs, hjoining⟩ := (Option.any_eq_true _ _).mp hsome
  exact ⟨s, hs, stop_ends ⟨_, rfl⟩ (Run.of_replay hs) (of_decide_eq_true hjoining)⟩

end LockedBalancer

end VeloxServe
