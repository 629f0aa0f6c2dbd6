import VeloxServe.Framework.Refinement
import VeloxServe.Modules.LockedBalancer

/-! # The Balancer is Atomic

    What the threads do to the balancer under its lock, as a run of the balancer
    whose operations are single steps.

    * **Effect**: where a call or a check takes effect. What the threads do to
      the backends is, in the order of the effects, a run of `LoadBalancer.system`,
      and every call returns what it returns there.
    * **Seen**: the balancer as if the thread that holds the lock had already done
      what has taken effect, and nothing else.
-/

namespace VeloxServe

namespace LockedBalancer

open StdString LTS LoadBalancer

/-! ## Section 1: Effects -/

/-- A balancer whose operations are single steps, with the calls of `get_next`: what a
    call has returned, once it has taken effect. -/
structure Atomic where
  lb : LoadBalancer
  calls : List (Option (Option Nat)) := []

inductive AtomicLabel where
  | arrive
  | getNext (call : Nat)
  | release (backend : Nat)
  | markDown (backend : Nat)
  | check (backend : Nat) (alive : Bool)

def Atomic.step (t : Atomic) : AtomicLabel → Option Atomic
  | .arrive => some { t with calls := t.calls ++ [none] }
  | .getNext call =>
    if t.calls[call]? = some none then
      some
        { lb := t.lb.getNext.2
          calls := t.calls.set call (some (t.lb.getNext.1.map Prod.fst)) }
    else none
  | .release i => some { t with lb := t.lb.release i }
  | .markDown i => some { t with lb := t.lb.markDown i }
  | .check i alive => some { t with lb := t.lb.check i alive }

def atomic : System Atomic AtomicLabel :=
  System.ofStep (fun t => ∃ servers, t = { lb := create servers }) Atomic.step

/-- The operation of the balancer. -/
def AtomicLabel.operation : AtomicLabel → Option Operation
  | .arrive => none
  | .getNext _ => some .getNext
  | .release i => some (.release i)
  | .markDown i => some (.markDown i)
  | .check i alive => some (.check i alive)

/-- **Where the steps take effect**: a call when it has found its backend or has tried
    all, a check when it is done with the flag. -/
def Label.effect : Label → Option AtomicLabel
  | .arrive => some .arrive
  | .find call _ => some (.getNext call)
  | .giveUp call => some (.getNext call)
  | .release i => some (.release i)
  | .markDown i => some (.markDown i)
  | .confirm i => some (.check i true)
  | .markUp i => some (.check i true)
  | .strike i => some (.check i false)
  | .strikeOut i => some (.check i false)
  | _ => none

/-- What a call returns, once that is settled. -/
def CallPhase.outcome : CallPhase → Option (Option Nat)
  | .found i => some (some i)
  | .counted i => some (some i)
  | .returned result => some result
  | _ => none

/-! ## Section 2: The Balancer as It Is Seen -/

/-- One failed check fewer. -/
def unstruck (b : Backend) : Backend := { b with failedChecks := b.failedChecks - 1 }

/-- What a call under way still has to do, or has done too early. -/
def CallPhase.settle (lb : LoadBalancer) : CallPhase → LoadBalancer
  | .scanning tried => rewind tried lb
  | .found i => lb.update i Backend.taken
  | .counted i => lb.update i totalled
  | _ => lb

def HealthPhase.settle (lb : LoadBalancer) : HealthPhase → LoadBalancer
  | .failing i => lb.update i unstruck
  | _ => lb

/-- **The balancer as it is seen**: as if the thread that holds the lock had done all of
    what has taken effect, and nothing else. -/
def State.seen (s : State) : LoadBalancer :=
  match s.lock with
  | none => s.lb
  | some (.caller call) => (s.calls[call]?).elim s.lb (CallPhase.settle s.lb)
  | some .health => s.health.settle s.lb

/-! ## Section 3: Backends One by One -/

section

variable {lb : LoadBalancer} {i j : Nat} {f g : Backend → Backend}

theorem update_congr (h : ∀ b, lb.backends[i]? = some b → f b = g b) :
    lb.update i f = lb.update i g := by
  unfold LoadBalancer.update
  congr 1
  refine List.ext_getElem? fun k => ?_
  rw [List.getElem?_modify, List.getElem?_modify]
  by_cases hk : i = k
  · obtain rfl := hk
    cases hb : lb.backends[i]? with
    | none => rfl
    | some b => simp [h b hb]
  · simp [hk]

theorem update_update (lb : LoadBalancer) (i : Nat) (f g : Backend → Backend) :
    (lb.update i f).update i g = lb.update i fun b => g (f b) := by
  unfold LoadBalancer.update
  congr 1
  exact List.modify_modify_eq _ _ _ _

theorem update_id (h : ∀ b, lb.backends[i]? = some b → f b = b) : lb.update i f = lb := by
  have hid : lb.update i (fun b => b) = lb := by
    unfold LoadBalancer.update
    congr 1
    exact List.modify_id _ _
  exact (update_congr h).trans hid

/-- Changes of backends commute when they do so on each. -/
theorem update_comm (lb : LoadBalancer) (i j : Nat) (h : ∀ b, f (g b) = g (f b)) :
    (lb.update i f).update j g = (lb.update j g).update i f := by
  by_cases hij : i = j
  · obtain rfl := hij
    rw [update_update, update_update]
    exact update_congr fun b _ => (h b).symm
  · unfold LoadBalancer.update
    congr 1
    exact List.modify_modify_ne _ _ _ hij

/-- The third failed check takes a backend out; its flag may be down already. -/
theorem recordCheck_unstruck {b : Backend} (h : 3 ≤ b.failedChecks.toInt) :
    (unstruck b).recordCheck false = { b with isAlive := false } := by
  have hcount : (unstruck b).failedChecks + 1 = b.failedChecks := BitVec.sub_add_cancel _ _
  rw [recordCheck_false, hcount, decide_eq_true h, Bool.not_true, Bool.and_false]
  rfl

theorem unstruck_struck (b : Backend) : unstruck (struck b) = b := by
  have hcount : b.failedChecks + 1 - 1 = b.failedChecks := BitVec.add_sub_cancel _ _
  unfold unstruck struck
  dsimp only
  rw [hcount]

@[simp] theorem rewind_zero (lb : LoadBalancer) : rewind 0 lb = lb := by
  simp [rewind]

/-- **A scan that has passed over some backends** and comes to one that is up returns it. -/
theorem getNext_found {k : Nat} (hk : k < lb.backends.length)
    (hpassed : (rewind k lb).PassesOver k) (halive : lb.aliveAt lb.currentPosition = true) :
    ∃ b, (rewind k lb).getNext =
      (some (lb.currentPosition, b), (lb.advance 1).update lb.currentPosition Backend.taken) := by
  have hscan := (rewind k lb).getNext_scan
  obtain ⟨b, hb, hbalive⟩ := (Option.any_eq_true _ _).mp halive
  generalize (rewind k lb).getNext = result at hscan ⊢
  cases hscan with
  | found j backend tried passed here alive =>
    obtain hlt | rfl | hgt := Nat.lt_trichotomy j k
    · -- it would have been passed over
      have hdead := hpassed j hlt backend here
      rw [alive] at hdead
      cases hdead
    · rw [positionAfter_rewind, ← advance_advance, advance_rewind]
      exact ⟨backend, rfl⟩
    · rw [← positionAfter_rewind lb k] at hb
      have hdead := passed k hgt b hb
      rw [hbalive] at hdead
      cases hdead
  | exhausted passed =>
    rw [← positionAfter_rewind lb k] at hb
    have hdead := passed k hk b hb
    rw [hbalive] at hdead
    cases hdead

/-- One that has passed over all of them returns nothing. -/
theorem getNext_none (hpassed : (rewind lb.backends.length lb).PassesOver lb.backends.length) :
    (rewind lb.backends.length lb).getNext = (none, lb) := by
  have hscan := (rewind lb.backends.length lb).getNext_scan
  generalize (rewind lb.backends.length lb).getNext = result at hscan ⊢
  cases hscan with
  | found j backend tried passed here alive =>
    have hdead := hpassed j tried backend here
    rw [alive] at hdead
    cases hdead
  | exhausted passed =>
    have hlength : (rewind lb.backends.length lb).backends.length = lb.backends.length := rfl
    rw [hlength, advance_rewind]

end

/-! ## Section 4: Refinement -/

namespace State

section

variable {s s' : State}

/-- The state as it is seen. -/
def toAtomic (s : State) : Atomic where
  lb := s.seen
  calls := s.calls.map CallPhase.outcome

theorem seen_free (h : s.lock = none) : s.seen = s.lb := by
  unfold seen
  rw [h]

theorem seen_caller {call : Nat} {phase : CallPhase} (h : s.lock = some (.caller call))
    (hcall : s.calls[call]? = some phase) : s.seen = phase.settle s.lb := by
  unfold seen
  rw [h]
  dsimp only
  rw [hcall]
  rfl

theorem seen_health (h : s.lock = some .health) : s.seen = s.health.settle s.lb := by
  unfold seen
  rw [h]

/-- What the health thread does outside the lock is not seen. -/
theorem seen_congr (hlb : s'.lb = s.lb) (hcalls : s'.calls = s.calls) (hlock : s'.lock = s.lock)
    (hout : s.lock ≠ some .health) : s'.seen = s.seen := by
  unfold seen
  rw [hlb, hcalls, hlock]
  split
  · rfl
  · rfl
  · next hheld => exact absurd hheld hout

/-- A change of one backend that does not meddle with what the holder of the lock does. -/
theorem seen_update (s : State) (i : Nat) {f : Backend → Backend}
    (htaken : ∀ b, f (Backend.taken b) = Backend.taken (f b))
    (htotalled : ∀ b, f (totalled b) = totalled (f b))
    (hunstruck : ∀ b, f (unstruck b) = unstruck (f b)) :
    State.seen { s with lb := s.lb.update i f } = s.seen.update i f := by
  unfold seen
  dsimp only
  split
  · rfl
  · next call _ =>
    cases hcall : s.calls[call]? with
    | none => rfl
    | some phase =>
      cases phase with
      | calling => rfl
      | scanning tried => rfl
      | found j => exact update_comm s.lb i j htaken
      | counted j => exact update_comm s.lb i j htotalled
      | returned result => rfl
  · cases s.health with
    | failing j => exact update_comm s.lb i j hunstruck
    | _ => rfl

/-- What is settled about a call. -/
theorem outcome_of_call {call : Nat} {phase : CallPhase} (hcall : s.calls[call]? = some phase) :
    s.toAtomic.calls[call]? = some phase.outcome := by
  show (s.calls.map CallPhase.outcome)[call]? = some phase.outcome
  rw [List.getElem?_map, hcall]
  rfl

theorem map_setCall {call : Nat} (phase' : CallPhase) (lb : LoadBalancer) :
    (s.setCall call phase' lb).calls.map CallPhase.outcome =
      (s.calls.map CallPhase.outcome).set call phase'.outcome :=
  List.map_set

/-- A call whose outcome is not settled by the step. -/
theorem map_setCall_same {call : Nat} {phase phase' : CallPhase} (lb : LoadBalancer)
    (hcall : s.calls[call]? = some phase) (hsame : phase'.outcome = phase.outcome) :
    (s.setCall call phase' lb).calls.map CallPhase.outcome = s.calls.map CallPhase.outcome := by
  rw [map_setCall, hsame]
  refine List.ext_getElem? fun k => ?_
  rw [List.getElem?_set, List.getElem?_map]
  split
  · next hk =>
    obtain rfl := hk
    obtain ⟨hlt, -⟩ := List.getElem?_eq_some_iff.mp hcall
    rw [List.length_map, if_pos hlt, hcall]
    rfl
  · rfl

theorem seen_setCall {call : Nat} {phase : CallPhase} (phase' : CallPhase) (lb : LoadBalancer)
    (h : s.lock = some (.caller call)) (hcall : s.calls[call]? = some phase) :
    (s.setCall call phase' lb).seen = phase'.settle lb := by
  obtain ⟨hlt, -⟩ := List.getElem?_eq_some_iff.mp hcall
  have hget : (s.setCall call phase' lb).calls[call]? = some phase' := by
    show (s.calls.set call phase')[call]? = some phase'
    rw [List.getElem?_set, if_pos rfl, if_pos hlt]
  exact seen_caller h hget

theorem toAtomic_congr (hseen : s'.seen = s.seen)
    (hcalls : s'.calls.map CallPhase.outcome = s.calls.map CallPhase.outcome) :
    s'.toAtomic = s.toAtomic := by
  unfold toAtomic
  rw [hseen, hcalls]

/-- **The other steps are not seen.** -/
theorem Sound.hidden (h : s.Sound) {l : Label} (hstep : LockedBalancer.step s l = some s')
    (hl : l.effect = none) : s'.toAtomic = s.toAtomic := by
  cases l with
  | lock call =>
    obtain ⟨⟨hcall, hfree⟩, hs'⟩ := Option.ite_none_right_eq_some.mp hstep
    obtain rfl := Option.some.inj hs'
    refine toAtomic_congr ?_ (map_setCall_same s.lb hcall rfl)
    -- a scan that has tried nothing has moved nothing
    obtain ⟨hlt, -⟩ := List.getElem?_eq_some_iff.mp hcall
    have hget : (s.calls.set call (.scanning 0))[call]? = some (.scanning 0) := by
      rw [List.getElem?_set, if_pos rfl, if_pos hlt]
    have hseen : State.seen { s.setCall call (.scanning 0) s.lb with lock := some (.caller call) } =
        rewind 0 s.lb :=
      seen_caller (s := { s.setCall call (.scanning 0) s.lb with lock := some (.caller call) }) rfl
        hget
    rw [seen_free hfree, hseen, rewind_zero]
  | passOver call tried =>
    obtain ⟨⟨hcall, -, -⟩, hs'⟩ := Option.ite_none_right_eq_some.mp hstep
    obtain rfl := Option.some.inj hs'
    have hlock := h.caller hcall rfl
    refine toAtomic_congr ?_ (map_setCall_same _ hcall rfl)
    rw [seen_setCall _ _ hlock hcall, seen_caller hlock hcall]
    -- the counter is put back by as much as the scan has moved it
    exact rewind_advance s.lb tried
  | count call i =>
    obtain ⟨hcall, hs'⟩ := Option.ite_none_right_eq_some.mp hstep
    obtain rfl := Option.some.inj hs'
    have hlock := h.caller hcall rfl
    refine toAtomic_congr ?_ (map_setCall_same _ hcall rfl)
    rw [seen_setCall _ _ hlock hcall, seen_caller hlock hcall]
    -- both increments have been seen since the flag was found up
    exact update_update s.lb i counted totalled
  | leave call i =>
    obtain ⟨hcall, hs'⟩ := Option.ite_none_right_eq_some.mp hstep
    obtain rfl := Option.some.inj hs'
    have hlock := h.caller hcall rfl
    refine toAtomic_congr ?_ (map_setCall_same (s.lb.update i totalled) hcall rfl)
    rw [seen_caller hlock hcall]
    exact seen_free rfl
  | start interval =>
    obtain ⟨hidle, hs'⟩ := Option.ite_none_right_eq_some.mp hstep
    obtain rfl := Option.some.inj hs'
    cases hrunning : s.running with
    | true => rfl
    | false =>
      have hout := h.not_held (h.absent hidle hrunning) rfl
      exact toAtomic_congr (seen_congr rfl rfl rfl hout) rfl
  | stop =>
    obtain ⟨-, hs'⟩ := Option.ite_none_right_eq_some.mp hstep
    obtain rfl := Option.some.inj hs'
    cases s.running with
    | true => rfl
    | false => rfl
  | join =>
    obtain ⟨⟨-, hfinished⟩, hs'⟩ := Option.ite_none_right_eq_some.mp hstep
    obtain rfl := Option.some.inj hs'
    exact toAtomic_congr (seen_congr rfl rfl rfl (h.not_held hfinished rfl)) rfl
  | test =>
    obtain ⟨htop, hs'⟩ := Option.ite_none_right_eq_some.mp hstep
    obtain rfl := Option.some.inj hs'
    exact toAtomic_congr (seen_congr rfl rfl rfl (h.not_held htop rfl)) rfl
  | lockRound =>
    obtain ⟨⟨-, hfree⟩, hs'⟩ := Option.ite_none_right_eq_some.mp hstep
    obtain rfl := Option.some.inj hs'
    refine toAtomic_congr ?_ rfl
    rw [seen_free hfree]
    rfl
  | probe i socket =>
    obtain ⟨hchecking, hs'⟩ := Option.ite_none_right_eq_some.mp hstep
    obtain ⟨b, -, rfl⟩ := Option.map_eq_some_iff.mp hs'
    have hheld := h.held hchecking rfl
    refine toAtomic_congr ?_ rfl
    rw [seen_health hheld, hchecking]
    exact seen_health hheld
  | seeDown i =>
    obtain ⟨⟨hjudged, -⟩, hs'⟩ := Option.ite_none_right_eq_some.mp hstep
    obtain rfl := Option.some.inj hs'
    have hheld := h.held hjudged rfl
    refine toAtomic_congr ?_ rfl
    rw [seen_health hheld, hjudged]
    exact seen_health hheld
  | thirdStrike i =>
    obtain ⟨⟨hjudged, -⟩, hs'⟩ := Option.ite_none_right_eq_some.mp hstep
    obtain rfl := Option.some.inj hs'
    have hheld := h.held hjudged rfl
    -- the strike is not seen before the flag is down
    have hseen : State.seen { s with lb := s.lb.update i struck, health := .failing i } =
        (s.lb.update i struck).update i unstruck := seen_health hheld
    refine toAtomic_congr ?_ rfl
    rw [hseen, seen_health hheld, hjudged, update_update]
    exact update_id fun b _ => unstruck_struck b
  | unlockRound =>
    obtain ⟨hchecking, hs'⟩ := Option.ite_none_right_eq_some.mp hstep
    obtain rfl := Option.some.inj hs'
    refine toAtomic_congr ?_ rfl
    rw [seen_health (h.held hchecking rfl), hchecking]
    exact seen_free rfl
  | sleep ticks =>
    obtain ⟨hasleep, hs'⟩ := Option.ite_none_right_eq_some.mp hstep
    obtain rfl := Option.some.inj hs'
    exact toAtomic_congr (seen_congr rfl rfl rfl (h.not_held hasleep rfl)) rfl
  | _ => cases hl

/-- A check that has taken effect, with the health thread at the next backend. -/
theorem atomic_check (s : State) {i : Nat} {alive : Bool} {f : Backend → Backend}
    (hheld : s.lock = some .health)
    (hcheck : s.seen.check i alive = s.lb.update i f) :
    s.toAtomic.step (.check i alive) =
      some (toAtomic { s with lb := s.lb.update i f, health := .checking (i + 1) }) := by
  have hseen : State.seen { s with lb := s.lb.update i f, health := .checking (i + 1) } =
      s.lb.update i f := seen_health hheld
  unfold toAtomic
  rw [hseen, ← hcheck]
  rfl

/-- **A step that takes effect is the step of the atomic balancer.** -/
theorem Sound.visible (h : s.Sound) {l : Label} {l' : AtomicLabel}
    (hstep : LockedBalancer.step s l = some s') (hl : l.effect = some l') :
    s.toAtomic.step l' = some s'.toAtomic := by
  cases l with
  | arrive =>
    obtain rfl := Option.some.inj hl
    obtain rfl := Option.some.inj hstep
    have hseen : State.seen { s with calls := s.calls ++ [CallPhase.calling] } = s.seen := by
      unfold seen
      dsimp only
      split
      · rfl
      · next call hlock =>
        -- the holder of the lock is not the new call
        obtain ⟨phase, hphase, -⟩ := (Option.any_eq_true _ _).mp ((h.owner (.caller call)).mpr hlock)
        obtain ⟨hlt, -⟩ := List.getElem?_eq_some_iff.mp hphase
        rw [List.getElem?_append_left hlt]
      · rfl
    unfold toAtomic
    rw [hseen, List.map_append]
    rfl
  | find call tried =>
    obtain rfl := Option.some.inj hl
    obtain ⟨⟨hcall, hlt, halive⟩, hs'⟩ := Option.ite_none_right_eq_some.mp hstep
    obtain rfl := Option.some.inj hs'
    have hlock := h.caller hcall rfl
    -- what was passed over is still down, so `get_next` finds the same backend here
    obtain ⟨b, hnext⟩ := getNext_found hlt (h.passed call tried hcall).2 halive
    have hseen : s.toAtomic.lb = rewind tried s.lb := seen_caller hlock hcall
    have hopen : s.toAtomic.calls[call]? = some none := outcome_of_call hcall
    refine (if_pos hopen).trans ?_
    rw [hseen, hnext]
    unfold toAtomic
    rw [seen_setCall _ _ hlock hcall, map_setCall]
    rfl
  | giveUp call =>
    obtain rfl := Option.some.inj hl
    obtain ⟨hcall, hs'⟩ := Option.ite_none_right_eq_some.mp hstep
    obtain rfl := Option.some.inj hs'
    have hlock := h.caller hcall rfl
    -- all were down when they were passed over, and still are
    have hnext := getNext_none (h.passed call _ hcall).2
    have hseen : s.toAtomic.lb = rewind s.lb.backends.length s.lb := seen_caller hlock hcall
    have hopen : s.toAtomic.calls[call]? = some none := outcome_of_call hcall
    have hcalls : (s.setCall call (.returned none) s.lb).calls.map CallPhase.outcome =
        (s.calls.map CallPhase.outcome).set call (CallPhase.returned none).outcome :=
      map_setCall (.returned none) s.lb
    refine (if_pos hopen).trans ?_
    rw [hseen, hnext]
    unfold toAtomic
    dsimp only
    rw [hcalls]
    rfl
  | release i =>
    obtain rfl := Option.some.inj hl
    obtain rfl := Option.some.inj hstep
    have hseen : State.seen { s with lb := s.lb.release i } = s.seen.release i := by
      -- a decrement between the increments of a call
      refine seen_update s i (fun b => ?_) (fun _ => rfl) fun _ => rfl
      simp only [Backend.taken]
      congr 1
      omega
    unfold toAtomic
    rw [hseen]
    rfl
  | markDown i =>
    obtain rfl := Option.some.inj hl
    obtain rfl := Option.some.inj hstep
    have hseen : State.seen { s with lb := s.lb.markDown i } = s.seen.markDown i :=
      seen_update s i (fun _ => rfl) (fun _ => rfl) fun _ => rfl
    unfold toAtomic
    rw [hseen]
    rfl
  | confirm i =>
    obtain rfl := Option.some.inj hl
    obtain ⟨⟨hjudged, halive⟩, hs'⟩ := Option.ite_none_right_eq_some.mp hstep
    obtain rfl := Option.some.inj hs'
    have hheld := h.held hjudged rfl
    refine atomic_check s hheld ?_
    rw [seen_health hheld, hjudged]
    refine update_congr fun b hb => ?_
    have hhere : s.lb.backends[i]? = some b := hb
    rw [aliveAt_some hhere] at halive
    simp [Backend.recordCheck, halive]
  | markUp i =>
    obtain rfl := Option.some.inj hl
    obtain ⟨hrecovering, hs'⟩ := Option.ite_none_right_eq_some.mp hstep
    obtain rfl := Option.some.inj hs'
    have hheld := h.held hrecovering rfl
    refine atomic_check s hheld ?_
    rw [seen_health hheld, hrecovering]
    refine update_congr fun b hb => ?_
    -- whatever the flag is by now, it is put up
    cases halive : b.isAlive with
    | true => simp [Backend.recordCheck, halive]
    | false => simp [Backend.recordCheck, halive]
  | strike i =>
    obtain rfl := Option.some.inj hl
    obtain ⟨⟨hjudged, hout⟩, hs'⟩ := Option.ite_none_right_eq_some.mp hstep
    obtain rfl := Option.some.inj hs'
    have hheld := h.held hjudged rfl
    refine atomic_check s hheld ?_
    rw [seen_health hheld, hjudged]
    refine update_congr fun b hb => ?_
    have hhere : s.lb.backends[i]? = some b := hb
    unfold strikesOut at hout
    rw [hhere] at hout
    have hstays : (decide (3 ≤ (b.failedChecks + 1).toInt) && b.isAlive) = false := hout
    simp only [Backend.recordCheck, struck, Bool.false_and, Bool.false_eq_true, if_false,
      Bool.not_false, if_true, hstays]
  | strikeOut i =>
    obtain rfl := Option.some.inj hl
    obtain ⟨hfailing, hs'⟩ := Option.ite_none_right_eq_some.mp hstep
    obtain rfl := Option.some.inj hs'
    have hheld := h.held hfailing rfl
    refine atomic_check s hheld ?_
    rw [seen_health hheld, hfailing]
    -- with the strike taken back, the check makes it the third again
    refine (update_update s.lb i unstruck _).trans (update_congr fun b hb => ?_)
    exact recordCheck_unstruck (h.strikes i hfailing b hb)
  | _ => cases hl

end

end State

/-- **Refinement**: the steps that take effect, in terms of the atomic balancer. -/
theorem refines :
    Refines system atomic Label.effect fun s t => s.Sound ∧ t = s.toAtomic where
  init := by
    intro s hinit
    obtain ⟨servers, rfl⟩ := hinit
    exact ⟨{ lb := create servers }, ⟨servers, rfl⟩, State.sound_create servers, rfl⟩
  visible := by
    intro s l s' t l' hstep hrel hl
    obtain ⟨hsound, rfl⟩ := hrel
    exact ⟨s'.toAtomic, hsound.visible hstep hl, hsound.step hstep, rfl⟩
  hidden := by
    intro s l s' t hstep hrel hl
    obtain ⟨hsound, rfl⟩ := hrel
    exact ⟨hsound.step hstep, (hsound.hidden hstep hl).symm⟩

/-- The calls of the atomic balancer left out. -/
theorem atomic_refines :
    Refines atomic LoadBalancer.system AtomicLabel.operation fun t lb => t.lb = lb where
  init := by
    intro t hinit
    obtain ⟨servers, rfl⟩ := hinit
    exact ⟨create servers, ⟨servers, rfl⟩, rfl⟩
  visible := by
    intro t l t' lb op hstep hrel hop
    obtain rfl := hrel
    cases l with
    | arrive => cases hop
    | getNext call =>
      obtain rfl := Option.some.inj hop
      obtain ⟨-, ht'⟩ := Option.ite_none_right_eq_some.mp hstep
      obtain rfl := Option.some.inj ht'
      exact ⟨_, system_step t.lb .getNext, rfl⟩
    | release i =>
      obtain rfl := Option.some.inj hop
      obtain rfl := Option.some.inj hstep
      exact ⟨_, system_step t.lb (.release i), rfl⟩
    | markDown i =>
      obtain rfl := Option.some.inj hop
      obtain rfl := Option.some.inj hstep
      exact ⟨_, system_step t.lb (.markDown i), rfl⟩
    | check i alive =>
      obtain rfl := Option.some.inj hop
      obtain rfl := Option.some.inj hstep
      exact ⟨_, system_step t.lb (.check i alive), rfl⟩
  hidden := by
    intro t l t' lb hstep hrel hop
    cases l with
    | arrive =>
      obtain rfl := Option.some.inj hstep
      exact hrel
    | _ => cases hop

/-- **The balancer is atomic**: whatever the threads do between each other's loads and
    stores, it comes to what the operations do as single steps, each between the beginning
    and the end of its call or check; whenever the lock is free that is the balancer as it
    is; and a call returns what `get_next` returns where it takes effect. -/
theorem run_atomic {s₀ s : State} {ls : List Label} (h₀ : system.init s₀)
    (hrun : Run system s₀ ls s) :
    Run atomic { lb := s₀.lb } (ls.filterMap Label.effect) s.toAtomic ∧
      Run LoadBalancer.system s₀.lb
        ((ls.filterMap Label.effect).filterMap AtomicLabel.operation) s.seen ∧
      (s.lock = none → s.seen = s.lb) ∧
      ∀ (call : Nat) (result : Option Nat), s.calls[call]? = some (.returned result) →
        s.toAtomic.calls[call]? = some (some result) := by
  obtain ⟨servers, rfl⟩ := h₀
  have hstart := State.sound_create servers
  obtain ⟨t, hatomic, -, rfl⟩ := refines.run hrun ⟨hstart, rfl⟩
  obtain ⟨lb, hoperations, hlb⟩ := atomic_refines.run hatomic rfl
  obtain rfl : s.seen = lb := hlb
  refine ⟨hatomic, hoperations, State.seen_free, ?_⟩
  exact fun call result hcall => State.outcome_of_call hcall

/-- A worker takes a backend down while the health thread is about to put it up, and a
    call waits for the lock meanwhile. -/
def overlapping : List Label :=
  [.arrive, .lock 0, .find 0 0, .markDown 0, .count 0 0, .leave 0 0, .start 5, .arrive, .test,
    .lockRound,
    .probe 0
      { opened := true
        inetPton := fun _ => some 0x7f000001
        connects := fun _ _ => true
        received := some (bytes "HTTP/1.1 200 OK") },
    .seeDown 0, .markDown 0, .release 0, .markUp 0, .unlockRound, .lock 1, .find 1 0]

theorem run_atomic_overlapping :
    ∃ s, replay step { lb := create [(bytes "127.0.0.1", 3000)] } overlapping = some s ∧
      Run atomic { lb := create [(bytes "127.0.0.1", 3000)] } (overlapping.filterMap Label.effect)
        s.toAtomic ∧
      Run LoadBalancer.system (create [(bytes "127.0.0.1", 3000)])
        ((overlapping.filterMap Label.effect).filterMap AtomicLabel.operation) s.seen ∧
      (s.lock = none → s.seen = s.lb) ∧
      ∀ (call : Nat) (result : Option Nat), s.calls[call]? = some (.returned result) →
        s.toAtomic.calls[call]? = some (some result) := by
  have hsome : (replay step { lb := create [(bytes "127.0.0.1", 3000)] } overlapping).isSome =
      true := by decide +kernel
  obtain ⟨s, hs⟩ := Option.isSome_iff_exists.mp hsome
  exact ⟨s, hs, run_atomic ⟨_, rfl⟩ (Run.of_replay hs)⟩

end LockedBalancer

end VeloxServe
