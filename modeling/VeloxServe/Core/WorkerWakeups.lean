import VeloxServe.Core.ThreadPool
import VeloxServe.Framework.Refinement

/-! # Sleeping Workers

    `src/core/thread_pool.cpp` with its condition variable. A worker that finds
    its predicate false goes to sleep and is woken by `notify_one`,
    `notify_all`, or for no reason. `enqueue` and `shutdown` notify after they
    have let go of the lock, so a push and its notification are two steps.

    Seen from the queue this is the pool of `ThreadPool`. No wakeup is lost: as
    long as a worker sleeps, every task that is queued has a worker on its way
    to the lock or a call that is about to notify one.
-/

namespace VeloxServe

namespace Wakeups

open LTS

/-! ## Section 1: Model -/

inductive Call where
  | calling
  /-- `shutdown_` was not set when it was tested. -/
  | admitted
  /-- The task is in the queue, `notify_one` comes next. -/
  | notifying
  | returned
  | thrown
  deriving DecidableEq

inductive Worker where
  /-- At the lock, where it tests its predicate. -/
  | ready
  /-- In `condition_.wait`. -/
  | asleep
  | running (task : Nat)
  | exited
  deriving DecidableEq

inductive Shutdown where
  | notCalled
  /-- `shutdown_` is set, `notify_all` comes next. -/
  | notifying
  | joining
  | returned
  deriving DecidableEq

structure State where
  shutdown : Bool := false
  tasks : List Nat := []
  workers : List Worker
  calls : List Call
  closing : Shutdown := .notCalled

inductive Label where
  | test (call : Nat)
  | push (call : Nat)
  /-- With the sleeping worker it wakes, if there is one. -/
  | notifyOne (call : Nat) (woken : Option Nat)
  | store
  | notifyAll
  /-- The predicate is false. -/
  | sleep (worker : Nat)
  | wakeSpuriously (worker : Nat)
  /-- The predicate is true. -/
  | takeOrExit (worker : Nat)
  | endTask (worker : Nat) (threw : Bool)
  | joined

/-- A worker that `notify_all` reaches. -/
def Worker.notified : Worker → Worker
  | .asleep => .ready
  | worker => worker

/-- One atomic step; `none` when the thread is not at this point. -/
def step (s : State) : Label → Option State
  | .test call =>
    if s.calls[call]? = some .calling then
      some { s with calls := s.calls.set call (if s.shutdown then .thrown else .admitted) }
    else none
  | .push call =>
    if s.calls[call]? = some .admitted then
      some { s with tasks := s.tasks ++ [call], calls := s.calls.set call .notifying }
    else none
  | .notifyOne call woken =>
    if s.calls[call]? = some .notifying then
      let s' := { s with calls := s.calls.set call .returned }
      match woken with
      | none => if .asleep ∈ s.workers then none else some s'
      | some worker =>
        if s.workers[worker]? = some .asleep then
          some { s' with workers := s.workers.set worker .ready }
        else none
    else none
  | .store =>
    if s.closing = .notCalled then some { s with shutdown := true, closing := .notifying }
    else none
  | .notifyAll =>
    if s.closing = .notifying then
      some { s with workers := s.workers.map Worker.notified, closing := .joining }
    else none
  | .sleep worker =>
    if s.workers[worker]? = some .ready ∧ s.tasks = [] ∧ s.shutdown = false then
      some { s with workers := s.workers.set worker .asleep }
    else none
  | .wakeSpuriously worker =>
    if s.workers[worker]? = some .asleep then
      some { s with workers := s.workers.set worker .ready }
    else none
  | .takeOrExit worker =>
    if s.workers[worker]? = some .ready then
      match s.tasks with
      | [] => if s.shutdown then some { s with workers := s.workers.set worker .exited } else none
      | task :: rest =>
        some { s with tasks := rest, workers := s.workers.set worker (.running task) }
    else none
  | .endTask worker _ =>
    match s.workers[worker]? with
    | some (.running _) => some { s with workers := s.workers.set worker .ready }
    | _ => none
  | .joined =>
    if s.closing = .joining ∧ ∀ worker ∈ s.workers, worker = .exited then
      some { s with closing := .returned }
    else none

/-- Any number of workers but none, at the lock for the first time, and any number of calls. -/
def system : System State Label :=
  System.ofStep (fun s => ∃ workers calls, 0 < workers ∧
    s = { workers := List.replicate workers .ready, calls := List.replicate calls .calling }) step

/-! ## Section 2: What Each Step Does -/

def AllExited (s : State) : Prop := ∀ worker ∈ s.workers, worker = .exited

/-- The steps, with what they require and change. -/
inductive Steps (s : State) : Label → State → Prop where
  | test (call : Nat) (here : s.calls[call]? = some .calling) :
      Steps s (.test call)
        { s with calls := s.calls.set call (if s.shutdown then .thrown else .admitted) }
  | push (call : Nat) (here : s.calls[call]? = some .admitted) :
      Steps s (.push call)
        { s with tasks := s.tasks ++ [call], calls := s.calls.set call .notifying }
  | notifyNone (call : Nat) (here : s.calls[call]? = some .notifying) (awake : .asleep ∉ s.workers) :
      Steps s (.notifyOne call none) { s with calls := s.calls.set call .returned }
  | notifyOne (call worker : Nat) (here : s.calls[call]? = some .notifying)
      (sleeps : s.workers[worker]? = some .asleep) :
      Steps s (.notifyOne call (some worker))
        { s with
          calls := s.calls.set call .returned
          workers := s.workers.set worker .ready }
  | store (here : s.closing = .notCalled) :
      Steps s .store { s with shutdown := true, closing := .notifying }
  | notifyAll (here : s.closing = .notifying) :
      Steps s .notifyAll { s with workers := s.workers.map Worker.notified, closing := .joining }
  | sleep (worker : Nat) (here : s.workers[worker]? = some .ready) (empty : s.tasks = [])
      (stays : s.shutdown = false) :
      Steps s (.sleep worker) { s with workers := s.workers.set worker .asleep }
  | wakeSpuriously (worker : Nat) (here : s.workers[worker]? = some .asleep) :
      Steps s (.wakeSpuriously worker) { s with workers := s.workers.set worker .ready }
  | exit (worker : Nat) (here : s.workers[worker]? = some .ready) (empty : s.tasks = [])
      (stopped : s.shutdown = true) :
      Steps s (.takeOrExit worker) { s with workers := s.workers.set worker .exited }
  | take (worker task : Nat) (rest : List Nat) (here : s.workers[worker]? = some .ready)
      (front : s.tasks = task :: rest) :
      Steps s (.takeOrExit worker)
        { s with tasks := rest, workers := s.workers.set worker (.running task) }
  | endTask (worker task : Nat) (threw : Bool) (here : s.workers[worker]? = some (.running task)) :
      Steps s (.endTask worker threw) { s with workers := s.workers.set worker .ready }
  | joined (here : s.closing = .joining) (all : AllExited s) :
      Steps s .joined { s with closing := .returned }

theorem steps_iff {s s' : State} {l : Label} : system.step s l s' ↔ Steps s l s' := by
  show step s l = some s' ↔ Steps s l s'
  constructor
  · intro hstep
    cases l with
    | test call =>
      obtain ⟨here, heq⟩ := Option.ite_none_right_eq_some.mp hstep
      obtain rfl := Option.some.inj heq
      exact .test call here
    | push call =>
      obtain ⟨here, heq⟩ := Option.ite_none_right_eq_some.mp hstep
      obtain rfl := Option.some.inj heq
      exact .push call here
    | notifyOne call woken =>
      obtain ⟨here, heq⟩ := Option.ite_none_right_eq_some.mp hstep
      cases woken with
      | none =>
        obtain ⟨awake, heq⟩ := Option.ite_none_left_eq_some.mp heq
        obtain rfl := Option.some.inj heq
        exact .notifyNone call here awake
      | some worker =>
        obtain ⟨sleeps, heq⟩ := Option.ite_none_right_eq_some.mp heq
        obtain rfl := Option.some.inj heq
        exact .notifyOne call worker here sleeps
    | store =>
      obtain ⟨here, heq⟩ := Option.ite_none_right_eq_some.mp hstep
      obtain rfl := Option.some.inj heq
      exact .store here
    | notifyAll =>
      obtain ⟨here, heq⟩ := Option.ite_none_right_eq_some.mp hstep
      obtain rfl := Option.some.inj heq
      exact .notifyAll here
    | sleep worker =>
      obtain ⟨⟨here, empty, stays⟩, heq⟩ := Option.ite_none_right_eq_some.mp hstep
      obtain rfl := Option.some.inj heq
      exact .sleep worker here empty stays
    | wakeSpuriously worker =>
      obtain ⟨here, heq⟩ := Option.ite_none_right_eq_some.mp hstep
      obtain rfl := Option.some.inj heq
      exact .wakeSpuriously worker here
    | takeOrExit worker =>
      obtain ⟨here, heq⟩ := Option.ite_none_right_eq_some.mp hstep
      split at heq
      · next empty =>
        obtain ⟨stopped, heq⟩ := Option.ite_none_right_eq_some.mp heq
        obtain rfl := Option.some.inj heq
        exact .exit worker here empty stopped
      · next task rest front =>
        obtain rfl := Option.some.inj heq
        exact .take worker task rest here front
    | endTask worker threw =>
      dsimp only [step] at hstep
      split at hstep
      · next task here =>
        obtain rfl := Option.some.inj hstep
        exact .endTask worker task threw here
      · cases hstep
    | joined =>
      obtain ⟨⟨here, all⟩, heq⟩ := Option.ite_none_right_eq_some.mp hstep
      obtain rfl := Option.some.inj heq
      exact .joined here all
  · intro hstep
    cases hstep with
    | test call here => exact if_pos here
    | push call here => exact if_pos here
    | notifyNone call here awake =>
      dsimp only [step]
      rw [if_pos here, if_neg awake]
    | notifyOne call worker here sleeps =>
      dsimp only [step]
      rw [if_pos here, if_pos sleeps]
    | store here => exact if_pos here
    | notifyAll here => exact if_pos here
    | sleep worker here empty stays => exact if_pos ⟨here, empty, stays⟩
    | wakeSpuriously worker here => exact if_pos here
    | exit worker here empty stopped =>
      dsimp only [step]
      rw [if_pos here, empty]
      exact if_pos stopped
    | take worker task rest here front =>
      dsimp only [step]
      rw [if_pos here, front]
    | endTask worker task threw here =>
      dsimp only [step]
      rw [here]
    | joined here all => exact if_pos ⟨here, all⟩

/-! ## Section 3: Seen from the Queue -/

def Call.seen : Call → ThreadPool.Call
  | .calling => .calling
  | .admitted => .admitted
  | .notifying => .returned
  | .returned => .returned
  | .thrown => .thrown

def Worker.seen : Worker → ThreadPool.Worker
  | .ready => .waiting
  | .asleep => .waiting
  | .running task => .running task
  | .exited => .exited

def Shutdown.seen : Shutdown → ThreadPool.Shutdown
  | .notCalled => .notCalled
  | .notifying => .joining
  | .joining => .joining
  | .returned => .returned

/-- Going to sleep and waking up cannot be seen. -/
def Label.seen : Label → Option ThreadPool.Label
  | .test call => some (.test call)
  | .push call => some (.push call)
  | .notifyOne _ _ => none
  | .store => some .store
  | .notifyAll => none
  | .sleep _ => none
  | .wakeSpuriously _ => none
  | .takeOrExit worker => some (.takeOrExit worker)
  | .endTask worker threw => some (.endTask worker threw)
  | .joined => some .joined

/-- The queue in both systems. -/
structure SeenAs (s : State) (t : ThreadPool.State) : Prop where
  shutdown : t.shutdown = s.shutdown
  tasks : t.tasks = s.tasks
  workers : t.workers = s.workers.map Worker.seen
  calls : t.calls = s.calls.map Call.seen
  closing : t.closing = s.closing.seen

section

variable {s : State} {t : ThreadPool.State}

theorem SeenAs.call (h : SeenAs s t) {call : Nat} {phase : Call} (here : s.calls[call]? = some phase) :
    t.calls[call]? = some phase.seen := by
  rw [h.calls, List.getElem?_map, here]
  rfl

theorem SeenAs.worker (h : SeenAs s t) {worker : Nat} {phase : Worker}
    (here : s.workers[worker]? = some phase) : t.workers[worker]? = some phase.seen := by
  rw [h.workers, List.getElem?_map, here]
  rfl

/-- Only a worker that has exited looks like it. -/
theorem SeenAs.allExited_iff (h : SeenAs s t) : ThreadPool.AllExited t ↔ AllExited s := by
  unfold ThreadPool.AllExited AllExited
  rw [h.workers, List.forall_mem_map]
  have hseen : ∀ worker : Worker, worker.seen = .exited ↔ worker = .exited := by
    intro worker
    cases worker <;> simp [Worker.seen]
  simp only [hseen]

theorem map_set_same {α β : Type} {f : α → β} {l : List α} {i : Nat} {a b : α} (here : l[i]? = some a)
    (hsame : f b = f a) : (l.set i b).map f = l.map f := by
  obtain ⟨hlt, rfl⟩ := List.getElem?_eq_some_iff.mp here
  rw [List.map_set, hsame, ← List.getElem_map f (h := by simpa using hlt), List.set_getElem_self]

/-- A call that goes on and looks as before. -/
theorem SeenAs.callsSet (h : SeenAs s t) {call : Nat} {phase phase' : Call}
    (here : s.calls[call]? = some phase) (hsame : phase'.seen = phase.seen) :
    t.calls = (s.calls.set call phase').map Call.seen := by
  rw [map_set_same here hsame]
  exact h.calls

theorem SeenAs.workersSet (h : SeenAs s t) {worker : Nat} {phase phase' : Worker}
    (here : s.workers[worker]? = some phase) (hsame : phase'.seen = phase.seen) :
    t.workers = (s.workers.set worker phase').map Worker.seen := by
  rw [map_set_same here hsame]
  exact h.workers

end

/-- **Refinement**: sleeping and waking leave the queue alone, and every other step
    is one of `ThreadPool`. -/
theorem refines : Refines system ThreadPool.system Label.seen SeenAs where
  init := by
    intro s h
    obtain ⟨workers, calls, hpos, rfl⟩ := h
    refine ⟨_, ⟨workers, calls, hpos, rfl⟩, rfl, rfl, ?_, ?_, rfl⟩
    · show List.replicate workers Worker.ready.seen = _
      exact List.map_replicate.symm
    · show List.replicate calls Call.calling.seen = _
      exact List.map_replicate.symm
  visible := by
    intro s l s' t l' hl h hseen
    show ∃ t', ThreadPool.step t l' = some t' ∧ _
    cases steps_iff.mp hl with
    | test call here =>
      obtain rfl := Option.some.inj hseen
      -- both load the same flag
      refine ⟨_, if_pos (h.call here), h.shutdown, h.tasks, h.workers, ?_, h.closing⟩
      show t.calls.set call (if t.shutdown then .thrown else .admitted) = _
      rw [h.calls, h.shutdown, List.map_set]
      cases s.shutdown <;> rfl
    | push call here =>
      obtain rfl := Option.some.inj hseen
      refine ⟨_, if_pos (h.call here), h.shutdown, ?_, h.workers, ?_, h.closing⟩
      · show t.tasks ++ [call] = s.tasks ++ [call]
        rw [h.tasks]
      · show t.calls.set call .returned = _
        rw [h.calls, List.map_set]
        rfl
    | store here =>
      obtain rfl := Option.some.inj hseen
      have hclosing : t.closing = .notCalled := by
        rw [h.closing, here]
        rfl
      exact ⟨_, if_pos hclosing, rfl, h.tasks, h.workers, h.calls, rfl⟩
    | exit worker here empty stopped =>
      obtain rfl := Option.some.inj hseen
      -- the pool has the same queue and flag, so its worker takes the same branch
      have hstep : ThreadPool.step t (.takeOrExit worker) =
          some { t with workers := t.workers.set worker .exited } := by
        have hwaiting : t.workers[worker]? = some .waiting := h.worker here
        dsimp only [ThreadPool.step]
        rw [if_pos hwaiting, h.tasks, empty]
        exact if_pos (h.shutdown.trans stopped)
      refine ⟨_, hstep, h.shutdown, h.tasks, ?_, h.calls, h.closing⟩
      show t.workers.set worker .exited = _
      rw [h.workers, List.map_set]
      rfl
    | take worker task rest here front =>
      obtain rfl := Option.some.inj hseen
      have hstep : ThreadPool.step t (.takeOrExit worker) =
          some { t with
            tasks := rest
            workers := t.workers.set worker (.running task)
            taken := t.taken ++ [task] } := by
        have hwaiting : t.workers[worker]? = some .waiting := h.worker here
        dsimp only [ThreadPool.step]
        rw [if_pos hwaiting, h.tasks, front]
      refine ⟨_, hstep, h.shutdown, rfl, ?_, h.calls, h.closing⟩
      show t.workers.set worker (.running task) = _
      rw [h.workers, List.map_set]
      rfl
    | endTask worker task threw here =>
      obtain rfl := Option.some.inj hseen
      have hstep : ThreadPool.step t (.endTask worker threw) =
          some { t with workers := t.workers.set worker .waiting, ended := t.ended ++ [task] } := by
        have hrunning : t.workers[worker]? = some (.running task) := h.worker here
        dsimp only [ThreadPool.step]
        rw [hrunning]
      refine ⟨_, hstep, h.shutdown, h.tasks, ?_, h.calls, h.closing⟩
      show t.workers.set worker .waiting = _
      rw [h.workers, List.map_set]
      rfl
    | joined here all =>
      obtain rfl := Option.some.inj hseen
      have hclosing : t.closing = .joining := by
        rw [h.closing, here]
        rfl
      exact ⟨_, if_pos ⟨hclosing, h.allExited_iff.mpr all⟩, h.shutdown, h.tasks, h.workers, h.calls,
        rfl⟩
    | notifyNone call here awake => cases hseen
    | notifyOne call worker here sleeps => cases hseen
    | notifyAll here => cases hseen
    | sleep worker here empty stays => cases hseen
    | wakeSpuriously worker here => cases hseen
  hidden := by
    intro s l s' t hl h hseen
    cases steps_iff.mp hl with
    | notifyNone call here awake =>
      exact ⟨h.shutdown, h.tasks, h.workers, h.callsSet here rfl, h.closing⟩
    | notifyOne call worker here sleeps =>
      exact ⟨h.shutdown, h.tasks, h.workersSet sleeps rfl, h.callsSet here rfl, h.closing⟩
    | notifyAll here =>
      -- asleep or woken, a worker is waiting to the pool
      refine ⟨h.shutdown, h.tasks, ?_, h.calls, ?_⟩
      · show t.workers = (s.workers.map Worker.notified).map Worker.seen
        rw [h.workers, List.map_map]
        congr 1
        funext worker
        cases worker <;> rfl
      · rw [h.closing, here]
        rfl
    | sleep worker here empty stays =>
      exact ⟨h.shutdown, h.tasks, h.workersSet here rfl, h.calls, h.closing⟩
    | wakeSpuriously worker here =>
      exact ⟨h.shutdown, h.tasks, h.workersSet here rfl, h.calls, h.closing⟩
    | test call here => cases hseen
    | push call here => cases hseen
    | store here => cases hseen
    | exit worker here empty stopped => cases hseen
    | take worker task rest here front => cases hseen
    | endTask worker task threw here => cases hseen
    | joined here all => cases hseen

/-- **Every run is one of the pool's**: what happens to the queue, the workers and the
    calls does not depend on who sleeps and who is woken. -/
theorem run_seen {s₀ s : State} {ls : List Label} (hinit : system.init s₀)
    (hrun : Run system s₀ ls s) :
    ∃ t₀ t, ThreadPool.system.init t₀ ∧ Run ThreadPool.system t₀ (ls.filterMap Label.seen) t ∧
      SeenAs s t := by
  obtain ⟨t₀, hinit', hseen⟩ := refines.init s₀ hinit
  obtain ⟨t, hrun', hseen'⟩ := refines.run hrun hseen
  exact ⟨t₀, t, hinit', hrun', hseen'⟩

/-- One worker, which goes to sleep before the call comes. -/
def oneSleeper : State := { workers := [.ready], calls := [.calling] }

theorem oneSleeper_init : system.init oneSleeper := ⟨1, 1, by decide, rfl⟩

/-- The task is pushed, the worker is notified and takes it, and `shutdown_` is set. -/
def woken : List Label :=
  [.sleep 0, .test 0, .push 0, .notifyOne 0 (some 0), .takeOrExit 0, .store]

theorem run_seen_woken :
    ∃ s, LTS.replay step oneSleeper woken = some s ∧
      ∃ t₀ t, ThreadPool.system.init t₀ ∧ Run ThreadPool.system t₀ (woken.filterMap Label.seen) t ∧
        SeenAs s t :=
  ⟨_, rfl, run_seen oneSleeper_init (Run.of_replay rfl)⟩

/-! ## Section 4: No Lost Wakeup -/

/-- Workers on their way to the lock. -/
def Worker.coming : Worker → Nat
  | .ready => 1
  | _ => 0

/-- Calls that have yet to notify. -/
def Call.notifies : Call → Nat
  | .notifying => 1
  | _ => 0

/-- **Invariant**: nobody sleeps over a task, or through the shutdown. -/
structure Alert (s : State) : Prop where
  served : .asleep ∈ s.workers →
    s.tasks.length ≤ weigh Worker.coming s.workers + weigh Call.notifies s.calls
  stopped : s.shutdown = true → .asleep ∈ s.workers → s.closing = .notifying
  flag : s.shutdown = true ↔ s.closing ≠ .notCalled

theorem asleep_not_mem_notified (workers : List Worker) :
    .asleep ∉ workers.map Worker.notified := by
  intro hmem
  obtain ⟨worker, -, hworker⟩ := List.mem_map.mp hmem
  cases worker <;> cases hworker

theorem alert_init {s : State} (h : system.init s) : Alert s := by
  obtain ⟨workers, calls, -, rfl⟩ := h
  refine ⟨fun hmem => ?_, fun _ hmem => ?_, by simp⟩
  · cases List.eq_of_mem_replicate hmem
  · cases List.eq_of_mem_replicate hmem

/-- **Step lemma**: a task comes with a notification, which turns into a worker at the
    lock; a worker goes to sleep only when no task is left. -/
theorem Alert.step {s s' : State} {l : Label} (h : Alert s) (hstep : Steps s l s') : Alert s' := by
  cases hstep with
  | test call here =>
    refine ⟨fun hmem => ?_, h.stopped, h.flag⟩
    have hold := h.served hmem
    have hcalls := weigh_set Call.notifies here (if s.shutdown then .thrown else .admitted)
    -- before the push there is nothing to notify of
    have hnone : Call.notifies (if s.shutdown then .thrown else .admitted) = 0 := by
      split <;> rfl
    rw [hnone] at hcalls
    simp only [Call.notifies] at hcalls
    show s.tasks.length ≤ weigh Worker.coming s.workers + weigh Call.notifies (s.calls.set call _)
    omega
  | push call here =>
    refine ⟨fun hmem => ?_, h.stopped, h.flag⟩
    have hold := h.served hmem
    -- the notification that is still to come stands for the task
    have hcalls := weigh_set Call.notifies here .notifying
    simp only [Call.notifies] at hcalls
    show (s.tasks ++ [call]).length ≤ weigh Worker.coming s.workers +
      weigh Call.notifies (s.calls.set call .notifying)
    rw [List.length_append, List.length_singleton]
    omega
  | notifyNone call here awake =>
    exact ⟨fun hmem => absurd hmem awake, fun _ hmem => absurd hmem awake, h.flag⟩
  | notifyOne call worker here sleeps =>
    have hasleep : .asleep ∈ s.workers := List.mem_of_getElem? sleeps
    refine ⟨fun _ => ?_, fun hstopped _ => h.stopped hstopped hasleep, h.flag⟩
    -- the notification turns into a worker at the lock
    have hold := h.served hasleep
    have hcalls := weigh_set Call.notifies here .returned
    have hworkers := weigh_set Worker.coming sleeps .ready
    simp only [Call.notifies] at hcalls
    simp only [Worker.coming] at hworkers
    show s.tasks.length ≤ weigh Worker.coming (s.workers.set worker .ready) +
      weigh Call.notifies (s.calls.set call .returned)
    omega
  | store here =>
    -- from here on the sleepers wait for `notify_all`
    exact ⟨h.served, fun _ _ => rfl, by simp⟩
  | notifyAll here =>
    have hnone := asleep_not_mem_notified s.workers
    refine ⟨fun hmem => absurd hmem hnone, fun _ hmem => absurd hmem hnone, ?_⟩
    have hflag : s.shutdown = true := h.flag.mpr (by simp [here])
    simp [hflag]
  | sleep worker here empty stays =>
    -- the predicate is tested under the lock: no task, no shutdown
    refine ⟨fun _ => ?_, fun hstopped => ?_, h.flag⟩
    · show s.tasks.length ≤ _
      rw [empty]
      exact Nat.zero_le _
    · have htrue : s.shutdown = true := hstopped
      rw [stays] at htrue
      cases htrue
  | wakeSpuriously worker here =>
    have hasleep : .asleep ∈ s.workers := List.mem_of_getElem? here
    refine ⟨fun _ => ?_, fun hstopped _ => h.stopped hstopped hasleep, h.flag⟩
    have hold := h.served hasleep
    have hworkers := weigh_set Worker.coming here .ready
    simp only [Worker.coming] at hworkers
    show s.tasks.length ≤ weigh Worker.coming (s.workers.set worker .ready) +
      weigh Call.notifies s.calls
    omega
  | exit worker here empty stopped =>
    -- a worker exits only when no task is left
    refine ⟨fun _ => ?_, fun hstopped hmem => ?_, h.flag⟩
    · show s.tasks.length ≤ _
      rw [empty]
      exact Nat.zero_le _
    · exact h.stopped hstopped (ThreadPool.mem_or_of_mem_set hmem (by simp))
  | take worker task rest here front =>
    -- a worker fewer at the lock, and a task fewer
    have hbefore {other : Worker} (hmem : other ∈ s.workers.set worker (.running task))
        (hne : other ≠ .running task) : other ∈ s.workers :=
      ThreadPool.mem_or_of_mem_set hmem hne
    refine ⟨fun hmem => ?_, fun hstopped hmem => ?_, h.flag⟩
    · have hold := h.served (hbefore hmem (by simp))
      have hworkers := weigh_set Worker.coming here (.running task)
      simp only [Worker.coming] at hworkers
      rw [front, List.length_cons] at hold
      show rest.length ≤ weigh Worker.coming (s.workers.set worker (.running task)) +
        weigh Call.notifies s.calls
      omega
    · exact h.stopped hstopped (hbefore hmem (by simp))
  | endTask worker task threw here =>
    -- it comes back to the lock
    have hbefore (hmem : .asleep ∈ s.workers.set worker .ready) : .asleep ∈ s.workers :=
      ThreadPool.mem_or_of_mem_set hmem (by simp)
    refine ⟨fun hmem => ?_, fun hstopped hmem => h.stopped hstopped (hbefore hmem), h.flag⟩
    have hold := h.served (hbefore hmem)
    have hworkers := weigh_set Worker.coming here .ready
    simp only [Worker.coming] at hworkers
    show s.tasks.length ≤ weigh Worker.coming (s.workers.set worker .ready) +
      weigh Call.notifies s.calls
    omega
  | joined here all =>
    -- nobody is left to sleep
    refine ⟨h.served, fun _ hmem => ?_, ?_⟩
    · cases all _ hmem
    · have hflag : s.shutdown = true := h.flag.mpr (by simp [here])
      simp [hflag]

theorem alert_of_run {s₀ s : State} {ls : List Label} (hinit : system.init s₀)
    (hrun : Run system s₀ ls s) : Alert s :=
  hrun.invariant (fun _ _ _ h hstep => h.step (steps_iff.mp hstep)) (alert_init hinit)

/-- A step of a worker or of a call that has been admitted: what is still under way. -/
def Label.underWay : Label → Bool
  | .push _ => true
  | .notifyOne _ _ => true
  | .sleep _ => true
  | .takeOrExit _ => true
  | .endTask _ _ => true
  | _ => false

/-- Nothing is under way: only a new call, a shutdown or an early wakeup can move. -/
def Quiet (s : State) : Prop := ∀ l s', system.step s l s' → l.underWay = false

/-- Then every worker sleeps or has left, and nobody is about to notify. -/
theorem Quiet.phases {s : State} (h : Quiet s) :
    (∀ worker ∈ s.workers, worker = .asleep ∨ worker = .exited) ∧ .notifying ∉ s.calls := by
  constructor
  · intro worker hmem
    obtain ⟨i, here⟩ := List.mem_iff_getElem?.mp hmem
    cases worker with
    | asleep => exact Or.inl rfl
    | exited => exact Or.inr rfl
    | running task =>
      have hstep := h _ _ (steps_iff.mpr (.endTask i task false here))
      cases hstep
    | ready =>
      -- a worker at the lock can go one way or another
      rcases htasks : s.tasks with _ | ⟨task, rest⟩
      · cases hshut : s.shutdown with
        | true =>
          have hstep := h _ _ (steps_iff.mpr (.exit i here htasks hshut))
          cases hstep
        | false =>
          have hstep := h _ _ (steps_iff.mpr (.sleep i here htasks hshut))
          cases hstep
      · have hstep := h _ _ (steps_iff.mpr (.take i task rest here htasks))
        cases hstep
  · intro hmem
    obtain ⟨call, here⟩ := List.mem_iff_getElem?.mp hmem
    by_cases hasleep : .asleep ∈ s.workers
    · obtain ⟨worker, sleeps⟩ := List.mem_iff_getElem?.mp hasleep
      have hstep := h _ _ (steps_iff.mpr (.notifyOne call worker here sleeps))
      cases hstep
    · have hstep := h _ _ (steps_iff.mpr (.notifyNone call here hasleep))
      cases hstep

/-- **No wakeup is lost**: while a worker sleeps, every task in the queue has a worker
    at the lock or a notification that is still to come, so when nothing is under way a
    task is left only if every worker has left. -/
theorem no_lost_wakeup {s : State} (h : Reachable system s) :
    (.asleep ∈ s.workers →
      s.tasks.length ≤ weigh Worker.coming s.workers + weigh Call.notifies s.calls) ∧
    (Quiet s → s.tasks ≠ [] → AllExited s) := by
  obtain ⟨s₀, ls, hinit, hrun⟩ := h
  have halert := alert_of_run hinit hrun
  refine ⟨halert.served, fun hquiet hleft worker hmem => ?_⟩
  obtain ⟨hworkers, hcalls⟩ := hquiet.phases
  rcases hworkers worker hmem with rfl | hexited
  · have hcoming : weigh Worker.coming s.workers = 0 := by
      rw [weigh_eq_zero_iff]
      intro other hother
      rcases hworkers other hother with rfl | rfl <;> rfl
    have hnotifies : weigh Call.notifies s.calls = 0 := by
      rw [weigh_eq_zero_iff]
      intro call hcall
      cases call with
      | notifying => exact absurd hcall hcalls
      | _ => rfl
    have hbound := halert.served hmem
    have hempty : s.tasks.length = 0 := by omega
    exact absurd (List.length_eq_zero_iff.mp hempty) hleft
  · exact hexited

theorem no_lost_wakeup_woken :
    ∃ s, LTS.replay step oneSleeper woken = some s ∧
      (.asleep ∈ s.workers →
        s.tasks.length ≤ weigh Worker.coming s.workers + weigh Call.notifies s.calls) ∧
      (Quiet s → s.tasks ≠ [] → AllExited s) :=
  ⟨_, rfl, no_lost_wakeup ⟨oneSleeper, woken, oneSleeper_init, Run.of_replay rfl⟩⟩

/-! ## Section 5: Shutdown -/

/-- What each thread can still do once `shutdown_` is set. -/
def Call.remaining : Call → Nat
  | .calling => 1
  | .admitted => 4
  | .notifying => 1
  | .returned => 0
  | .thrown => 0

def Worker.remaining : Worker → Nat
  | .ready => 1
  | .asleep => 2
  | .running _ => 2
  | .exited => 0

def Shutdown.remaining : Shutdown → Nat
  | .notCalled => 3
  | .notifying => 2
  | .joining => 1
  | .returned => 0

def remaining (s : State) : Nat :=
  weigh Call.remaining s.calls + weigh Worker.remaining s.workers + 2 * s.tasks.length +
    s.closing.remaining

/-- `shutdown_` is set and every sleeping worker will be notified. -/
def Stopping (s : State) : Prop := Alert s ∧ s.shutdown = true

/-- **Step lemma**: nobody goes to sleep any more, and every step gets closer to the end. -/
theorem Stopping.step {s s' : State} {l : Label} (h : Stopping s) (hl : system.step s l s') :
    Stopping s' ∧ remaining s' < remaining s := by
  have hstep := steps_iff.mp hl
  obtain ⟨halert, hstopped⟩ := h
  have halert' := halert.step hstep
  cases hstep with
  | test call here =>
    have hthrown : (if s.shutdown then Call.thrown else .admitted) = .thrown := if_pos hstopped
    have hcalls := weigh_set Call.remaining here .thrown
    simp only [Call.remaining] at hcalls
    refine ⟨⟨halert', hstopped⟩, ?_⟩
    simp only [remaining, hthrown]
    omega
  | push call here =>
    have hcalls := weigh_set Call.remaining here .notifying
    simp only [Call.remaining] at hcalls
    refine ⟨⟨halert', hstopped⟩, ?_⟩
    simp only [remaining, List.length_append, List.length_singleton]
    omega
  | notifyNone call here awake =>
    have hcalls := weigh_set Call.remaining here .returned
    simp only [Call.remaining] at hcalls
    refine ⟨⟨halert', hstopped⟩, ?_⟩
    simp only [remaining]
    omega
  | notifyOne call worker here sleeps =>
    have hcalls := weigh_set Call.remaining here .returned
    have hworkers := weigh_set Worker.remaining sleeps .ready
    simp only [Call.remaining] at hcalls
    simp only [Worker.remaining] at hworkers
    refine ⟨⟨halert', hstopped⟩, ?_⟩
    simp only [remaining]
    omega
  | store here =>
    have hcalled := halert.flag.mp hstopped
    exact absurd here hcalled
  | notifyAll here =>
    have hworkers : weigh Worker.remaining (s.workers.map Worker.notified) ≤
        weigh Worker.remaining s.workers := by
      refine weigh_map_le (fun worker => ?_) s.workers
      cases worker <;> simp [Worker.notified, Worker.remaining]
    refine ⟨⟨halert', hstopped⟩, ?_⟩
    simp only [remaining, here, Shutdown.remaining]
    omega
  | sleep worker here empty stays =>
    rw [stays] at hstopped
    cases hstopped
  | wakeSpuriously worker here =>
    have hworkers := weigh_set Worker.remaining here .ready
    simp only [Worker.remaining] at hworkers
    refine ⟨⟨halert', hstopped⟩, ?_⟩
    simp only [remaining]
    omega
  | exit worker here empty _ =>
    have hworkers := weigh_set Worker.remaining here .exited
    simp only [Worker.remaining] at hworkers
    refine ⟨⟨halert', hstopped⟩, ?_⟩
    simp only [remaining]
    omega
  | take worker task rest here front =>
    have hworkers := weigh_set Worker.remaining here (.running task)
    simp only [Worker.remaining] at hworkers
    refine ⟨⟨halert', hstopped⟩, ?_⟩
    simp only [remaining, front, List.length_cons]
    omega
  | endTask worker task threw here =>
    have hworkers := weigh_set Worker.remaining here .ready
    simp only [Worker.remaining] at hworkers
    refine ⟨⟨halert', hstopped⟩, ?_⟩
    simp only [remaining]
    omega
  | joined here all =>
    refine ⟨⟨halert', hstopped⟩, ?_⟩
    simp only [remaining, here, Shutdown.remaining]
    omega

/-- Every thread has come to its end. -/
structure Finished (s : State) : Prop where
  closing : s.closing = .returned
  workers : AllExited s
  calls : ∀ call ∈ s.calls, call = .returned ∨ call = .thrown

/-- **No deadlock**: as long as a thread has not come to its end, one of them can move. -/
theorem Stopping.finished {s : State} (h : Stopping s) (hstuck : Stuck system s) : Finished s := by
  obtain ⟨halert, hstopped⟩ := h
  have hno {l : Label} {s' : State} (hstep : Steps s l s') : False :=
    hstuck l s' (steps_iff.mpr hstep)
  have hquiet : Quiet s := fun l s' hl => absurd hl (hstuck l s')
  have hall : AllExited s := by
    intro worker hmem
    rcases hquiet.phases.1 worker hmem with rfl | hexited
    · exact (hno (.notifyAll (halert.stopped hstopped hmem))).elim
    · exact hexited
  refine ⟨?_, hall, fun call hmem => ?_⟩
  · cases hclosing : s.closing with
    | notCalled => exact absurd hclosing (halert.flag.mp hstopped)
    | notifying => exact (hno (.notifyAll hclosing)).elim
    | joining => exact (hno (.joined hclosing hall)).elim
    | returned => rfl
  · obtain ⟨i, here⟩ := List.mem_iff_getElem?.mp hmem
    cases call with
    | calling => exact (hno (.test i here)).elim
    | admitted => exact (hno (.push i here)).elim
    | notifying => exact absurd hmem hquiet.phases.2
    | returned => exact Or.inl rfl
    | thrown => exact Or.inr rfl

/-- A push finds a worker that has not left. -/
def OnTime (s : State) (l : Label) (_ : State) : Prop :=
  ∀ call, l = .push call → ¬ AllExited s

/-- Then a worker is left for every task, as in the pool without sleepers. -/
theorem served_of_onTime {s₀ s : State} {ls : List Label} (hinit : system.init s₀)
    (hrun : Run (system.restrict OnTime) s₀ ls s) : s.tasks ≠ [] → ¬ AllExited s := by
  have honTime : ∀ u l u' t l' t', OnTime u l u' → SeenAs u t → l.seen = some l' →
      ThreadPool.OnTime t l' t' := by
    intro u l u' t l' t' htime hseen hlabel call hcall
    subst hcall
    rw [hseen.allExited_iff]
    cases l with
    | push call' =>
      exact htime call' rfl
    | _ => cases hlabel
  have hrefines := refines.restrict honTime
  obtain ⟨t₀, hinit', hseen⟩ := refines.init s₀ hinit
  obtain ⟨t, hrun', hseen'⟩ := hrefines.run hrun hseen
  have hserved := ThreadPool.served_of_onTime hinit' hrun'
  rw [ThreadPool.Served, hseen'.tasks, hseen'.allExited_iff] at hserved
  exact hserved

/-- **Shutdown ends**: once `shutdown_` is set, no schedule takes more steps than a bound
    that the state gives, every schedule can be completed, and a completed one has
    `shutdown` returned, every worker left, every call answered, and no task left over
    unless a push came after the last worker had gone. -/
theorem shutdown_ends {s₀ s : State} {ls : List Label} (hinit : system.init s₀)
    (hrun : Run system s₀ ls s) (hcalled : s.closing ≠ .notCalled) :
    (∀ ms s', Run system s ms s' → ms.length ≤ remaining s) ∧
    (∀ ms s', Run system s ms s' → ∃ ns s'', Run system s' ns s'' ∧ Stuck system s'') ∧
    (∀ ms s', Run system s ms s' → Stuck system s' → Finished s' ∧
      (Run (system.restrict OnTime) s₀ (ls ++ ms) s' → s'.tasks = [])) := by
  have halert := alert_of_run hinit hrun
  have hstopping : Stopping s := ⟨halert, halert.flag.mpr hcalled⟩
  have hstep : ∀ s l s', Stopping s → system.step s l s' →
      Stopping s' ∧ remaining s' < remaining s := fun s l s' h hl => h.step hl
  refine ⟨fun ms s' hrest => ?_, fun ms s' hrest => ?_, fun ms s' hrest hstuck => ?_⟩
  · have hle := (hrest.length_le hstep hstopping).2
    omega
  · exact exists_stuck hstep (hrest.length_le hstep hstopping).1
  · have hfinished := (hrest.length_le hstep hstopping).1.finished hstuck
    refine ⟨hfinished, fun htimely => ?_⟩
    by_contra hleft
    exact served_of_onTime hinit htimely hleft hfinished.workers

theorem shutdown_ends_woken :
    ∃ s, LTS.replay step oneSleeper woken = some s ∧
      (∀ ms s', Run system s ms s' → ms.length ≤ remaining s) ∧
      (∀ ms s', Run system s ms s' → ∃ ns s'', Run system s' ns s'' ∧ Stuck system s'') ∧
      (∀ ms s', Run system s ms s' → Stuck system s' → Finished s' ∧
        (Run (system.restrict OnTime) oneSleeper (woken ++ ms) s' → s'.tasks = [])) :=
  ⟨_, rfl, shutdown_ends oneSleeper_init (Run.of_replay rfl) (by simp)⟩

end Wakeups

end VeloxServe
