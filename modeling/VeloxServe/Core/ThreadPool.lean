import Mathlib.Data.List.Nodup
import VeloxServe.Framework.System

/-! # Thread Pool

    `src/core/thread_pool.cpp` as a transition system over its atomic steps: the
    test of `shutdown_` in `enqueue`, the push under the lock, the store of
    `shutdown`, a worker's take or exit under the lock, the end of a task, and
    the return of `shutdown` once every worker is joined. A task is known by
    the number of the `enqueue` call that brings it.

    The test of `enqueue` is made outside the lock, so a push may come after
    the last worker has left.
-/

namespace VeloxServe

namespace ThreadPool

/-! ## Section 1: Model -/

/-- How far a call of `enqueue` has come. -/
inductive Call where
  | calling
  /-- `shutdown_` was not set when it was tested. -/
  | admitted
  | returned
  | thrown
  deriving DecidableEq

inductive Worker where
  /-- At the lock or asleep in `condition_.wait`. -/
  | waiting
  | running (task : Nat)
  | exited
  deriving DecidableEq

/-- How far the call of `shutdown` has come. -/
inductive Shutdown where
  | notCalled
  | joining
  | returned
  deriving DecidableEq

structure State where
  shutdown : Bool := false
  tasks : List Nat := []
  workers : List Worker
  calls : List Call
  closing : Shutdown := .notCalled
  /-- What was pushed, taken and run to its end so far. -/
  pushed : List Nat := []
  taken : List Nat := []
  ended : List Nat := []

inductive Label where
  | test (call : Nat)
  | push (call : Nat)
  | store
  | takeOrExit (worker : Nat)
  /-- Normally, or by an exception that the worker catches. -/
  | endTask (worker : Nat) (threw : Bool)
  | joined

/-- One atomic step; `none` when the thread is not at this point or sleeps. -/
def step (s : State) : Label → Option State
  | .test call =>
    if s.calls[call]? = some .calling then
      some { s with calls := s.calls.set call (if s.shutdown then .thrown else .admitted) }
    else none
  | .push call =>
    if s.calls[call]? = some .admitted then
      some { s with
        tasks := s.tasks ++ [call]
        calls := s.calls.set call .returned
        pushed := s.pushed ++ [call] }
    else none
  | .store =>
    if s.closing = .notCalled then some { s with shutdown := true, closing := .joining }
    else none
  | .takeOrExit worker =>
    if s.workers[worker]? = some .waiting then
      match s.tasks with
      | [] => if s.shutdown then some { s with workers := s.workers.set worker .exited } else none
      | task :: rest =>
        some { s with
          tasks := rest
          workers := s.workers.set worker (.running task)
          taken := s.taken ++ [task] }
    else none
  | .endTask worker _ =>
    match s.workers[worker]? with
    | some (.running task) =>
      some { s with workers := s.workers.set worker .waiting, ended := s.ended ++ [task] }
    | _ => none
  | .joined =>
    if s.closing = .joining ∧ ∀ worker ∈ s.workers, worker = .exited then
      some { s with closing := .returned }
    else none

/-- Any number of workers but none, and any number of calls. -/
def system : LTS.System State Label :=
  LTS.System.ofStep (fun s => ∃ workers calls, 0 < workers ∧
    s = { workers := List.replicate workers .waiting, calls := List.replicate calls .calling }) step

/-! ## Section 2: What Each Step Does -/

/-- Every worker has left `worker_loop`. -/
def AllExited (s : State) : Prop := ∀ worker ∈ s.workers, worker = .exited

/-- The steps, with what they require and change. -/
inductive Steps (s : State) : Label → State → Prop where
  | test (call : Nat) (here : s.calls[call]? = some .calling) :
      Steps s (.test call)
        { s with calls := s.calls.set call (if s.shutdown then .thrown else .admitted) }
  | push (call : Nat) (here : s.calls[call]? = some .admitted) :
      Steps s (.push call)
        { s with
          tasks := s.tasks ++ [call]
          calls := s.calls.set call .returned
          pushed := s.pushed ++ [call] }
  | store (here : s.closing = .notCalled) :
      Steps s .store { s with shutdown := true, closing := .joining }
  | exit (worker : Nat) (here : s.workers[worker]? = some .waiting) (empty : s.tasks = [])
      (stopped : s.shutdown = true) :
      Steps s (.takeOrExit worker) { s with workers := s.workers.set worker .exited }
  | take (worker task : Nat) (rest : List Nat) (here : s.workers[worker]? = some .waiting)
      (front : s.tasks = task :: rest) :
      Steps s (.takeOrExit worker)
        { s with
          tasks := rest
          workers := s.workers.set worker (.running task)
          taken := s.taken ++ [task] }
  | endTask (worker task : Nat) (threw : Bool) (here : s.workers[worker]? = some (.running task)) :
      Steps s (.endTask worker threw)
        { s with workers := s.workers.set worker .waiting, ended := s.ended ++ [task] }
  | joined (here : s.closing = .joining) (all : AllExited s) :
      Steps s .joined { s with closing := .returned }

theorem steps_of_step {s s' : State} {l : Label} (h : system.step s l s') : Steps s l s' := by
  have hstep : step s l = some s' := h
  cases l with
  | test call =>
    dsimp only [step] at hstep
    split at hstep
    · next here =>
      obtain rfl := Option.some.inj hstep
      exact .test call here
    · cases hstep
  | push call =>
    dsimp only [step] at hstep
    split at hstep
    · next here =>
      obtain rfl := Option.some.inj hstep
      exact .push call here
    · cases hstep
  | store =>
    dsimp only [step] at hstep
    split at hstep
    · next here =>
      obtain rfl := Option.some.inj hstep
      exact .store here
    · cases hstep
  | takeOrExit worker =>
    dsimp only [step] at hstep
    split at hstep
    · next here =>
      split at hstep
      · next htasks =>
        split at hstep
        · next hstopped =>
          obtain rfl := Option.some.inj hstep
          exact .exit worker here htasks hstopped
        · cases hstep
      · next task rest htasks =>
        obtain rfl := Option.some.inj hstep
        exact .take worker task rest here htasks
    · cases hstep
  | endTask worker threw =>
    dsimp only [step] at hstep
    split at hstep
    · next task here =>
      obtain rfl := Option.some.inj hstep
      exact .endTask worker task threw here
    · cases hstep
  | joined =>
    dsimp only [step] at hstep
    split at hstep
    · next here =>
      obtain rfl := Option.some.inj hstep
      exact .joined here.1 here.2
    · cases hstep

/-! ## Section 3: The Queue -/

/-- The tasks between push and end, wherever they are. -/
structure Accounted (s : State) : Prop where
  queue : s.pushed = s.taken ++ s.tasks
  nodup : s.pushed.Nodup
  mem_pushed : ∀ call, call ∈ s.pushed ↔ s.calls[call]? = some .returned
  progress : ∀ task ∈ s.taken, task ∈ s.ended ∨ .running task ∈ s.workers
  begun : ∀ task, task ∈ s.ended ∨ .running task ∈ s.workers → task ∈ s.taken
  closed : s.closing = .returned → AllExited s

theorem accounted_init {s : State} (h : system.init s) : Accounted s := by
  obtain ⟨workers, calls, -, rfl⟩ := h
  refine ⟨rfl, List.nodup_nil, fun call => ?_, fun task htask => ?_, fun task hbegun => ?_,
    fun hclosed => ?_⟩
  · constructor
    · intro hmem
      cases hmem
    · intro hcall
      rw [List.getElem?_replicate] at hcall
      split at hcall
      · cases hcall
      · cases hcall
  · cases htask
  · rcases hbegun with hended | hrunning
    · cases hended
    · cases List.eq_of_mem_replicate hrunning
  · cases hclosed

/-- A call that is set aside from another keeps its place. -/
theorem getElem?_set_iff {α : Type} {l : List α} {i j : Nat} {a b c : α} (hi : l[i]? = some a)
    (hne : a ≠ c) (hne' : b ≠ c) : (l.set i b)[j]? = some c ↔ l[j]? = some c := by
  obtain ⟨hlt, -⟩ := List.getElem?_eq_some_iff.mp hi
  rw [List.getElem?_set]
  by_cases hij : i = j
  · subst hij
    rw [if_pos rfl, if_pos hlt, hi]
    simp [hne, hne']
  · rw [if_neg hij]

/-- A worker that changes from one phase to another takes no third one away. -/
theorem mem_set_of_ne {α : Type} {l : List α} {i : Nat} {a b c : α} (hi : l[i]? = some a)
    (hne : a ≠ c) (hc : c ∈ l) : c ∈ l.set i b := by
  obtain ⟨j, hj⟩ := List.mem_iff_getElem?.mp hc
  have hij : i ≠ j := by
    intro heq
    subst heq
    exact hne (Option.some.inj (hi.symm.trans hj))
  refine List.mem_iff_getElem?.mpr ⟨j, ?_⟩
  rw [List.getElem?_set_ne hij]
  exact hj

theorem mem_set_self {α : Type} {l : List α} {i : Nat} {a b : α} (hi : l[i]? = some a) :
    b ∈ l.set i b := by
  obtain ⟨hlt, -⟩ := List.getElem?_eq_some_iff.mp hi
  exact List.mem_iff_getElem?.mpr ⟨i, by rw [List.getElem?_set_self hlt]⟩

/-- No worker is anywhere but gone, so none takes a step. -/
theorem AllExited.getElem? {s : State} (h : AllExited s) {i : Nat} {worker : Worker}
    (hi : s.workers[i]? = some worker) : worker = .exited :=
  h worker (List.mem_of_getElem? hi)

theorem mem_or_of_mem_set {α : Type} {l : List α} {i : Nat} {b c : α} (hc : c ∈ l.set i b)
    (hne : c ≠ b) : c ∈ l :=
  (List.mem_or_eq_of_mem_set hc).resolve_right hne

/-- **Step lemma** for the queue. -/
theorem Accounted.step {s s' : State} {l : Label} (h : Accounted s) (hstep : Steps s l s') :
    Accounted s' := by
  cases hstep with
  | test call here =>
    refine ⟨h.queue, h.nodup, fun other => ?_, h.progress, h.begun, h.closed⟩
    rw [h.mem_pushed other]
    refine (getElem?_set_iff here (by decide) ?_).symm
    split <;> decide
  | push call here =>
    have hfresh : call ∉ s.pushed := by
      intro hmem
      have hreturned := (h.mem_pushed call).mp hmem
      rw [here] at hreturned
      cases hreturned
    refine ⟨?_, ?_, fun other => ?_, h.progress, h.begun, h.closed⟩
    · show s.pushed ++ [call] = s.taken ++ (s.tasks ++ [call])
      rw [h.queue, List.append_assoc]
    · show (s.pushed ++ [call]).Nodup
      rw [List.nodup_append]
      refine ⟨h.nodup, List.nodup_singleton call, fun a ha b hb => ?_⟩
      rw [List.mem_singleton.mp hb]
      exact fun heq => hfresh (heq ▸ ha)
    · show other ∈ s.pushed ++ [call] ↔ (s.calls.set call .returned)[other]? = some .returned
      rw [List.mem_append, List.mem_singleton, h.mem_pushed other]
      obtain ⟨hlt, -⟩ := List.getElem?_eq_some_iff.mp here
      by_cases hother : call = other
      · subst hother
        simp [List.getElem?_set_self hlt]
      · rw [List.getElem?_set_ne hother]
        have hne : ¬ other = call := fun heq => hother heq.symm
        simp [hne]
  | store here =>
    refine ⟨h.queue, h.nodup, h.mem_pushed, h.progress, h.begun, fun hclosed => ?_⟩
    cases hclosed
  | exit worker here empty stopped =>
    refine ⟨h.queue, h.nodup, h.mem_pushed, fun task htask => ?_, fun task hbegun => ?_,
      fun hclosed => ?_⟩
    · rcases h.progress task htask with hended | hrunning
      · exact Or.inl hended
      · exact Or.inr (mem_set_of_ne here (by simp) hrunning)
    · exact h.begun task (hbegun.imp_right fun hrunning => mem_or_of_mem_set hrunning (by simp))
    · have hgone := (h.closed hclosed).getElem? here
      cases hgone
  | take worker task rest here front =>
    refine ⟨?_, h.nodup, h.mem_pushed, fun other hother => ?_, fun other hbegun => ?_,
      fun hclosed => ?_⟩
    · show s.pushed = s.taken ++ [task] ++ rest
      rw [h.queue, front, List.append_assoc]
      rfl
    · rcases List.mem_append.mp hother with hold | hnew
      · rcases h.progress other hold with hended | hrunning
        · exact Or.inl hended
        · exact Or.inr (mem_set_of_ne here (by simp) hrunning)
      · rw [List.mem_singleton.mp hnew]
        exact Or.inr (mem_set_self here)
    · show other ∈ s.taken ++ [task]
      by_cases heq : other = task
      · rw [heq]
        exact List.mem_append_right _ (List.mem_singleton_self task)
      · refine List.mem_append_left _ (h.begun other (hbegun.imp_right fun hrunning => ?_))
        exact mem_or_of_mem_set hrunning fun hsame => heq (Worker.running.inj hsame)
    · have hgone := (h.closed hclosed).getElem? here
      cases hgone
  | endTask worker task threw here =>
    refine ⟨h.queue, h.nodup, h.mem_pushed, fun other hother => ?_, fun other hbegun => ?_,
      fun hclosed => ?_⟩
    · show other ∈ s.ended ++ [task] ∨ Worker.running other ∈ s.workers.set worker .waiting
      by_cases heq : other = task
      · rw [heq]
        exact Or.inl (List.mem_append_right _ (List.mem_singleton_self task))
      · rcases h.progress other hother with hended | hrunning
        · exact Or.inl (List.mem_append_left _ hended)
        · have hne : Worker.running task ≠ .running other := fun hsame =>
            heq (Worker.running.inj hsame).symm
          exact Or.inr (mem_set_of_ne here hne hrunning)
    · rcases hbegun with hended | hrunning
      · rcases List.mem_append.mp hended with hold | hnew
        · exact h.begun other (Or.inl hold)
        · rw [List.mem_singleton.mp hnew]
          exact h.begun task (Or.inr (List.mem_of_getElem? here))
      · exact h.begun other (Or.inr (mem_or_of_mem_set hrunning (by simp)))
    · have hgone := (h.closed hclosed).getElem? here
      cases hgone
  | joined here all =>
    exact ⟨h.queue, h.nodup, h.mem_pushed, h.progress, h.begun, fun _ => all⟩

/-! ## Section 4: Late Pushes -/

/-- A push finds a worker that has not left. -/
def OnTime (s : State) (l : Label) (_ : State) : Prop :=
  ∀ call, l = .push call → ¬ AllExited s

/-- While tasks are left, so is a worker. -/
def Served (s : State) : Prop := s.tasks ≠ [] → ¬ AllExited s

/-- Tasks are left and nobody to take them. -/
def Stranded (s : State) : Prop := s.tasks ≠ [] ∧ AllExited s

theorem not_allExited_set {s : State} {i : Nat} {worker worker' : Worker}
    (hi : s.workers[i]? = some worker) (hne : worker' ≠ .exited) :
    ¬ AllExited { s with workers := s.workers.set i worker' } :=
  fun hall => hne (hall worker' (mem_set_self hi))

/-- Every step but a late push keeps a worker for the tasks that are left. -/
theorem Served.step {s s' : State} {l : Label} (h : Served s) (hstep : Steps s l s')
    (htime : OnTime s l s') : Served s' := by
  cases hstep with
  | test call here => exact h
  | push call here => exact fun _ => htime call rfl
  | store here => exact h
  | exit worker here empty stopped => exact fun hleft => absurd empty hleft
  | take worker task rest here front => exact fun _ => not_allExited_set here (by simp)
  | endTask worker task threw here => exact fun _ => not_allExited_set here (by simp)
  | joined here all => exact h

/-- A late push strands its task. -/
theorem stranded_of_late {s s' : State} {l : Label} (hstep : Steps s l s')
    (hlate : ¬ OnTime s l s') : Stranded s' := by
  unfold OnTime at hlate
  obtain ⟨call, hcall⟩ := not_forall.mp hlate
  obtain ⟨rfl, hall⟩ := Classical.not_imp.mp hcall
  cases hstep with
  | push _ here => exact ⟨by simp, not_not.mp hall⟩

theorem Stranded.step {s s' : State} {l : Label} (h : Stranded s) (hstep : Steps s l s') :
    Stranded s' := by
  obtain ⟨hleft, hall⟩ := h
  cases hstep with
  | test call here => exact ⟨hleft, hall⟩
  | push call here => exact ⟨by simp, hall⟩
  | store here => exact ⟨hleft, hall⟩
  | exit worker here empty stopped => exact absurd empty hleft
  | take worker task rest here front =>
    have hgone := hall.getElem? here
    cases hgone
  | endTask worker task threw here =>
    have hgone := hall.getElem? here
    cases hgone
  | joined here all => exact ⟨hleft, hall⟩

/-! ## Section 5: Every Run -/

/-- Tasks are taken in order and once, and once both have returned, the task of an
    `enqueue` has been run to its end. -/
structure KeepsTasks (s : State) : Prop where
  inOrder : s.taken <+: s.pushed
  once : s.taken.Nodup
  ended : s.closing = .returned →
    ∀ call : Nat, s.calls[call]? = some .returned → call ∈ s.ended

/-- Tasks are taken in order and once in every run. -/
theorem Accounted.inOrder {s : State} (h : Accounted s) :
    s.taken <+: s.pushed ∧ s.taken.Nodup := by
  have hpast : s.taken <+: s.pushed := ⟨s.tasks, h.queue.symm⟩
  exact ⟨hpast, h.nodup.sublist hpast.sublist⟩

/-- Only a task that is left behind breaks the promise. -/
theorem Accounted.keepsTasks_iff {s : State} (h : Accounted s) :
    KeepsTasks s ↔ (s.closing = .returned → s.tasks = []) := by
  constructor
  · intro hkeeps hclosed
    rw [List.eq_nil_iff_forall_not_mem]
    intro call hleft
    have hpushed : call ∈ s.pushed := by
      rw [h.queue]
      exact List.mem_append_right _ hleft
    have hended := hkeeps.ended hclosed call ((h.mem_pushed call).mp hpushed)
    -- it would have been pushed twice
    have hnodup := h.nodup
    rw [h.queue, List.nodup_append] at hnodup
    exact hnodup.2.2 call (h.begun call (Or.inl hended)) call hleft rfl
  · intro hempty
    refine ⟨h.inOrder.1, h.inOrder.2, fun hclosed call hreturned => ?_⟩
    have hpushed := (h.mem_pushed call).mpr hreturned
    rw [h.queue, hempty hclosed, List.append_nil] at hpushed
    rcases h.progress call hpushed with hended | hrunning
    · exact hended
    · cases h.closed hclosed _ hrunning

theorem served_init {s : State} (h : system.init s) : Served s := by
  obtain ⟨workers, calls, -, rfl⟩ := h
  exact fun hleft => absurd rfl hleft

/-- A run is on time, or it has stranded a task. -/
theorem onTime_or_stranded {s₀ s : State} {ls : List Label} (hinit : system.init s₀)
    (h : LTS.Run system s₀ ls s) :
    (LTS.Run (system.restrict OnTime) s₀ ls s ∧ Served s) ∨ Stranded s :=
  h.restrict_or_trapped (fun _ _ _ ht hl htime => ht.step (steps_of_step hl) htime)
    (fun _ _ _ hl hlate => stranded_of_late (steps_of_step hl) hlate)
    (fun _ _ _ ht hl => ht.step (steps_of_step hl)) (served_init hinit)

theorem accounted_of_run {s₀ s : State} {ls : List Label} (hinit : system.init s₀)
    (h : LTS.Run system s₀ ls s) : Accounted s :=
  h.invariant (fun _ _ _ hs hstep => hs.step (steps_of_step hstep)) (accounted_init hinit)

theorem served_of_onTime {s₀ s : State} {ls : List Label} (hinit : system.init s₀)
    (h : LTS.Run (system.restrict OnTime) s₀ ls s) : Served s := by
  exact h.invariant (fun t l t' ht hstep => ht.step (steps_of_step hstep.1) hstep.2)
    (served_init hinit)

/-- **Every task is run in a run whose pushes all find a worker, and once `shutdown`
    has returned only in such a run.** -/
theorem keepsTasks_of_onTime {s₀ s : State} {ls : List Label} (hinit : system.init s₀)
    (h : LTS.Run system s₀ ls s) :
    (LTS.Run (system.restrict OnTime) s₀ ls s → KeepsTasks s) ∧
      (s.closing = .returned → KeepsTasks s → LTS.Run (system.restrict OnTime) s₀ ls s) := by
  have hacc := accounted_of_run hinit h
  constructor
  · intro htimely
    refine hacc.keepsTasks_iff.mpr fun hclosed => ?_
    by_contra hleft
    exact served_of_onTime hinit htimely hleft (hacc.closed hclosed)
  · intro hclosed hkeeps
    rcases onTime_or_stranded hinit h with ⟨htimely, -⟩ | hstranded
    · exact htimely
    · exact absurd (hacc.keepsTasks_iff.mp hkeeps hclosed) hstranded.1

/-! ## Section 6: A Lost Task -/

/-- Two calls and one worker; the second call is late. -/
def twoCalls : State := { workers := [.waiting], calls := [.calling, .calling] }

/-- One task is run, the other pushed before the worker leaves. -/
def graceful : List Label :=
  [.test 0, .test 1, .push 0, .takeOrExit 0, .store, .push 1, .endTask 0 true, .takeOrExit 0,
    .endTask 0 false, .takeOrExit 0, .joined]

theorem keepsTasks_graceful :
    ∃ s, LTS.replay step twoCalls graceful = some s ∧
      (LTS.Run (system.restrict OnTime) twoCalls graceful s → KeepsTasks s) ∧
      (s.closing = .returned → KeepsTasks s →
        LTS.Run (system.restrict OnTime) twoCalls graceful s) :=
  ⟨_, rfl, keepsTasks_of_onTime ⟨1, 2, by decide, rfl⟩ (LTS.Run.of_replay rfl)⟩

/-- `enqueue` is admitted, the worker leaves, and only then comes the push. -/
def late : List Label :=
  [.test 0, .store, .takeOrExit 0, .push 0, .joined]

theorem not_keepsTasks_late :
    ¬ ∀ (s₀ s : State) (ls : List Label), system.init s₀ → LTS.Run system s₀ ls s →
      KeepsTasks s := by
  intro h
  have hkeeps := h twoCalls _ late ⟨1, 2, by decide, rfl⟩ (LTS.Run.of_replay rfl)
  have hended : 0 ∈ [] := hkeeps.ended rfl 0 rfl
  cases hended

end ThreadPool

end VeloxServe
