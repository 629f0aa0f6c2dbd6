import VeloxServe.Framework.System

/-! # Refinement and Bounded Runs

    Ways to reason about the runs of a detailed system:

    * **Refinement**: every step is one of a coarser system, or cannot be seen
      there. Then every run is one of the coarser system, by the labels that
      are seen.
    * **Bounded runs**: where every step makes a measure smaller, no run is
      longer than the measure, and every run can be continued until nothing is
      left to do.
    * **Weights**: a measure of a list of threads, of which a step changes one.
-/

namespace LTS

universe u v w x

variable {State : Type u} {Label : Type v} {State' : Type w} {Label' : Type x}

/-! ## Refinement -/

/-- **Refinement**: the steps of `sys` in terms of `sys'`. -/
structure Refines (sys : System State Label) (sys' : System State' Label')
    (seen : Label → Option Label') (rel : State → State' → Prop) : Prop where
  init : ∀ s, sys.init s → ∃ t, sys'.init t ∧ rel s t
  visible : ∀ s l s' t l', sys.step s l s' → rel s t → seen l = some l' →
    ∃ t', sys'.step t l' t' ∧ rel s' t'
  hidden : ∀ s l s' t, sys.step s l s' → rel s t → seen l = none → rel s' t

section

variable {sys : System State Label} {sys' : System State' Label'} {seen : Label → Option Label'}
  {rel : State → State' → Prop}

/-- Every run is a run of the coarser system. -/
theorem Refines.run (h : Refines sys sys' seen rel) {s s' : State} {ls : List Label} {t : State'}
    (hrun : Run sys s ls s') (hrel : rel s t) :
    ∃ t', Run sys' t (ls.filterMap seen) t' ∧ rel s' t' := by
  induction hrun with
  | nil => exact ⟨t, Run.nil, hrel⟩
  | snoc l _ hl ih =>
    obtain ⟨t₁, hrun₁, hrel₁⟩ := ih
    rw [List.filterMap_append]
    cases hseen : seen l with
    | none =>
      have hnone : [l].filterMap seen = [] := by simp [hseen]
      rw [hnone, List.append_nil]
      exact ⟨t₁, hrun₁, h.hidden _ l _ t₁ hl hrel₁ hseen⟩
    | some l' =>
      have hsome : [l].filterMap seen = [l'] := by simp [hseen]
      obtain ⟨t₂, hstep, hrel₂⟩ := h.visible _ l _ t₁ l' hl hrel₁ hseen
      rw [hsome]
      exact ⟨t₂, Run.snoc l' hrun₁ hstep, hrel₂⟩

/-- Refinement also holds between the steps that meet a condition, when the condition
    can be seen. -/
theorem Refines.restrict (h : Refines sys sys' seen rel) {good : State → Label → State → Prop}
    {good' : State' → Label' → State' → Prop}
    (hgood : ∀ s l s' t l' t', good s l s' → rel s t → seen l = some l' → good' t l' t') :
    Refines (sys.restrict good) (sys'.restrict good') seen rel where
  init := h.init
  visible := by
    intro s l s' t l' hl hrel hseen
    obtain ⟨t', hstep, hrel'⟩ := h.visible s l s' t l' hl.1 hrel hseen
    exact ⟨t', ⟨hstep, hgood s l s' t l' t' hl.2 hrel hseen⟩, hrel'⟩
  hidden := fun s l s' t hl => h.hidden s l s' t hl.1

end

/-! ## Bounded Runs -/

/-- No step is possible. -/
def Stuck (sys : System State Label) (s : State) : Prop := ∀ l s', ¬ sys.step s l s'

section

variable {sys : System State Label} {inv : State → Prop} {measure : State → Nat}

/-- **Bounded runs**: each step uses up some of the measure. -/
theorem Run.length_le (hstep : ∀ s l s', inv s → sys.step s l s' → inv s' ∧ measure s' < measure s)
    {s s' : State} {ls : List Label} (hrun : Run sys s ls s') (h₀ : inv s) :
    inv s' ∧ ls.length + measure s' ≤ measure s := by
  induction hrun with
  | nil => exact ⟨h₀, by simp⟩
  | snoc l _ hl ih =>
    obtain ⟨hi, hle⟩ := ih
    obtain ⟨hi', hless⟩ := hstep _ l _ hi hl
    refine ⟨hi', ?_⟩
    rw [List.length_append, List.length_singleton]
    omega

/-- Every run can be continued until it is stuck. -/
theorem exists_stuck (hstep : ∀ s l s', inv s → sys.step s l s' → inv s' ∧ measure s' < measure s)
    {s : State} (h₀ : inv s) : ∃ ls s', Run sys s ls s' ∧ Stuck sys s' := by
  generalize hn : measure s = n
  induction n using Nat.strongRecOn generalizing s with
  | _ n ih =>
    by_cases hstuck : Stuck sys s
    · exact ⟨[], s, Run.nil, hstuck⟩
    · obtain ⟨l, hsome⟩ := not_forall.mp hstuck
      obtain ⟨s₁, henabled⟩ := not_forall.mp hsome
      have hl : sys.step s l s₁ := not_not.mp henabled
      obtain ⟨hi, hless⟩ := hstep s l s₁ h₀ hl
      obtain ⟨ls, s', hrun, hend⟩ := ih (measure s₁) (by omega) hi rfl
      exact ⟨l :: ls, s', Run.cons hl hrun, hend⟩

end

/-! ## Weights -/

/-- The sum of the weights of all threads. -/
def weigh {α : Type u} (weight : α → Nat) : List α → Nat
  | [] => 0
  | a :: threads => weight a + weigh weight threads

section

variable {α : Type u} {weight : α → Nat} {threads : List α}

/-- **Weights**: one thread goes on. -/
theorem weigh_set (weight : α → Nat) {i : Nat} {a : α} (h : threads[i]? = some a) (b : α) :
    weigh weight (threads.set i b) + weight a = weigh weight threads + weight b := by
  induction threads generalizing i with
  | nil => cases h
  | cons c threads ih =>
    cases i with
    | zero =>
      obtain rfl : c = a := Option.some.inj h
      show weight b + weigh weight threads + weight c = weight c + weigh weight threads + weight b
      omega
    | succ i =>
      have hrest := ih h
      show weight c + weigh weight (threads.set i b) + weight a =
        weight c + weigh weight threads + weight b
      omega

/-- All threads go on. -/
theorem weigh_map_le {f : α → α} (h : ∀ a, weight (f a) ≤ weight a) (threads : List α) :
    weigh weight (threads.map f) ≤ weigh weight threads := by
  induction threads with
  | nil => exact Nat.le_refl _
  | cons c threads ih =>
    have hfirst := h c
    show weight (f c) + weigh weight (threads.map f) ≤ weight c + weigh weight threads
    omega

theorem weigh_eq_zero_iff : weigh weight threads = 0 ↔ ∀ a ∈ threads, weight a = 0 := by
  induction threads with
  | nil => exact ⟨fun _ a ha => absurd ha List.not_mem_nil, fun _ => rfl⟩
  | cons c threads ih =>
    rw [List.forall_mem_cons, ← ih]
    show weight c + weigh weight threads = 0 ↔ _
    omega

end

end LTS
