import Mathlib.Data.List.Forall2
import Mathlib.Logic.Basic

/-! # Labelled Transition Systems and Machines

    Generic transition systems with their finite runs, and the rules the
    rest of the development uses on them:

    * **Invariants**: a predicate that holds initially and is preserved by
      every step holds in every state a run reaches; it may also speak of the
      labels taken so far.
    * **Restriction**: the runs of a system all of whose steps meet a
      condition are the runs of the restricted system; a run whose steps do
      not may be trapped.
    * **Simulation**: two deterministic machines whose states stay related
      give the same outputs; two runs of one machine give related ones.
-/

namespace LTS

universe u v w

variable {State : Type u} {Label : Type v}

/-! ## Systems and Runs -/

/-- A labelled transition system. -/
structure System (State : Type u) (Label : Type v) where
  /-- The initial states. -/
  init : State → Prop
  /-- The step relation. -/
  step : State → Label → State → Prop

/-- The system of a guarded step function: `none` means the label is not enabled. -/
def System.ofStep (init : State → Prop) (step : State → Label → Option State) :
    System State Label where
  init := init
  step := fun s l s' => step s l = some s'

/-- The steps of `sys` that also meet `good`. -/
def System.restrict (sys : System State Label) (good : State → Label → State → Prop) :
    System State Label where
  init := sys.init
  step := fun s l s' => sys.step s l s' ∧ good s l s'

/-- Finite runs, with the labels taken. -/
inductive Run (sys : System State Label) (s : State) : List Label → State → Prop where
  | nil : Run sys s [] s
  | snoc : ∀ {s' s'' : State} {ls : List Label} (l : Label),
      Run sys s ls s' → sys.step s' l s'' → Run sys s (ls ++ [l]) s''

/-- The states some run from an initial state ends in. -/
def Reachable (sys : System State Label) (s : State) : Prop :=
  ∃ s₀ ls, sys.init s₀ ∧ Run sys s₀ ls s

theorem Run.single {sys : System State Label} {s s' : State} {l : Label}
    (h : sys.step s l s') : Run sys s [l] s' :=
  Run.snoc l Run.nil h

/-- Replaying labels through a guarded step function. -/
def replay (step : State → Label → Option State) : State → List Label → Option State
  | s, [] => some s
  | s, l :: ls => (step s l).bind fun s' => replay step s' ls

theorem Run.append {sys : System State Label} {s s' s'' : State} {ls ms : List Label}
    (h : Run sys s ls s') (h' : Run sys s' ms s'') : Run sys s (ls ++ ms) s'' := by
  induction h' with
  | nil => simpa using h
  | snoc l _ hstep ih =>
    rw [← List.append_assoc]
    exact Run.snoc l ih hstep

theorem Run.cons {sys : System State Label} {s s' s'' : State} {l : Label} {ls : List Label}
    (hstep : sys.step s l s') (h : Run sys s' ls s'') : Run sys s (l :: ls) s'' :=
  (Run.single hstep).append h

/-- A replay that goes through is a run. -/
theorem Run.of_replay {init : State → Prop} {step : State → Label → Option State}
    {s s' : State} {ls : List Label} (h : replay step s ls = some s') :
    Run (System.ofStep init step) s ls s' := by
  induction ls generalizing s with
  | nil =>
    obtain rfl : s = s' := by simpa [replay] using h
    exact Run.nil
  | cons l ls ih =>
    obtain ⟨t, ht, hrest⟩ := Option.bind_eq_some_iff.mp h
    exact Run.cons ht (ih hrest)

/-- A run through fewer steps is a run through more. -/
theorem Run.mono {sys sys' : System State Label} {s s' : State} {ls : List Label}
    (hsub : ∀ s l s', sys.step s l s' → sys'.step s l s') (h : Run sys s ls s') :
    Run sys' s ls s' := by
  induction h with
  | nil => exact Run.nil
  | snoc l _ hstep ih => exact Run.snoc l ih (hsub _ _ _ hstep)

/-! ## Invariants -/

/-- **Invariant rule** along one run. -/
theorem Run.invariant {sys : System State Label} {inv : State → Prop}
    (hstep : ∀ s l s', inv s → sys.step s l s' → inv s')
    {s s' : State} {ls : List Label} (h : Run sys s ls s') (h₀ : inv s) : inv s' := by
  induction h with
  | nil => exact h₀
  | snoc l _ hl ih => exact hstep _ l _ ih hl

/-- **Invariant rule** for the reachable states. -/
theorem Reachable.invariant {sys : System State Label} {inv : State → Prop}
    (hinit : ∀ s, sys.init s → inv s)
    (hstep : ∀ s l s', inv s → sys.step s l s' → inv s')
    {s : State} (h : Reachable sys s) : inv s := by
  obtain ⟨s₀, ls, h₀, hrun⟩ := h
  exact hrun.invariant hstep (hinit s₀ h₀)

/-- **Invariant rule** with the history, when every past meets a condition. -/
theorem Run.history {sys : System State Label} {inv : List Label → State → Prop}
    {ok : List Label → Prop}
    (hstep : ∀ ls s l s', ok (ls ++ [l]) → inv ls s → sys.step s l s' → inv (ls ++ [l]) s')
    {s s' : State} {ls : List Label} (h : Run sys s ls s') (h₀ : inv [] s)
    (hok : ∀ past, past <+: ls → ok past) : inv ls s' := by
  induction h with
  | nil => exact h₀
  | snoc l _ hl ih =>
    have hpast := ih fun past hpre => hok past (hpre.trans (List.prefix_append _ _))
    exact hstep _ _ _ _ (hok _ (List.prefix_refl _)) hpast hl

/-- **Weakening the condition** of a restricted run under an invariant. -/
theorem Run.restrict_mono {sys : System State Label} {inv : State → Prop}
    {good good' : State → Label → State → Prop}
    (hstep : ∀ s l s', inv s → sys.step s l s' → good s l s' → good' s l s' ∧ inv s')
    {s s' : State} {ls : List Label} (h₀ : inv s) (h : Run (sys.restrict good) s ls s') :
    Run (sys.restrict good') s ls s' ∧ inv s' := by
  induction h with
  | nil => exact ⟨Run.nil, h₀⟩
  | snoc l _ hl ih =>
    obtain ⟨hrun, hi⟩ := ih
    obtain ⟨hgood, hi'⟩ := hstep _ _ _ hi hl.1 hl.2
    exact ⟨Run.snoc l hrun ⟨hl.1, hgood⟩, hi'⟩

/-- **Exchange of conditions**: from a state with invariant `inv`, the runs whose
    steps meet `good` are the runs whose steps meet `good'`, when under `inv`
    the two agree on every step and either one preserves `inv`. -/
theorem Run.restrict_iff {sys : System State Label} {inv : State → Prop}
    {good good' : State → Label → State → Prop}
    (hiff : ∀ s l s', inv s → sys.step s l s' → (good s l s' ↔ good' s l s'))
    (hinv : ∀ s l s', inv s → sys.step s l s' → good s l s' → inv s')
    {s s' : State} {ls : List Label} (h₀ : inv s) :
    Run (sys.restrict good) s ls s' ↔ Run (sys.restrict good') s ls s' := by
  constructor
  · intro h
    refine (Run.restrict_mono (fun t l t' hi hl hgood => ?_) h₀ h).1
    exact ⟨(hiff t l t' hi hl).mp hgood, hinv t l t' hi hl hgood⟩
  · intro h
    refine (Run.restrict_mono (fun t l t' hi hl hgood' => ?_) h₀ h).1
    have hgood := (hiff t l t' hi hl).mpr hgood'
    exact ⟨hgood, hinv t l t' hi hl hgood⟩

/-- **Trap rule**: a run either meets a condition at every step and keeps `inv`, or
    it has fallen into `bad`, when a step that misses the condition leads there and
    no step leads out. -/
theorem Run.restrict_or_trapped {sys : System State Label} {inv bad : State → Prop}
    {good : State → Label → State → Prop}
    (hgood : ∀ s l s', inv s → sys.step s l s' → good s l s' → inv s')
    (hmiss : ∀ s l s', sys.step s l s' → ¬ good s l s' → bad s')
    (hstay : ∀ s l s', bad s → sys.step s l s' → bad s')
    {s s' : State} {ls : List Label} (h : Run sys s ls s') (h₀ : inv s) :
    (Run (sys.restrict good) s ls s' ∧ inv s') ∨ bad s' := by
  induction h with
  | nil => exact Or.inl ⟨Run.nil, h₀⟩
  | @snoc t t' past l _ hl ih =>
    rcases ih with ⟨hrun, hi⟩ | hbad
    · by_cases hg : good t l t'
      · exact Or.inl ⟨Run.snoc l hrun ⟨hl, hg⟩, hgood t l t' hi hl hg⟩
      · exact Or.inr (hmiss t l t' hl hg)
    · exact Or.inr (hstay t l t' hbad hl)

/-! ## What Came Last -/

/-- The labels after the last one that meets `reset`, latest first. -/
def since (reset : Label → Bool) (ls : List Label) : List Label :=
  ls.reverse.takeWhile fun l => !reset l

@[simp] theorem since_nil (reset : Label → Bool) : since reset [] = [] := rfl

theorem since_snoc (reset : Label → Bool) (ls : List Label) (l : Label) :
    since reset (ls ++ [l]) = if reset l then [] else l :: since reset ls := by
  unfold since
  rw [List.reverse_append, List.reverse_singleton, List.singleton_append, List.takeWhile_cons]
  cases reset l <;> rfl

/-- The last label that meets `reset`. -/
def last (reset : Label → Bool) (ls : List Label) : Option Label := ls.reverse.find? reset

@[simp] theorem last_nil (reset : Label → Bool) : last reset [] = none := rfl

theorem last_snoc (reset : Label → Bool) (ls : List Label) (l : Label) :
    last reset (ls ++ [l]) = if reset l then some l else last reset ls := by
  unfold last
  rw [List.reverse_append, List.reverse_singleton, List.singleton_append, List.find?_cons]
  cases reset l <;> rfl

theorem of_last {reset : Label → Bool} {ls : List Label} {l : Label}
    (h : last reset ls = some l) : reset l = true :=
  List.find?_some h

/-- Fewer resets make no difference when the last one is still a reset. -/
theorem last_of_imp {reset reset' : Label → Bool} (himp : ∀ l, reset' l = true → reset l = true)
    {ls : List Label} {l : Label} (h : last reset ls = some l) (hl : reset' l = true) :
    last reset' ls = some l ∧ since reset' ls = since reset ls := by
  unfold last since at *
  -- both lists are read from the latest label on
  generalize ls.reverse = latest at h ⊢
  induction latest with
  | nil => cases h
  | cons l' latest ih =>
    rw [List.find?_cons] at h
    rw [List.find?_cons, List.takeWhile_cons, List.takeWhile_cons]
    rcases hr : reset l' with _ | _
    · have hr' : reset' l' = false := by
        rcases hr' : reset' l' with _ | _
        · rfl
        · rw [himp l' hr'] at hr
          cases hr
      rw [hr] at h
      obtain ⟨hlast, hsince⟩ := ih h
      rw [hr', hsince]
      exact ⟨hlast, rfl⟩
    · rw [hr] at h
      obtain rfl := Option.some.inj h
      rw [hl]
      exact ⟨rfl, rfl⟩

/-- Some label is a reset when a narrower condition has a last one. -/
theorem exists_last {reset reset' : Label → Bool} (himp : ∀ l, reset' l = true → reset l = true)
    {ls : List Label} {l : Label} (h : last reset' ls = some l) : ∃ l', last reset ls = some l' := by
  have hmem : l ∈ ls.reverse := List.mem_of_find?_eq_some h
  have hsome : (ls.reverse.find? reset).isSome :=
    List.find?_isSome.mpr ⟨l, hmem, himp l (of_last h)⟩
  exact Option.isSome_iff_exists.mp hsome

/-! ## Machines -/

/-- A deterministic machine that answers each input. -/
structure Machine (State : Type u) (Input : Type v) (Output : Type w) where
  step : State → Input → Output × State

variable {Input : Type v} {Output : Type w} {State' : Type u}

/-- The outputs of a sequence of inputs and the state after them. -/
def Machine.run (m : Machine State Input Output) : State → List Input → List Output × State
  | s, [] => ([], s)
  | s, i :: is =>
    let r := m.step s i
    let rest := m.run r.2 is
    (r.1 :: rest.1, rest.2)

@[simp] theorem Machine.run_nil (m : Machine State Input Output) (s : State) :
    m.run s [] = ([], s) := rfl

@[simp] theorem Machine.run_cons (m : Machine State Input Output) (s : State) (i : Input)
    (is : List Input) :
    m.run s (i :: is) =
      ((m.step s i).1 :: (m.run (m.step s i).2 is).1, (m.run (m.step s i).2 is).2) := rfl

theorem Machine.run_append (m : Machine State Input Output) (s : State) (is js : List Input) :
    m.run s (is ++ js) =
      ((m.run s is).1 ++ (m.run (m.run s is).2 js).1, (m.run (m.run s is).2 js).2) := by
  induction is generalizing s with
  | nil => simp
  | cons i is ih => simp [ih]

/-- **Invariant rule** for machines, when all inputs meet a condition. -/
theorem Machine.run_invariant_on (m : Machine State Input Output) {inv : State → Prop}
    {ok : Input → Prop} (hstep : ∀ s i, inv s → ok i → inv (m.step s i).2) (s : State)
    (is : List Input) (h : inv s) (hok : ∀ i ∈ is, ok i) : inv (m.run s is).2 := by
  induction is generalizing s with
  | nil => exact h
  | cons i is ih =>
    have hnext := hstep s i h (hok i List.mem_cons_self)
    exact ih _ hnext fun j hj => hok j (List.mem_cons_of_mem _ hj)

/-- **Invariant rule** for machines. -/
theorem Machine.run_invariant (m : Machine State Input Output) {inv : State → Prop}
    (hstep : ∀ s i, inv s → inv (m.step s i).2) (s : State) (is : List Input) (h : inv s) :
    inv (m.run s is).2 := by
  have hall : ∀ i ∈ is, True := fun _ _ => trivial
  exact m.run_invariant_on (fun t i ht _ => hstep t i ht) s is h hall

/-- `guard` holds of each input in the state of `m` it arrives in. -/
def Machine.Guarded (m : Machine State Input Output) (guard : State → Input → Prop) :
    State → List Input → Prop
  | _, [] => True
  | s, i :: is => guard s i ∧ m.Guarded guard (m.step s i).2 is

instance Machine.decidableGuarded (m : Machine State Input Output) {guard : State → Input → Prop}
    [∀ s i, Decidable (guard s i)] : ∀ (s : State) (is : List Input),
    Decidable (m.Guarded guard s is)
  | _, [] => inferInstanceAs (Decidable True)
  | s, i :: is =>
    have : Decidable (m.Guarded guard (m.step s i).2 is) := m.decidableGuarded _ is
    inferInstanceAs (Decidable (guard s i ∧ m.Guarded guard (m.step s i).2 is))

theorem Machine.guarded_of_forall (m : Machine State Input Output)
    {guard : State → Input → Prop} (h : ∀ s i, guard s i) (s : State) (is : List Input) :
    m.Guarded guard s is := by
  induction is generalizing s with
  | nil => exact True.intro
  | cons i is ih => exact ⟨h s i, ih _⟩

theorem Machine.guarded_append (m : Machine State Input Output) {guard : State → Input → Prop}
    {s : State} {is js : List Input} (h : m.Guarded guard s (is ++ js)) :
    m.Guarded guard s is ∧ m.Guarded guard (m.run s is).2 js := by
  induction is generalizing s with
  | nil => exact ⟨True.intro, h⟩
  | cons i is ih =>
    obtain ⟨his, hjs⟩ := ih h.2
    exact ⟨⟨h.1, his⟩, hjs⟩

/-- **Invariant rule** for machines on guarded inputs, when the invariant speaks of
    the inputs so far. -/
theorem Machine.run_history (m : Machine State Input Output) {inv : List Input → State → Prop}
    {guard : State → Input → Prop}
    (hstep : ∀ past s i, inv past s → guard s i → inv (past ++ [i]) (m.step s i).2)
    {past : List Input} {s : State} (h : inv past s) (is : List Input)
    (hg : m.Guarded guard s is) : inv (past ++ is) (m.run s is).2 := by
  induction is generalizing past s with
  | nil => simpa using h
  | cons i is ih =>
    rw [List.append_cons]
    exact ih (hstep past s i h hg.1) hg.2

/-- **Simulation rule**: when related states answer alike and stay related on
    guarded inputs, the two machines give the same outputs. -/
theorem Machine.simulation (m : Machine State Input Output)
    (m' : Machine State' Input Output) {rel : State → State' → Prop}
    {guard : State' → Input → Prop}
    (hsim : ∀ s t i, rel s t → guard t i →
      (m.step s i).1 = (m'.step t i).1 ∧ rel (m.step s i).2 (m'.step t i).2)
    (s : State) (t : State') (is : List Input) (h : rel s t) (hg : m'.Guarded guard t is) :
    (m.run s is).1 = (m'.run t is).1 ∧ rel (m.run s is).2 (m'.run t is).2 := by
  induction is generalizing s t with
  | nil => exact ⟨rfl, h⟩
  | cons i is ih =>
    obtain ⟨hout, hrel⟩ := hsim s t i h hg.1
    obtain ⟨houts, hrels⟩ := ih _ _ hrel hg.2
    exact ⟨by simp [hout, houts], hrels⟩

/-- **Two runs** of one machine on the same inputs: when guarded inputs keep the
    states related and give related outputs, the outputs are related one by one. -/
theorem Machine.run_related (m : Machine State Input Output) {rel : State → State → Prop}
    {out : Output → Output → Prop} {guard : State → Input → Prop}
    (hstep : ∀ s t i, rel s t → guard s i → guard t i →
      out (m.step s i).1 (m.step t i).1 ∧ rel (m.step s i).2 (m.step t i).2)
    {s t : State} (is : List Input) (h : rel s t) (hs : m.Guarded guard s is)
    (ht : m.Guarded guard t is) : List.Forall₂ out (m.run s is).1 (m.run t is).1 := by
  induction is generalizing s t with
  | nil => exact List.Forall₂.nil
  | cons i is ih =>
    obtain ⟨hout, hrel⟩ := hstep s t i h hs.1 ht.1
    exact List.Forall₂.cons hout (ih hrel hs.2 ht.2)

end LTS
