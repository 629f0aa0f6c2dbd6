import Mathlib.Data.List.Count
import Mathlib.Data.List.ReduceOption
import VeloxServe.Framework.Rotation
import VeloxServe.Modules.RoundRobin

/-! # The Fairness of the Round Robin

    While no backend changes between alive and dead, the backends `get_next`
    returns are the alive ones among the positions tried, and these are the
    residues of consecutive values of the counter. So the calls go around the
    alive backends, as long as no wrap of the counter comes between.
-/

namespace VeloxServe

open StdString Rotation

namespace LoadBalancer

/-! ## Calls -/

/-- A step that changes no backend between alive and dead. -/
def Operation.KeepsAlive : Operation → Prop
  | .getNext => True
  | .release _ => True
  | .markDown _ => False
  | .check _ _ => False

/-- The position an operation returns, if it is a call of `get_next`. -/
def selected (lb : LoadBalancer) : Operation → List (Option Nat)
  | .getNext => [lb.getNext.1.map Prod.fst]
  | .release _ => []
  | .markDown _ => []
  | .check _ _ => []

/-- What the calls of `get_next` return, in order. -/
def selections : LoadBalancer → List Operation → List (Option Nat)
  | _, [] => []
  | lb, op :: ops => lb.selected op ++ selections (lb.apply op) ops

/-- How far the loop of `get_next` moves the counter, with the number of tries left. -/
def triesLoop : Nat → LoadBalancer → Nat
  | 0, _ => 0
  | left + 1, lb =>
    match lb.backends[lb.currentPosition]? with
    | none => 1
    | some backend => if backend.isAlive then 1 else triesLoop left (lb.advance 1) + 1

def tried (lb : LoadBalancer) : Operation → Nat
  | .getNext => triesLoop lb.backends.length lb
  | .release _ => 0
  | .markDown _ => 0
  | .check _ _ => 0

/-- How far the operations move the counter. -/
def tries : LoadBalancer → List Operation → Nat
  | _, [] => 0
  | lb, op :: ops => lb.tried op + tries (lb.apply op) ops

/-! ## Turns -/

def aliveAt (lb : LoadBalancer) (i : Nat) : Bool := lb.backends[i]?.any (·.isAlive)

/-- The positions of the backends that are alive. -/
def alivePositions (lb : LoadBalancer) : List Nat :=
  (List.range lb.backends.length).filter lb.aliveAt

/-- The positions of the backends that are alive in cyclic order, from the first
    one at or after `current_index_` on. -/
def cycle (lb : LoadBalancer) : List Nat :=
  ((List.range lb.backends.length).rotate lb.currentPosition).filter lb.aliveAt

/-- The calls go around the backends that are alive. -/
structure TakesTurns (lb : LoadBalancer) (ops : List Operation) : Prop where
  cyclic : ∀ k < (selections lb ops).length,
    (selections lb ops)[k]? = lb.cycle[k % lb.cycle.length]?.map some
  round : (selections lb ops).length = lb.alivePositions.length →
    selections lb ops = lb.cycle.map some
  even : ∀ i ∈ lb.alivePositions, ∀ j ∈ lb.alivePositions,
    (selections lb ops).count (some i) ≤ (selections lb ops).count (some j) + 1

theorem cycle_perm (lb : LoadBalancer) : lb.cycle.Perm lb.alivePositions :=
  (List.rotate_perm _ _).filter _

theorem nodup_cycle (lb : LoadBalancer) : lb.cycle.Nodup :=
  (List.nodup_rotate.mpr List.nodup_range).filter _

/-! ## One Call -/

theorem PassesOver.tail {lb : LoadBalancer} {k : Nat} (h : lb.PassesOver (k + 1)) :
    (lb.advance 1).PassesOver k := by
  intro j hj b hb
  rw [positionAfter_advance, Nat.add_comm 1 j] at hb
  exact h (j + 1) (by omega) b hb

theorem triesLoop_succ {lb : LoadBalancer} {b : Backend} (left : Nat)
    (hb : lb.backends[lb.positionAfter 0]? = some b) :
    triesLoop (left + 1) lb =
      if b.isAlive then 1 else triesLoop left (lb.advance 1) + 1 := by
  have hfirst : lb.currentPosition = lb.positionAfter 0 := by
    simpa using currentPosition_advance 0 lb
  conv => lhs; unfold triesLoop
  rw [hfirst, hb]

theorem triesLoop_of_passes {lb : LoadBalancer} (hne : lb.backends ≠ []) {left : Nat}
    (h : lb.PassesOver left) : triesLoop left lb = left := by
  induction left generalizing lb with
  | zero => rfl
  | succ left ih =>
    have hb := List.getElem?_eq_getElem (positionAfter_lt hne 0)
    have hdead := h 0 (Nat.succ_pos left) _ hb
    rw [triesLoop_succ left hb, hdead, ih (show (lb.advance 1).backends ≠ [] from hne) h.tail]
    rfl

theorem triesLoop_of_found {lb : LoadBalancer} {left k : Nat} {b : Backend} (hk : k < left)
    (h : lb.PassesOver k) (hb : lb.backends[lb.positionAfter k]? = some b)
    (halive : b.isAlive = true) : triesLoop left lb = k + 1 := by
  induction left generalizing lb k with
  | zero => omega
  | succ left ih =>
    cases k with
    | zero => rw [triesLoop_succ left hb, if_pos halive]
    | succ k =>
      have hne : lb.backends ≠ [] := by
        intro hnil
        rw [hnil] at hb
        cases hb
      have hfirst := List.getElem?_eq_getElem (positionAfter_lt hne 0)
      have hdead := h 0 (Nat.succ_pos k) _ hfirst
      rw [← Nat.add_comm 1 k, ← positionAfter_advance] at hb
      rw [triesLoop_succ left hfirst, hdead, ih (by omega) h.tail hb]
      rfl

/-- What a step does to the counter and to what is alive, and what it returns. -/
structure StepFacts (lb : LoadBalancer) (op : Operation) : Prop where
  index : (lb.apply op).currentIndex = lb.currentIndex + BitVec.ofNat 32 (lb.tried op)
  alive : (lb.apply op).backends.map (·.isAlive) = lb.backends.map (·.isAlive)
  found : (lb.selected op).reduceOption =
    ((List.range (lb.tried op)).map lb.positionAfter).filter lb.aliveAt
  missed : none ∈ lb.selected op → lb.tried op = lb.backends.length

theorem PassesOver.filter_eq_nil {lb : LoadBalancer} {k : Nat} (h : lb.PassesOver k) :
    ((List.range k).map lb.positionAfter).filter lb.aliveAt = [] := by
  rw [List.filter_eq_nil_iff]
  intro i hi
  obtain ⟨j, hj, rfl⟩ := List.mem_map.mp hi
  unfold aliveAt
  cases hb : lb.backends[lb.positionAfter j]? with
  | none => simp
  | some b =>
    have hdead := h j (List.mem_range.mp hj) b hb
    simp [hdead]

theorem getNext_facts (lb : LoadBalancer) : StepFacts lb .getNext := by
  have hscan := lb.getNext_scan
  by_cases hne : lb.backends = []
  · have htried : lb.tried .getNext = 0 := by
      show triesLoop lb.backends.length lb = 0
      rw [hne]
      rfl
    have hnext : lb.getNext = (none, lb.advance 0) := by
      unfold getNext
      rw [hne, advance_zero]
      rfl
    refine ⟨?_, ?_, ?_, fun _ => by rw [htried, hne]; rfl⟩
    · show lb.getNext.2.currentIndex = _
      rw [hnext, htried]
      rfl
    · show lb.getNext.2.backends.map _ = _
      rw [hnext, advance_backends]
    · show [lb.getNext.1.map Prod.fst].reduceOption = _
      rw [hnext, htried]
      rfl
  · have htried : ∀ t, triesLoop lb.backends.length lb = t → lb.tried .getNext = t := fun t h => h
    cases hresult : lb.getNext with
    | mk chosen lb' =>
    rw [hresult] at hscan
    have hchosen : lb.selected .getNext = [chosen.map Prod.fst] := by
      show [lb.getNext.1.map Prod.fst] = _
      rw [hresult]
    have happly : lb.apply .getNext = lb' := by
      show lb.getNext.2 = lb'
      rw [hresult]
    cases hscan with
    | found k backend hk passed here alive =>
      have hcount := htried (k + 1) (triesLoop_of_found hk passed here alive)
      refine ⟨?_, ?_, ?_, ?_⟩
      · rw [happly, hcount]
        rfl
      · rw [happly]
        exact map_isAlive_taken lb.backends _
      · have hhere : lb.aliveAt (lb.positionAfter k) = true := by
          unfold aliveAt
          rw [here]
          exact alive
        rw [hchosen, hcount, List.range_succ, List.map_append, List.filter_append,
          passed.filter_eq_nil]
        simp [hhere, List.reduceOption]
      · intro hnone
        rw [hchosen] at hnone
        simp at hnone
    | exhausted passed =>
      have hcount := htried _ (triesLoop_of_passes hne passed)
      refine ⟨?_, ?_, ?_, fun _ => hcount⟩
      · rw [happly, hcount]
        rfl
      · rw [happly, advance_backends]
      · rw [hchosen, hcount, passed.filter_eq_nil]
        rfl

theorem stepFacts {op : Operation} (h : op.KeepsAlive) (lb : LoadBalancer) : StepFacts lb op := by
  cases op with
  | getNext => exact lb.getNext_facts
  | release backend =>
    refine ⟨?_, ?_, rfl, fun hnone => by cases hnone⟩
    · show lb.currentIndex = lb.currentIndex + BitVec.ofNat 32 0
      simp
    · show (lb.backends.modify backend _).map (·.isAlive) = _
      refine List.ext_getElem? fun j => ?_
      rw [List.getElem?_map, List.getElem?_map, List.getElem?_modify]
      cases lb.backends[j]? with
      | none => rfl
      | some b => by_cases hij : backend = j <;> simp [hij]
  | markDown backend => exact h.elim
  | check backend alive => exact h.elim

/-! ## Many Calls -/

theorem aliveAt_congr {lb lb' : LoadBalancer}
    (h : lb'.backends.map (·.isAlive) = lb.backends.map (·.isAlive)) : lb'.aliveAt = lb.aliveAt := by
  have hflag : ∀ lb : LoadBalancer, lb.aliveAt = fun i => (lb.backends.map (·.isAlive))[i]?.any id := by
    intro lb
    funext i
    unfold aliveAt
    rw [List.getElem?_map]
    cases lb.backends[i]? <;> rfl
  rw [hflag, hflag, h]

theorem StepFacts.length_eq {lb : LoadBalancer} {op : Operation} (h : StepFacts lb op) :
    (lb.apply op).backends.length = lb.backends.length := by
  simpa using congrArg List.length h.alive

theorem StepFacts.positionAfter {lb : LoadBalancer} {op : Operation} (h : StepFacts lb op) (k : Nat) :
    (lb.apply op).positionAfter k = lb.positionAfter (lb.tried op + k) := by
  rw [← positionAfter_advance]
  unfold LoadBalancer.positionAfter indexAfter
  rw [h.index, h.length_eq]
  rfl

/-- **The backends returned are the alive ones among the positions tried.** -/
theorem selections_reduceOption {ops : List Operation} (hops : ∀ op ∈ ops, op.KeepsAlive)
    (lb : LoadBalancer) :
    (selections lb ops).reduceOption =
      ((List.range (tries lb ops)).map lb.positionAfter).filter lb.aliveAt := by
  induction ops generalizing lb with
  | nil => rfl
  | cons op ops ih =>
    have hstep := stepFacts (hops op List.mem_cons_self) lb
    have hrest := ih (fun op' hop' => hops op' (List.mem_cons_of_mem _ hop')) (lb.apply op)
    have hlater : (List.range (tries (lb.apply op) ops)).map (lb.apply op).positionAfter =
        ((List.range (tries (lb.apply op) ops)).map (lb.tried op + ·)).map lb.positionAfter := by
      rw [List.map_map]
      exact List.map_congr_left fun k _ => hstep.positionAfter k
    show (lb.selected op ++ selections (lb.apply op) ops).reduceOption = _
    rw [List.reduceOption_append, hstep.found, hrest, hlater, aliveAt_congr hstep.alive]
    show _ = ((List.range (lb.tried op + tries (lb.apply op) ops)).map _).filter _
    rw [List.range_add, List.map_append, List.filter_append]

/-- The positions tried are consecutive residues from some `c` on. -/
def TriesFrom (lb : LoadBalancer) (c tries : Nat) : Prop :=
  ∀ k < tries, lb.positionAfter k = (c + k) % lb.backends.length

/-- Consecutive tries leave no call without a backend while one is alive. -/
theorem none_not_mem_selections {ops : List Operation} (hops : ∀ op ∈ ops, op.KeepsAlive)
    {lb : LoadBalancer} {c i : Nat} (hfrom : lb.TriesFrom c (tries lb ops))
    (hi : lb.aliveAt i = true) : none ∉ selections lb ops := by
  induction ops generalizing lb c with
  | nil => exact List.not_mem_nil
  | cons op ops ih =>
    have hstep := stepFacts (hops op List.mem_cons_self) lb
    have hlater : (lb.apply op).TriesFrom (c + lb.tried op) (tries (lb.apply op) ops) := by
      intro k hk
      rw [hstep.positionAfter, hstep.length_eq, Nat.add_assoc]
      exact hfrom _ (Nat.add_lt_add_left hk _)
    have hi' : (lb.apply op).aliveAt i = true := by rw [aliveAt_congr hstep.alive, hi]
    have hrest := ih (fun op' hop' => hops op' (List.mem_cons_of_mem _ hop')) hlater hi'
    intro hnone
    rcases List.mem_append.mp hnone with hhere | hthere
    · -- a call that finds nothing has tried all positions
      have htried := hstep.missed hhere
      have hlt : i < lb.backends.length := by
        by_contra hge
        unfold aliveAt at hi
        rw [List.getElem?_eq_none (by omega)] at hi
        cases hi
      obtain ⟨k, hk, hmod⟩ := exists_add_mod_eq hlt c
      have hpos : lb.positionAfter k = i := by
        rw [hfrom k (show k < lb.tried op + tries (lb.apply op) ops by omega), hmod]
      have hmem : i ∈ (lb.selected op).reduceOption := by
        rw [hstep.found]
        exact List.mem_filter.mpr ⟨List.mem_map.mpr ⟨k, List.mem_range.mpr (by omega), hpos⟩, hi⟩
      cases op with
      | getNext =>
        have heq : lb.selected .getNext = [lb.getNext.1.map Prod.fst] := rfl
        rw [heq] at hhere hmem
        rw [← List.mem_singleton.mp hhere] at hmem
        cases hmem
      | release backend => cases hhere
      | markDown backend => cases hhere
      | check backend alive => cases hhere
    · exact hrest hthere

theorem map_some_reduceOption {l : List (Option Nat)} (h : none ∉ l) : l.reduceOption.map some = l := by
  induction l with
  | nil => rfl
  | cons x l ih =>
    cases x with
    | none => exact absurd List.mem_cons_self h
    | some i =>
      rw [List.reduceOption_cons_of_some, List.map_cons, ih fun hl => h (List.mem_cons_of_mem _ hl)]

theorem turns_selections {ops : List Operation} (hops : ∀ op ∈ ops, op.KeepsAlive)
    {lb : LoadBalancer} {c : Nat} (hne : lb.backends ≠ []) (hfrom : lb.TriesFrom c (tries lb ops)) :
    Turns lb.cycle (selections lb ops).reduceOption := by
  rw [selections_reduceOption hops]
  by_cases hzero : tries lb ops = 0
  · rw [hzero]
    exact .part List.nil_prefix
  · have hresidues : (List.range (tries lb ops)).map lb.positionAfter =
        residues c lb.backends.length (tries lb ops) :=
      List.map_congr_left fun k hk => hfrom k (List.mem_range.mp hk)
    have hfirst : lb.currentPosition = c % lb.backends.length := by
      have hcurrent : lb.currentPosition = lb.positionAfter 0 := by
        simpa using currentPosition_advance 0 lb
      rw [hcurrent, hfrom 0 (Nat.pos_of_ne_zero hzero), Nat.add_zero]
    unfold cycle
    rw [hresidues, hfirst]
    exact turns_filter_residues _ _ _ (List.length_pos_of_ne_nil hne)

/-- **The calls go around the alive backends** while the counter does not wrap,
    or wraps without a jump in the residues. -/
theorem takesTurns (lb : LoadBalancer) (ops : List Operation) (hops : ∀ op ∈ ops, op.KeepsAlive)
    (halive : lb.alivePositions ≠ []) (hsteady : lb.SteadyFor (tries lb ops)) :
    lb.TakesTurns ops := by
  obtain ⟨c, hc⟩ := hsteady.positionAfter
  have hfrom : lb.TriesFrom c (tries lb ops) := hc
  obtain ⟨i, hi⟩ := List.exists_mem_of_ne_nil _ halive
  obtain ⟨hrange, hup⟩ := List.mem_filter.mp hi
  have hne : lb.backends ≠ [] := by
    intro hnil
    rw [hnil] at hrange
    cases hrange
  have hall := map_some_reduceOption (none_not_mem_selections hops hfrom hup)
  have hturns := turns_selections hops hne hfrom
  have hlength : lb.cycle.length = lb.alivePositions.length := lb.cycle_perm.length_eq
  generalize (selections lb ops).reduceOption = found at hall hturns
  refine ⟨?_, ?_, ?_⟩
  · intro k hk
    rw [← hall, List.length_map] at hk
    rw [← hall, List.getElem?_map, hturns.getElem?_eq hk]
  · intro hround
    rw [← hall, List.length_map, ← hlength] at hround
    rw [← hall, hturns.eq_of_length hround]
  · intro i hi j hj
    have hinj := Option.some_injective Nat
    rw [← hall, List.count_map_of_injective _ _ hinj, List.count_map_of_injective _ _ hinj]
    exact hturns.count_le lb.nodup_cycle (lb.cycle_perm.mem_iff.mpr hi)
      (lb.cycle_perm.mem_iff.mpr hj)

/-- The second of three backends is down. -/
theorem takesTurns_two_of_three :
    (threeBackends.markDown 1).TakesTurns [.getNext, .release 0, .getNext, .getNext] :=
  takesTurns _ _ (by simp [Operation.KeepsAlive]) (by decide) (.inl (by decide))

/-! ## A Wrap -/

theorem tries_of_alive {lb : LoadBalancer} (hne : lb.backends ≠ [])
    (halive : ∀ b ∈ lb.backends, b.isAlive = true) (calls : Nat) :
    tries lb (List.replicate calls .getNext) = calls := by
  induction calls generalizing lb with
  | zero => rfl
  | succ calls ih =>
    have hstep := lb.getNext_facts
    have hrest := ih (ne_nil_of_map hstep.alive hne) (alive_of_map hstep.alive halive)
    have hb := List.getElem?_eq_getElem (positionAfter_lt hne 0)
    have hone : lb.tried .getNext = 1 := by
      show triesLoop lb.backends.length lb = 1
      obtain ⟨left, hleft⟩ := Nat.exists_eq_succ_of_ne_zero (List.length_pos_of_ne_nil hne).ne'
      rw [hleft, triesLoop_succ left hb, if_pos (halive _ (List.getElem_mem _))]
    rw [List.replicate_succ]
    show lb.tried .getNext + tries (lb.apply .getNext) (List.replicate calls .getNext) = _
    rw [hone, hrest, Nat.add_comm]

/-- After `2^32 - 1` calls the next three of three backends are the first, the
    first and the second. -/
theorem not_takesTurns_at_wrap :
    ¬ ∀ lb : LoadBalancer, LTS.Reachable system lb → ∀ ops : List Operation,
      (∀ op ∈ ops, op.KeepsAlive) → lb.alivePositions ≠ [] →
      lb.currentIndex.toInt + tries lb ops ≤ 2 ^ 31 - 1 → lb.TakesTurns ops := by
  intro h
  have hup : ∀ b ∈ threeBackends.backends, b.isAlive = true := by decide
  have hne : threeBackends.backends ≠ [] := by decide
  obtain ⟨ops, lb, hrun, hindex, hmap⟩ := exists_run_of_alive hne hup (2 ^ 32 - 1)
  replace hindex : lb.currentIndex = BitVec.ofNat 32 (2 ^ 32 - 1) := hindex.trans (by decide)
  have hlen : lb.backends.length = 3 := by
    have hsame := congrArg List.length hmap
    rw [List.length_map, List.length_map] at hsame
    exact hsame
  have hne' : lb.backends ≠ [] := ne_nil_of_map hmap hne
  have haliveAt : lb.aliveAt = threeBackends.aliveAt := aliveAt_congr hmap
  have halive : ∀ b ∈ lb.backends, b.isAlive = true := alive_of_map hmap hup
  have hpositions : lb.alivePositions = [0, 1, 2] := by
    unfold alivePositions
    rw [hlen, haliveAt]
    decide
  have htries : tries lb (List.replicate 3 .getNext) = 3 := tries_of_alive hne' halive 3
  have hkeeps : ∀ op ∈ List.replicate 3 Operation.getNext, op.KeepsAlive := by
    intro op hop
    rw [List.eq_of_mem_replicate hop]
    trivial
  have hbelow : lb.currentIndex.toInt + tries lb (List.replicate 3 .getNext) ≤ 2 ^ 31 - 1 := by
    rw [hindex, htries]
    decide
  have hturns := h lb ⟨threeBackends, ops, ⟨_, rfl⟩, hrun⟩ _ hkeeps (by rw [hpositions]; simp) hbelow
  have hround := hturns.round (by rw [hpositions]; rfl)
  -- the third backend is in the cycle, but the positions tried are smaller
  have hthird : 2 ∈ lb.cycle := by
    rw [lb.cycle_perm.mem_iff, hpositions]
    decide
  have hselected : 2 ∈ (selections lb (List.replicate 3 .getNext)).reduceOption := by
    rw [hround, List.reduceOption_mem_iff]
    exact List.mem_map_of_mem hthird
  rw [selections_reduceOption hkeeps, htries] at hselected
  obtain ⟨k, hk, hpos⟩ := List.mem_map.mp (List.mem_filter.mp hselected).1
  have hsmall := positionAfter_three hindex hlen (List.mem_range.mp hk)
  omega

end LoadBalancer

end VeloxServe
