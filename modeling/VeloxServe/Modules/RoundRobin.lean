import Mathlib.Data.Nat.ModEq
import VeloxServe.Modules.LoadBalancer

/-! # The Round Robin

    `get_next` tries as many positions as there are backends. They are the
    residues of consecutive values of a counter that wraps from `2^31 - 1` to
    `-2^31` and, as a `size_t`, from `2^64 - 1` to `0`; next to a wrap they need
    not be all positions.
-/

namespace VeloxServe

open StdString

/-- A backend that has been handed out once more. -/
def Backend.taken (backend : Backend) : Backend :=
  { backend with
    activeConnections := backend.activeConnections + 1
    totalRequests := backend.totalRequests + 1 }

namespace LoadBalancer

/-! ## The Counter -/

/-- `current_index_` after `k` more increments, as a `size_t`: a negative `int` is
    a value below `2^64`. -/
def indexAfter (lb : LoadBalancer) (k : Nat) : Nat :=
  let index := (lb.currentIndex.toNat + k) % 2 ^ 32
  if index < 2 ^ 31 then index else index + (2 ^ 64 - 2 ^ 32)

/-- The position that is tried after `k` others. -/
def positionAfter (lb : LoadBalancer) (k : Nat) : Nat := lb.indexAfter k % lb.backends.length

def advance (k : Nat) (lb : LoadBalancer) : LoadBalancer :=
  { lb with currentIndex := lb.currentIndex + BitVec.ofNat 32 k }

@[simp] theorem advance_backends (k : Nat) (lb : LoadBalancer) :
    (lb.advance k).backends = lb.backends := rfl

@[simp] theorem advance_zero (lb : LoadBalancer) : lb.advance 0 = lb := by
  simp [advance]

theorem advance_advance (j k : Nat) (lb : LoadBalancer) :
    (lb.advance j).advance k = lb.advance (j + k) := by
  unfold advance
  rw [BitVec.ofNat_add, ← BitVec.add_assoc]

theorem toNat_signExtend_index (index : BitVec 32) :
    (index.signExtend 64).toNat =
      if index.toNat < 2 ^ 31 then index.toNat else index.toNat + (2 ^ 64 - 2 ^ 32) := by
  rw [BitVec.toNat_signExtend, BitVec.toNat_setWidth, BitVec.msb_eq_decide]
  have hlt := index.isLt
  by_cases hneg : index.toNat < 2 ^ 31
  · have hmsb : decide (2 ^ (32 - 1) ≤ index.toNat) = false := by simp; omega
    rw [hmsb, if_pos hneg]
    simp
    omega
  · have hmsb : decide (2 ^ (32 - 1) ≤ index.toNat) = true := by simp; omega
    rw [hmsb, if_neg hneg]
    simp
    omega

theorem currentPosition_advance (k : Nat) (lb : LoadBalancer) :
    (lb.advance k).currentPosition = lb.positionAfter k := by
  have hindex : (lb.currentIndex + BitVec.ofNat 32 k).toNat =
      (lb.currentIndex.toNat + k) % 2 ^ 32 := by
    simp
  unfold currentPosition positionAfter indexAfter advance
  rw [toNat_signExtend_index, hindex]

theorem positionAfter_advance (j k : Nat) (lb : LoadBalancer) :
    (lb.advance j).positionAfter k = lb.positionAfter (j + k) := by
  rw [← currentPosition_advance, advance_advance, currentPosition_advance]

theorem positionAfter_lt {lb : LoadBalancer} (h : lb.backends ≠ []) (k : Nat) :
    lb.positionAfter k < lb.backends.length :=
  Nat.mod_lt _ (List.length_pos_of_ne_nil h)

/-! ## The Scan -/

/-- The backends at the first `k` positions tried are dead. -/
def PassesOver (lb : LoadBalancer) (k : Nat) : Prop :=
  ∀ j < k, ∀ b, lb.backends[lb.positionAfter j]? = some b → b.isAlive = false

/-- What the loop of `get_next` does with `left` tries. -/
inductive Scan (lb : LoadBalancer) (left : Nat) : Option (Nat × Backend) × LoadBalancer → Prop where
  | found (k : Nat) (backend : Backend) (tried : k < left) (passed : lb.PassesOver k)
      (here : lb.backends[lb.positionAfter k]? = some backend) (alive : backend.isAlive = true) :
      Scan lb left (some (lb.positionAfter k, backend),
        (lb.advance (k + 1)).update (lb.positionAfter k) Backend.taken)
  | exhausted (passed : lb.PassesOver left) : Scan lb left (none, lb.advance left)

theorem PassesOver.cons {lb : LoadBalancer} {k : Nat} {b : Backend}
    (hhere : lb.backends[lb.positionAfter 0]? = some b) (hdead : b.isAlive = false)
    (hrest : (lb.advance 1).PassesOver k) : lb.PassesOver (k + 1) := by
  intro j hj b' hb'
  cases j with
  | zero =>
    obtain rfl : b = b' := Option.some.inj (hhere.symm.trans hb')
    exact hdead
  | succ j =>
    refine hrest j (by omega) b' ?_
    rw [positionAfter_advance, Nat.add_comm 1 j]
    exact hb'

theorem getNextLoop_scan (left : Nat) {lb : LoadBalancer} (h : lb.backends ≠ []) :
    Scan lb left (getNextLoop left lb) := by
  induction left generalizing lb with
  | zero =>
    have hnone : lb.PassesOver 0 := fun j hj => absurd hj (Nat.not_lt_zero j)
    simpa [getNextLoop] using Scan.exhausted hnone
  | succ left ih =>
    have hfirst : lb.currentPosition = lb.positionAfter 0 := by
      simpa using currentPosition_advance 0 lb
    obtain ⟨b, hb⟩ : ∃ b, lb.backends[lb.positionAfter 0]? = some b :=
      ⟨_, List.getElem?_eq_getElem (positionAfter_lt h 0)⟩
    unfold getNextLoop
    dsimp only
    rw [hfirst, hb]
    dsimp only
    by_cases halive : b.isAlive = true
    · rw [if_pos halive]
      have hnone : lb.PassesOver 0 := fun j hj => absurd hj (Nat.not_lt_zero j)
      exact Scan.found 0 b (Nat.succ_pos left) hnone hb halive
    · rw [if_neg halive]
      have hdead : b.isAlive = false := by simpa using halive
      -- the other tries start one increment later
      show Scan lb (left + 1) (getNextLoop left (lb.advance 1))
      have hne : (lb.advance 1).backends ≠ [] := h
      have hrest := ih hne
      generalize getNextLoop left (lb.advance 1) = result at hrest ⊢
      cases hrest with
      | found k backend tried passed here alive =>
        rw [positionAfter_advance, Nat.add_comm 1 k] at here ⊢
        rw [advance_advance, Nat.add_comm 1 (k + 1)]
        exact Scan.found (k + 1) backend (by omega) (passed.cons hb hdead) here alive
      | exhausted passed =>
        rw [advance_advance, Nat.add_comm 1 left]
        exact Scan.exhausted (passed.cons hb hdead)

/-- One pass of `get_next` over the backends. -/
theorem getNext_scan (lb : LoadBalancer) : Scan lb lb.backends.length lb.getNext := by
  by_cases h : lb.backends = []
  · have hnone : lb.PassesOver 0 := fun j hj => absurd hj (Nat.not_lt_zero j)
    have hnext : lb.getNext = (none, lb.advance 0) := by
      unfold getNext
      rw [h, advance_zero]
      rfl
    rw [hnext, h]
    exact Scan.exhausted hnone
  · exact getNextLoop_scan _ h

/-! ## Which Positions Are Tried -/

theorem exists_add_mod_eq {n i : Nat} (h : i < n) (c : Nat) : ∃ k < n, (c + k) % n = i := by
  have hpos : 0 < n := by omega
  have hc : c % n < n := Nat.mod_lt c hpos
  have hsum : c % n + (i + (n - c % n)) = i + n := by omega
  refine ⟨(i + (n - c % n)) % n, Nat.mod_lt _ hpos, ?_⟩
  calc (c + (i + (n - c % n)) % n) % n
      = (c % n + (i + (n - c % n))) % n := by rw [Nat.add_mod_mod, Nat.mod_add_mod]
    _ = (i + n) % n := by rw [hsum]
    _ = i := by rw [Nat.add_mod_right, Nat.mod_eq_of_lt h]

/-- The counter does not wrap during some tries, or wraps without a jump in the residues. -/
def SteadyFor (lb : LoadBalancer) (tries : Nat) : Prop :=
  let index := lb.currentIndex.toNat
  index + tries ≤ 2 ^ 31 ∨ (2 ^ 31 ≤ index ∧ index + tries ≤ 2 ^ 32) ∨
    lb.backends.length ∣ 2 ^ 32

/-- Next to a wrap some `c` still counts the tries, up to their number. -/
theorem SteadyFor.positionAfter {lb : LoadBalancer} {tries : Nat} (h : lb.SteadyFor tries) :
    ∃ c, ∀ k < tries, lb.positionAfter k = (c + k) % lb.backends.length := by
  unfold LoadBalancer.positionAfter indexAfter
  rcases h with hlow | ⟨hneg, hhigh⟩ | hdvd
  · refine ⟨lb.currentIndex.toNat, fun k hk => ?_⟩
    have hmod : (lb.currentIndex.toNat + k) % 2 ^ 32 = lb.currentIndex.toNat + k :=
      Nat.mod_eq_of_lt (by omega)
    dsimp only
    rw [hmod, if_pos (by omega)]
  · refine ⟨lb.currentIndex.toNat + (2 ^ 64 - 2 ^ 32), fun k hk => ?_⟩
    have hmod : (lb.currentIndex.toNat + k) % 2 ^ 32 = lb.currentIndex.toNat + k :=
      Nat.mod_eq_of_lt (by omega)
    dsimp only
    rw [hmod, if_neg (by omega), Nat.add_right_comm]
  · refine ⟨lb.currentIndex.toNat, fun k _ => ?_⟩
    have hres : (lb.currentIndex.toNat + k) % 2 ^ 32 % lb.backends.length =
        (lb.currentIndex.toNat + k) % lb.backends.length := Nat.mod_mod_of_dvd _ hdvd
    have hjump : lb.backends.length ∣ 2 ^ 64 - 2 ^ 32 :=
      hdvd.trans ⟨2 ^ 32 - 1, by decide⟩
    dsimp only
    split
    · exact hres
    · rw [Nat.add_mod, Nat.mod_eq_zero_of_dvd hjump, Nat.add_zero, Nat.mod_mod, hres]

theorem SteadyFor.triesAll {lb : LoadBalancer} (h : lb.SteadyFor lb.backends.length) :
    ∀ i < lb.backends.length, ∃ k < lb.backends.length, lb.positionAfter k = i := by
  intro i hi
  obtain ⟨c, hc⟩ := h.positionAfter
  obtain ⟨k, hk, hmod⟩ := exists_add_mod_eq hi c
  exact ⟨k, hk, (hc k hk).trans hmod⟩

/-! ## What a Call Returns -/

/-- No backend is alive exactly when there is none to return, and only the backend
    that is returned is changed. -/
structure Serves (lb : LoadBalancer) : Prop where
  none_iff : lb.getNext.1 = none ↔ ∀ b ∈ lb.backends, b.isAlive = false
  chosen : ∀ i backend, lb.getNext.1 = some (i, backend) →
    lb.backends[i]? = some backend ∧ backend.isAlive = true ∧
      lb.getNext.2.backends = lb.backends.modify i Backend.taken

/-- If any backend is alive, the next values of the counter lead to one that is. -/
def ReachesAlive (lb : LoadBalancer) : Prop :=
  (∃ b ∈ lb.backends, b.isAlive = true) →
    ∃ k < lb.backends.length, ∃ b, lb.backends[lb.positionAfter k]? = some b ∧ b.isAlive = true

theorem PassesOver.not_alive {lb : LoadBalancer} {k j : Nat} {b : Backend} (h : lb.PassesOver k)
    (hj : j < k) (hb : lb.backends[lb.positionAfter j]? = some b) : b.isAlive ≠ true := by
  rw [h j hj b hb]
  exact Bool.false_ne_true

/-- Dead backends are never handed out. -/
theorem getNext_none_of_dead {lb : LoadBalancer} (h : ∀ b ∈ lb.backends, b.isAlive = false) :
    lb.getNext.1 = none := by
  have hscan := lb.getNext_scan
  generalize lb.getNext = result at hscan ⊢
  cases hscan with
  | found k backend tried passed here alive =>
    rw [h backend (List.mem_of_getElem? here)] at alive
    cases alive
  | exhausted passed => rfl

theorem getNext_chosen (lb : LoadBalancer) (i : Nat) (backend : Backend)
    (h : lb.getNext.1 = some (i, backend)) :
    lb.backends[i]? = some backend ∧ backend.isAlive = true ∧
      lb.getNext.2.backends = lb.backends.modify i Backend.taken := by
  have hscan := lb.getNext_scan
  generalize lb.getNext = result at h hscan ⊢
  cases hscan with
  | found k found tried passed here alive =>
    obtain ⟨rfl, rfl⟩ := Prod.mk.inj (Option.some.inj h)
    exact ⟨here, alive, rfl⟩
  | exhausted passed => cases h

/-- The scan finds a backend when a value of the counter leads to one that is alive. -/
theorem getNext_isSome_iff (lb : LoadBalancer) :
    lb.getNext.1 ≠ none ↔
      ∃ k < lb.backends.length, ∃ b, lb.backends[lb.positionAfter k]? = some b ∧
        b.isAlive = true := by
  have hscan := lb.getNext_scan
  generalize lb.getNext = result at hscan ⊢
  cases hscan with
  | found k backend tried passed here alive =>
    constructor
    · intro _
      exact ⟨k, tried, backend, here, alive⟩
    · intro _ hnone
      cases hnone
  | exhausted passed =>
    constructor
    · intro hne
      exact absurd rfl hne
    · intro hreach
      obtain ⟨k, hk, b, hb, halive⟩ := hreach
      exact absurd halive (passed.not_alive hk hb)

/-- **`get_next` keeps its promise exactly when its tries reach a backend that is
    alive, if there is one.** -/
theorem serves_iff (lb : LoadBalancer) : lb.Serves ↔ lb.ReachesAlive := by
  constructor
  · intro hserves halive
    obtain ⟨b, hb, hup⟩ := halive
    refine lb.getNext_isSome_iff.mp fun hnone => ?_
    rw [hserves.none_iff.mp hnone b hb] at hup
    cases hup
  · intro hreach
    refine ⟨⟨fun hnone => ?_, getNext_none_of_dead⟩, lb.getNext_chosen⟩
    intro b hb
    by_contra hup
    have halive : ∃ b ∈ lb.backends, b.isAlive = true := ⟨b, hb, by simpa using hup⟩
    exact lb.getNext_isSome_iff.mpr (hreach halive) hnone

/-- Away from the wraps all positions are tried. -/
theorem SteadyFor.reachesAlive {lb : LoadBalancer} (h : lb.SteadyFor lb.backends.length) :
    lb.ReachesAlive := by
  intro halive
  obtain ⟨b, hb, hup⟩ := halive
  obtain ⟨i, hi⟩ := List.mem_iff_getElem?.mp hb
  obtain ⟨hlt, -⟩ := List.getElem?_eq_some_iff.mp hi
  obtain ⟨k, hk, hpos⟩ := h.triesAll i hlt
  exact ⟨k, hk, b, by rw [hpos]; exact hi, hup⟩

/-! ## A Wrap -/

/-- A call among backends that are all alive takes the first position tried. -/
theorem getNext_of_alive {lb : LoadBalancer} (hne : lb.backends ≠ [])
    (halive : ∀ b ∈ lb.backends, b.isAlive = true) :
    lb.getNext.2 = (lb.advance 1).update (lb.positionAfter 0) Backend.taken := by
  have hscan := lb.getNext_scan
  generalize lb.getNext = result at hscan ⊢
  have hfirst : ∀ k, 0 < k → ¬ lb.PassesOver k := by
    intro k hk hpassed
    have hlt := positionAfter_lt hne 0
    have hup := halive _ (List.getElem_mem hlt)
    exact hpassed.not_alive hk (List.getElem?_eq_getElem hlt) hup
  cases hscan with
  | found k backend tried passed here alive =>
    obtain rfl : k = 0 := by
      by_contra hk
      exact hfirst k (Nat.pos_of_ne_zero hk) passed
    rfl
  | exhausted passed => exact absurd passed (hfirst _ (List.length_pos_of_ne_nil hne))

theorem map_isAlive_taken (l : List Backend) (i : Nat) :
    (l.modify i Backend.taken).map (·.isAlive) = l.map (·.isAlive) := by
  refine List.ext_getElem? fun j => ?_
  rw [List.getElem?_map, List.getElem?_map, List.getElem?_modify]
  cases l[j]? with
  | none => rfl
  | some b => by_cases hij : i = j <;> simp [hij, Backend.taken]

/-- Backends that are as alive as some others are alive when those are. -/
theorem alive_of_map {l l' : List Backend} (hmap : l'.map (·.isAlive) = l.map (·.isAlive))
    (h : ∀ b ∈ l, b.isAlive = true) : ∀ b ∈ l', b.isAlive = true := by
  intro b hb
  have hmem : b.isAlive ∈ l.map (·.isAlive) := hmap ▸ List.mem_map_of_mem hb
  obtain ⟨b', hb', heq⟩ := List.mem_map.mp hmem
  rw [← heq]
  exact h b' hb'

theorem ne_nil_of_map {l l' : List Backend} (hmap : l'.map (·.isAlive) = l.map (·.isAlive))
    (h : l ≠ []) : l' ≠ [] := by
  intro hnil
  rw [hnil] at hmap
  exact h (List.map_eq_nil_iff.mp hmap.symm)

/-- While all backends are alive, enough calls bring the counter to any value. -/
theorem exists_run_of_alive {lb : LoadBalancer} (hne : lb.backends ≠ [])
    (halive : ∀ b ∈ lb.backends, b.isAlive = true) (k : Nat) :
    ∃ ops lb', LTS.Run system lb ops lb' ∧
      lb'.currentIndex = lb.currentIndex + BitVec.ofNat 32 k ∧
      lb'.backends.map (·.isAlive) = lb.backends.map (·.isAlive) := by
  induction k with
  | zero => exact ⟨[], lb, LTS.Run.nil, by simp, rfl⟩
  | succ k ih =>
    obtain ⟨ops, lb', hrun, hindex, hmap⟩ := ih
    have hnext := getNext_of_alive (ne_nil_of_map hmap hne) (alive_of_map hmap halive)
    refine ⟨ops ++ [.getNext], lb'.getNext.2, LTS.Run.snoc _ hrun (system_step _ .getNext), ?_, ?_⟩
    · rw [hnext]
      show lb'.currentIndex + BitVec.ofNat 32 1 = _
      rw [hindex, BitVec.ofNat_add, BitVec.add_assoc]
    · rw [hnext]
      show (lb'.backends.modify _ Backend.taken).map (·.isAlive) = _
      rw [map_isAlive_taken, hmap]

/-- Three backends, as `test_load_balancer` has them. -/
def threeBackends : LoadBalancer :=
  create [(bytes "127.0.0.1", 3001), (bytes "127.0.0.1", 3002), (bytes "127.0.0.1", 3003)]

/-- From `-1` on, the residues for three backends are `0`, `0` and `1`. -/
theorem positionAfter_three {lb : LoadBalancer} (hindex : lb.currentIndex = BitVec.ofNat 32 (2 ^ 32 - 1))
    (hlen : lb.backends.length = 3) {k : Nat} (hk : k < 3) : lb.positionAfter k < 2 := by
  unfold positionAfter indexAfter
  rw [hindex, hlen]
  obtain rfl | rfl | rfl : k = 0 ∨ k = 1 ∨ k = 2 := by omega
  · decide
  · decide
  · decide

/-- After `2^32 - 1` calls, with only the last of three backends alive, `get_next`
    finds none. -/
theorem not_serves_at_wrap :
    ¬ ∀ lb : LoadBalancer, LTS.Reachable system lb → lb.Serves := by
  intro h
  have hup : ∀ b ∈ threeBackends.backends, b.isAlive = true := by decide
  have hne : threeBackends.backends ≠ [] := by decide
  obtain ⟨ops, lb, hrun, hindex, hmap⟩ := exists_run_of_alive hne hup (2 ^ 32 - 1)
  obtain ⟨b₀, b₁, b₂, hbackends⟩ : ∃ b₀ b₁ b₂, lb.backends = [b₀, b₁, b₂] := by
    have hlen : lb.backends.length = 3 := by
      have hsame := congrArg List.length hmap
      rw [List.length_map, List.length_map] at hsame
      exact hsame
    exact List.length_eq_three.mp hlen
  have hb₂ : b₂.isAlive = true := by
    rw [hbackends] at hmap
    exact (List.cons.inj (List.cons.inj (List.cons.inj hmap).2).2).1
  -- the other two fail
  have hdown : (( lb.markDown 0).markDown 1).backends =
      [{ b₀ with isAlive := false }, { b₁ with isAlive := false }, b₂] := by
    unfold markDown update
    rw [hbackends]
    rfl
  have hreach : LTS.Reachable system ((lb.markDown 0).markDown 1) :=
    ⟨threeBackends, ops ++ [.markDown 0] ++ [.markDown 1], ⟨_, rfl⟩,
      (hrun.snoc _ (system_step _ (.markDown 0))).snoc _ (system_step _ (.markDown 1))⟩
  have hserves := h _ hreach
  have hnone : ((lb.markDown 0).markDown 1).getNext.1 = none := by
    by_contra hsome
    obtain ⟨k, hk, b, hb, halive⟩ := (getNext_isSome_iff _).mp hsome
    rw [hdown] at hk
    have hpos : ((lb.markDown 0).markDown 1).positionAfter k < 2 := by
      refine positionAfter_three ?_ (by rw [hdown]; rfl) hk
      exact hindex.trans (by decide)
    rw [hdown] at hb
    obtain hzero | hone : ((lb.markDown 0).markDown 1).positionAfter k = 0 ∨
        ((lb.markDown 0).markDown 1).positionAfter k = 1 := by omega
    · rw [hzero] at hb
      obtain rfl := Option.some.inj hb
      cases halive
    · rw [hone] at hb
      obtain rfl := Option.some.inj hb
      cases halive
  have hmem : b₂ ∈ ((lb.markDown 0).markDown 1).backends := by
    rw [hdown]
    simp
  rw [hserves.none_iff.mp hnone b₂ hmem] at hb₂
  cases hb₂

end LoadBalancer

end VeloxServe
