import Mathlib.Data.List.Rotate
import Mathlib.Data.List.Nodup

/-! # Turning Around a Cycle

    A list that goes around a cycle some number of times, the last time perhaps
    not to the end. When the cycle has no member twice, all members come up
    equally often up to one. Consecutive numbers modulo `n` go around the
    positions below `n`, and so do those of them that a predicate keeps.
-/

namespace Rotation

variable {α : Type u}

/-- Some turns around a cycle, the last one perhaps cut short. -/
inductive Turns (cycle : List α) : List α → Prop where
  | part {l : List α} (h : l <+: cycle) : Turns cycle l
  | turn {l : List α} (h : Turns cycle l) : Turns cycle (cycle ++ l)

/-- The entries repeat the cycle. -/
theorem Turns.getElem?_eq {cycle l : List α} (h : Turns cycle l) {k : Nat} (hk : k < l.length) :
    l[k]? = cycle[k % cycle.length]? := by
  induction h generalizing k with
  | part hpre =>
    have hlt : k < cycle.length := Nat.lt_of_lt_of_le hk hpre.length_le
    rw [Nat.mod_eq_of_lt hlt, List.getElem?_eq_getElem hk, hpre.getElem hk,
      List.getElem?_eq_getElem hlt]
  | turn hl ih =>
    rw [List.length_append] at hk
    by_cases hfirst : k < cycle.length
    · rw [Nat.mod_eq_of_lt hfirst, List.getElem?_append_left hfirst]
    · have hrest := ih (show k - cycle.length < _ by omega)
      have hmod := Nat.mod_eq_sub_mod (show k ≥ cycle.length by omega)
      rw [List.getElem?_append_right (by omega), hrest, hmod]

/-- One turn is the cycle. -/
theorem Turns.eq_of_length {cycle l : List α} (h : Turns cycle l)
    (hlength : l.length = cycle.length) : l = cycle := by
  cases h with
  | part hpre => exact hpre.eq_of_length hlength
  | @turn l hl =>
    have hnil : l = [] := by
      rw [List.length_append] at hlength
      exact List.eq_nil_of_length_eq_zero (by omega)
    rw [hnil, List.append_nil]

/-- Two members of the cycle come up equally often up to one. -/
theorem Turns.count_le [DecidableEq α] {cycle l : List α} (h : Turns cycle l)
    (hnodup : cycle.Nodup) {x y : α} (hx : x ∈ cycle) (hy : y ∈ cycle) :
    l.count x ≤ l.count y + 1 := by
  induction h with
  | @part l hpre =>
    have honce : cycle.count x = 1 := List.count_eq_one_of_mem hnodup hx
    have hle : l.count x ≤ cycle.count x := hpre.sublist.count_le x
    omega
  | turn hl ih =>
    have hxonce : cycle.count x = 1 := List.count_eq_one_of_mem hnodup hx
    have hyonce : cycle.count y = 1 := List.count_eq_one_of_mem hnodup hy
    rw [List.count_append, List.count_append]
    omega

/-! ## Residues -/

/-- `T` consecutive numbers from `c` on, modulo `n`. -/
def residues (c n T : Nat) : List Nat := (List.range T).map fun k => (c + k) % n

@[simp] theorem length_residues (c n T : Nat) : (residues c n T).length = T := by
  simp [residues]

theorem residues_append (c n S T : Nat) :
    residues c n (S + T) = residues c n S ++ residues (c + S) n T := by
  unfold residues
  rw [List.range_add, List.map_append, List.map_map]
  congr 1
  refine List.map_congr_left fun k _ => ?_
  show (c + (S + k)) % n = (c + S + k) % n
  rw [Nat.add_assoc]

theorem residues_period (c n T : Nat) : residues (c + n) n T = residues c n T := by
  unfold residues
  refine List.map_congr_left fun k _ => ?_
  rw [Nat.add_right_comm, Nat.add_mod_right]

/-- `n` consecutive numbers go through all positions. -/
theorem residues_self (c n : Nat) : residues c n n = (List.range n).rotate (c % n) := by
  refine List.ext_getElem (by simp) fun k hk hk' => ?_
  rw [List.getElem_rotate]
  simp [residues, Nat.add_comm c k]

theorem residues_mono (c n : Nat) {S T : Nat} (h : S ≤ T) : residues c n S <+: residues c n T := by
  obtain ⟨R, rfl⟩ := Nat.exists_eq_add_of_le h
  rw [residues_append]
  exact List.prefix_append _ _

/-- **Consecutive residues that are kept go around the positions that are kept**,
    from the first residue on. -/
theorem turns_filter_residues (p : Nat → Bool) (c T : Nat) {n : Nat} (hn : 0 < n) :
    Turns (((List.range n).rotate (c % n)).filter p) ((residues c n T).filter p) := by
  rw [← residues_self]
  induction T using Nat.strongRecOn with
  | ind T ih =>
    by_cases hpart : T ≤ n
    · exact .part ((residues_mono c n hpart).filter p)
    · obtain ⟨R, rfl⟩ := Nat.exists_eq_add_of_le (Nat.le_of_not_le hpart)
      rw [residues_append, residues_period, List.filter_append]
      exact .turn (ih R (by omega))

end Rotation
