import Mathlib.Data.List.Basic
import Mathlib.Order.Basic

/-! # Longest Matches

    The heaviest elements of a list that meet a predicate, such as the longest
    of the patterns that match:

    * **Existence and uniqueness**, when matches of one weight are the same.
    * **First match**: in a list sorted by weight the first match is the
      heaviest one.
    * **Agreement**: when two predicates have the same heaviest match.
-/

namespace LongestMatch

universe u

variable {α : Type u}

/-- A match that no other match outweighs. -/
structure Best (weight : α → Nat) (p : α → Prop) (l : List α) (a : α) : Prop where
  mem : a ∈ l
  holds : p a
  maximal : ∀ b ∈ l, p b → weight b ≤ weight a

/-- Matches of one weight are the same. -/
def Separated (weight : α → Nat) (p : α → Prop) (l : List α) : Prop :=
  ∀ a ∈ l, ∀ b ∈ l, p a → p b → weight a = weight b → a = b

section

variable {weight : α → Nat} {p q : α → Prop} {l l' : List α} {a b : α}

theorem Best.unique (hsep : Separated weight p l) (ha : Best weight p l a)
    (hb : Best weight p l b) : a = b := by
  have hle := ha.maximal b hb.mem hb.holds
  have hge := hb.maximal a ha.mem ha.holds
  exact hsep a ha.mem b hb.mem ha.holds hb.holds (Nat.le_antisymm hge hle)

theorem exists_best (h : ∃ a ∈ l, p a) : ∃ a, Best weight p l a := by
  induction l with
  | nil =>
    obtain ⟨a, ha, -⟩ := h
    cases ha
  | cons x l ih =>
    by_cases hrest : ∃ a ∈ l, p a
    · obtain ⟨a, ha⟩ := ih hrest
      by_cases hx : p x ∧ weight a ≤ weight x
      · refine ⟨x, List.mem_cons_self, hx.1, fun b hb hpb => ?_⟩
        rcases List.mem_cons.mp hb with rfl | hb
        · exact Nat.le_refl _
        · exact Nat.le_trans (ha.maximal b hb hpb) hx.2
      · refine ⟨a, List.mem_cons_of_mem x ha.mem, ha.holds, fun b hb hpb => ?_⟩
        rcases List.mem_cons.mp hb with rfl | hb
        · by_contra hlt
          exact hx ⟨hpb, by omega⟩
        · exact ha.maximal b hb hpb
    · obtain ⟨a, ha, hpa⟩ := h
      rcases List.mem_cons.mp ha with rfl | ha
      · refine ⟨a, List.mem_cons_self, hpa, fun b hb hpb => ?_⟩
        rcases List.mem_cons.mp hb with rfl | hb
        · exact Nat.le_refl _
        · exact absurd ⟨b, hb, hpb⟩ hrest
      · exact absurd ⟨a, ha, hpa⟩ hrest

/-- The order of the list does not matter. -/
theorem Best.perm (hperm : l.Perm l') (h : Best weight p l a) : Best weight p l' a where
  mem := hperm.mem_iff.mp h.mem
  holds := h.holds
  maximal := fun b hb => h.maximal b (hperm.mem_iff.mpr hb)

theorem best_perm_iff (hperm : l.Perm l') : Best weight p l a ↔ Best weight p l' a :=
  ⟨fun h => h.perm hperm, fun h => h.perm hperm.symm⟩

/-! ## First Matches -/

/-- **First match** in a sorted list. -/
theorem best_of_find? [DecidablePred p] (hsorted : l.Pairwise fun a b => weight b ≤ weight a)
    (h : l.find? (fun a => decide (p a)) = some a) : Best weight p l a := by
  induction l with
  | nil => cases h
  | cons x l ih =>
    obtain ⟨hx, hl⟩ := List.pairwise_cons.mp hsorted
    by_cases hpx : p x
    · rw [List.find?_cons_of_pos (by simpa using hpx)] at h
      obtain rfl := Option.some.inj h
      refine ⟨List.mem_cons_self, hpx, fun b hb _ => ?_⟩
      rcases List.mem_cons.mp hb with rfl | hb
      · exact Nat.le_refl _
      · exact hx b hb
    · rw [List.find?_cons_of_neg (by simpa using hpx)] at h
      have hbest := ih hl h
      refine ⟨List.mem_cons_of_mem x hbest.mem, hbest.holds, fun b hb hpb => ?_⟩
      rcases List.mem_cons.mp hb with rfl | hb
      · exact absurd hpb hpx
      · exact hbest.maximal b hb hpb

theorem find?_eq_some_iff_best [DecidablePred p]
    (hsorted : l.Pairwise fun a b => weight b ≤ weight a) (hsep : Separated weight p l) :
    l.find? (fun a => decide (p a)) = some a ↔ Best weight p l a := by
  constructor
  · exact best_of_find? hsorted
  · intro ha
    cases hfind : l.find? (fun a => decide (p a)) with
    | none =>
      have hno := List.find?_eq_none.mp hfind a ha.mem
      exact absurd ha.holds (by simpa using hno)
    | some b => rw [(best_of_find? hsorted hfind).unique hsep ha]

/-! ## Agreement -/

/-- **Agreement**: two predicates have the same heaviest match exactly when each
    element that meets only one is outweighed by one that meets both. -/
theorem same_best_iff (hp : Separated weight p l) (hq : Separated weight q l) :
    (∀ a, Best weight p l a ↔ Best weight q l a) ↔
      ∀ a ∈ l, (p a ∧ ¬ q a) ∨ (q a ∧ ¬ p a) →
        ∃ b ∈ l, p b ∧ q b ∧ weight a < weight b := by
  constructor
  · intro hsame a ha hone
    -- the heaviest match meets both, so it is not `a`
    have hboth : ∀ c, Best weight p l c → weight a ≤ weight c ∧ p c ∧ q c ∧ c ∈ l := by
      intro c hc
      have hcq := (hsame c).mp hc
      rcases hone with ⟨hpa, -⟩ | ⟨hqa, -⟩
      · exact ⟨hc.maximal a ha hpa, hc.holds, hcq.holds, hc.mem⟩
      · exact ⟨hcq.maximal a ha hqa, hc.holds, hcq.holds, hc.mem⟩
    obtain ⟨c, hc⟩ : ∃ c, Best weight p l c := by
      rcases hone with ⟨hpa, -⟩ | ⟨hqa, -⟩
      · exact exists_best ⟨a, ha, hpa⟩
      · have hexists : ∃ c, Best weight q l c := exists_best ⟨a, ha, hqa⟩
        obtain ⟨c, hc⟩ := hexists
        exact ⟨c, (hsame c).mpr hc⟩
    obtain ⟨hle, hpc, hqc, hmem⟩ := hboth c hc
    refine ⟨c, hmem, hpc, hqc, Nat.lt_of_le_of_ne hle fun heq => ?_⟩
    rcases hone with ⟨hpa, hna⟩ | ⟨hqa, hna⟩
    · obtain rfl := hp a ha c hmem hpa hpc heq
      exact hna hqc
    · obtain rfl := hq a ha c hmem hqa hqc heq
      exact hna hpc
  · intro hcover
    have hhalf : ∀ p q : α → Prop,
        (∀ a ∈ l, (p a ∧ ¬ q a) ∨ (q a ∧ ¬ p a) → ∃ b ∈ l, p b ∧ q b ∧ weight a < weight b) →
        ∀ a, Best weight p l a → Best weight q l a := by
      intro p q hcover a ha
      have hqa : q a := by
        by_contra hna
        obtain ⟨b, hb, hpb, -, hlt⟩ := hcover a ha.mem (Or.inl ⟨ha.holds, hna⟩)
        exact Nat.lt_irrefl _ (Nat.lt_of_lt_of_le hlt (ha.maximal b hb hpb))
      refine ⟨ha.mem, hqa, fun b hb hqb => ?_⟩
      by_cases hpb : p b
      · exact ha.maximal b hb hpb
      · obtain ⟨c, hc, hpc, -, hlt⟩ := hcover b hb (Or.inr ⟨hqb, hpb⟩)
        exact Nat.le_of_lt (Nat.lt_of_lt_of_le hlt (ha.maximal c hc hpc))
    intro a
    constructor
    · exact hhalf p q hcover a
    · refine hhalf q p (fun b hb hone => ?_) a
      obtain ⟨c, hc, hpc, hqc, hlt⟩ := hcover b hb hone.symm
      exact ⟨c, hc, hqc, hpc, hlt⟩

end

end LongestMatch
