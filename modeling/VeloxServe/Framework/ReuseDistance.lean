import Mathlib.Algebra.BigOperators.Group.Finset.Basic
import Mathlib.Data.List.TakeWhile
import VeloxServe.Framework.Recency

/-! # Reuse Distance

    A history of accesses, latest first, as a cache sees it that evicts the least
    recently used entries.

    * **Order**: the keys of a history by their latest access. The entries of
      the cache are as much of it as fits.
    * **Reuse distance** of a key: the total size of the different keys accessed
      from its latest access on, with itself. It alone decides what is a hit.
-/

namespace Recency

universe u v

variable {Key : Type u} {Entry : Type v} [DecidableEq Key] (size : Entry → Nat)
  (entry : Key → Entry)

/-! ## The Order of a History -/

/-- The keys of a history, each once, by their latest access. -/
def order : List Key → List Key
  | [] => []
  | k :: history => k :: (order history).filter fun j => j ≠ k

/-- The accesses after the latest one to `k`. -/
def after (k : Key) (history : List Key) : List Key := history.takeWhile fun j => j ≠ k

/-- The total size of the different keys that have been accessed since `k` was, and of `k`. -/
def reuseDistance (k : Key) (history : List Key) : Nat :=
  (k :: after k history).toFinset.sum fun j => size (entry j)

/-- The entries of some keys. -/
def entriesOf (keys : List Key) : List (Key × Entry) := keys.map fun k => (k, entry k)

omit [DecidableEq Key] in
theorem keys_entriesOf (keys : List Key) : (entriesOf entry keys).map Prod.fst = keys := by
  unfold entriesOf
  rw [List.map_map]
  exact List.map_id keys

theorem without_entriesOf (k : Key) (keys : List Key) :
    without k (entriesOf entry keys) = entriesOf entry (keys.filter fun j => j ≠ k) := by
  unfold without entriesOf
  rw [List.filter_map]
  rfl

theorem mem_order {k : Key} {history : List Key} : k ∈ order history ↔ k ∈ history := by
  induction history with
  | nil => rfl
  | cons j history ih =>
    show k ∈ j :: (order history).filter (fun i => i ≠ j) ↔ _
    rw [List.mem_cons, List.mem_cons, List.mem_filter, ih, decide_eq_true_eq]
    by_cases hk : k = j
    · simp [hk]
    · simp [hk]

theorem nodup_order (history : List Key) : (order history).Nodup := by
  induction history with
  | nil => exact List.nodup_nil
  | cons j history ih =>
    refine List.nodup_cons.mpr ⟨fun hmem => ?_, ih.filter _⟩
    have hne := (List.mem_filter.mp hmem).2
    simp at hne

/-- A key that comes later in the list does not matter before `k`. -/
theorem takeWhile_filter_ne {j k : Key} (hne : j ≠ k) (keys : List Key) :
    (keys.filter fun i => i ≠ j).takeWhile (fun i => i ≠ k) =
      (keys.takeWhile fun i => i ≠ k).filter fun i => i ≠ j := by
  induction keys with
  | nil => rfl
  | cons i keys ih =>
    by_cases hik : i = k
    · have hij : i ≠ j := fun heq => hne (heq.symm.trans hik)
      simp [hik, hne.symm]
    · by_cases hij : i = j
      · simpa [hij, hne] using ih
      · simpa [hij, hik] using ih

/-- In the order of a history, the keys before `k` are those accessed after it. -/
theorem toFinset_before (k : Key) (history : List Key) :
    ((order history).takeWhile fun j => j ≠ k).toFinset = (after k history).toFinset := by
  induction history with
  | nil => rfl
  | cons j history ih =>
    unfold after at ih ⊢
    unfold order
    by_cases hjk : j = k
    · simp [hjk]
    · rw [List.takeWhile_cons_of_pos (by simpa using hjk),
        List.takeWhile_cons_of_pos (by simpa using hjk), takeWhile_filter_ne hjk,
        List.toFinset_cons, List.toFinset_cons, List.toFinset_filter, ih]
      ext i
      by_cases hij : i = j
      · simp [hij]
      · simp [hij]

/-! ## What Fits -/

omit [DecidableEq Key] in
theorem fitting_cons (budget : Nat) (e : Key × Entry) (l : List (Key × Entry)) :
    fitting size budget (e :: l) =
      if size e.2 ≤ budget then e :: fitting size (budget - size e.2) l else [] := rfl

omit [DecidableEq Key] in
/-- What fits into less is found in what fits into more. -/
theorem fitting_fitting {budget budget' : Nat} (hle : budget ≤ budget') (l : List (Key × Entry)) :
    fitting size budget (fitting size budget' l) = fitting size budget l := by
  have hless : fitting size budget l <+: fitting size budget' l :=
    prefix_fitting size (fitting_isPrefix size budget l)
      (Nat.le_trans (total_fitting_le size budget l) hle)
  refine List.IsPrefix.eq_of_length_le ?_ ?_
  · exact prefix_fitting size ((fitting_isPrefix size budget _).trans
      (fitting_isPrefix size budget' l)) (total_fitting_le size budget _)
  · exact (prefix_fitting size hless (total_fitting_le size budget l)).length_le

/-- An entry that fits goes to the front of what fits with it. -/
theorem without_fitting {k : Key} {x : Entry} {budget : Nat} {l : List (Key × Entry)}
    (hnd : (l.map Prod.fst).Nodup) (hmem : (k, x) ∈ fitting size budget l) :
    without k (fitting size budget l) = fitting size (budget - size x) (without k l) := by
  induction l generalizing budget with
  | nil => cases hmem
  | cons e l ih =>
    rw [List.map_cons, List.nodup_cons] at hnd
    rw [fitting_cons] at hmem ⊢
    split at hmem
    · next hle =>
      rw [if_pos hle]
      by_cases hk : e.1 = k
      · -- the entry of `k` is the first, and there is no other
        have hx : e = (k, x) := by
          rcases List.mem_cons.mp hmem with heq | hrest
          · exact heq.symm
          · have hkey : k ∈ l.map Prod.fst :=
              List.mem_map_of_mem ((fitting_isPrefix size _ l).subset hrest)
            exact absurd (hk ▸ hkey) hnd.1
        have hfree : k ∉ l.map Prod.fst := hk ▸ hnd.1
        have hfree' : k ∉ (fitting size (budget - size e.2) l).map Prod.fst := fun hmem' =>
          hfree (((fitting_isPrefix size _ l).map Prod.fst).subset hmem')
        have hhead : ∀ l' : List (Key × Entry), without k (e :: l') = without k l' := by
          intro l'
          simp [without, hk]
        rw [hhead, hhead, without_of_not_mem hfree, without_of_not_mem hfree', hx]
      · have hmem' : (k, x) ∈ fitting size (budget - size e.2) l := by
          rcases List.mem_cons.mp hmem with heq | hrest
          · exact absurd (congrArg Prod.fst heq).symm hk
          · exact hrest
        have hhead : ∀ l' : List (Key × Entry), without k (e :: l') = e :: without k l' := by
          intro l'
          simp [without, hk]
        have hroom : size x ≤ budget - size e.2 := by
          have htotal := total_without_le size hmem'
          have hfits := total_fitting_le size (budget - size e.2) l
          omega
        rw [hhead, hhead, ih hnd.2 hmem']
        rw [fitting_cons, if_pos (by omega)]
        congr 2
        omega
    · cases hmem

/-- An entry that does not fit is behind all that do. -/
theorem fitting_without {k : Key} {budget budget' : Nat} {l : List (Key × Entry)} {x : Entry}
    (hval : ∀ e ∈ l, e.1 = k → e.2 = x) (hle : budget' + size x ≤ budget)
    (hnot : k ∉ (fitting size budget l).map Prod.fst) :
    fitting size budget' (without k l) = fitting size budget' l := by
  induction l generalizing budget budget' with
  | nil => rfl
  | cons e l ih =>
    have hval' : ∀ e' ∈ l, e'.1 = k → e'.2 = x := fun e' he' => hval e' (List.mem_cons_of_mem _ he')
    rw [fitting_cons] at hnot
    by_cases hk : e.1 = k
    · -- `k` would have fitted
      have hsize : size e.2 ≤ budget := by
        rw [hval e List.mem_cons_self hk]
        omega
      rw [if_pos hsize, List.map_cons, hk] at hnot
      exact absurd List.mem_cons_self hnot
    · have hhead : without k (e :: l) = e :: without k l := by simp [without, hk]
      rw [hhead, fitting_cons, fitting_cons]
      by_cases hsize : size e.2 ≤ budget'
      · rw [if_pos hsize, if_pos hsize]
        rw [if_pos (by omega), List.map_cons] at hnot
        have hrest := fun hmem => hnot (List.mem_cons_of_mem e.1 hmem)
        rw [ih hval' (by omega : budget' - size e.2 + size x ≤ budget - size e.2) hrest]
      · rw [if_neg hsize, if_neg hsize]

/-- **An access** to the part of a list that fits gives the part that fits of the list
    with its key in front. -/
theorem access_fitting {k : Key} {budget : Nat} {keys : List Key} (hnd : keys.Nodup)
    (hfits : size (entry k) ≤ budget) :
    access size budget k (entry k) (fitting size budget (entriesOf entry keys)) =
      fitting size budget (entriesOf entry (k :: keys.filter fun j => j ≠ k)) := by
  have hkeys : ((entriesOf entry keys).map Prod.fst).Nodup := by
    rw [keys_entriesOf]
    exact hnd
  have hval : ∀ e ∈ entriesOf entry keys, e.1 = k → e.2 = entry k := by
    intro e he hek
    obtain ⟨j, -, rfl⟩ := List.mem_map.mp he
    exact congrArg entry hek
  have hfront : fitting size budget (entriesOf entry (k :: keys.filter fun j => j ≠ k)) =
      (k, entry k) :: fitting size (budget - size (entry k))
        (without k (entriesOf entry keys)) := by
    rw [without_entriesOf]
    exact if_pos hfits
  rw [hfront]
  unfold access
  by_cases hhit : k ∈ (fitting size budget (entriesOf entry keys)).map Prod.fst
  · rw [if_pos hhit]
    obtain ⟨e, hmem, hek⟩ := List.mem_map.mp hhit
    have hx : e = (k, entry k) :=
      Prod.ext hek (hval e ((fitting_isPrefix size budget _).subset hmem) hek)
    rw [without_fitting size hkeys (hx ▸ hmem)]
  · rw [if_neg hhit, fitting_fitting size (Nat.sub_le _ _),
      fitting_without size hval (by omega) hhit]

/-- A key fits together with those before it. -/
theorem mem_fitting_iff {k : Key} {budget : Nat} {keys : List Key} :
    k ∈ (fitting size budget (entriesOf entry keys)).map Prod.fst ↔
      k ∈ keys ∧
        total size (entriesOf entry (k :: keys.takeWhile fun j => j ≠ k)) ≤ budget := by
  induction keys generalizing budget with
  | nil => simp [entriesOf, fitting]
  | cons j keys ih =>
    have hcons : fitting size budget (entriesOf entry (j :: keys)) =
        if size (entry j) ≤ budget then
          (j, entry j) :: fitting size (budget - size (entry j)) (entriesOf entry keys)
        else [] := rfl
    rw [hcons]
    by_cases hjk : j = k
    · subst hjk
      have hfirst : (j :: keys).takeWhile (fun i => i ≠ j) = [] := by simp
      rw [hfirst]
      show _ ↔ j ∈ j :: keys ∧ size (entry j) + 0 ≤ budget
      split
      · next hle => simp [hle]
      · next hlt => simp [hlt]
    · have hnext : (j :: keys).takeWhile (fun i => i ≠ k) =
          j :: keys.takeWhile fun i => i ≠ k := List.takeWhile_cons_of_pos (by simpa using hjk)
      have hmem : k ∈ j :: keys ↔ k ∈ keys := by simp [Ne.symm hjk]
      have htotal : total size (entriesOf entry (k :: j :: keys.takeWhile fun i => i ≠ k)) =
          size (entry j) + total size (entriesOf entry (k :: keys.takeWhile fun i => i ≠ k)) :=
        Nat.add_left_comm _ _ _
      rw [hnext, hmem, htotal]
      split
      · next hle =>
        rw [List.map_cons, List.mem_cons, ih]
        have hne : ¬ k = j := Ne.symm hjk
        constructor
        · intro h
          obtain ⟨hkeys, hfit⟩ := h.resolve_left hne
          exact ⟨hkeys, by omega⟩
        · intro h
          exact Or.inr ⟨h.1, by omega⟩
      · next hlt =>
        constructor
        · intro h
          cases h
        · intro h
          omega

/-- **A key is held exactly when its reuse distance fits.** -/
theorem mem_fitting_order_iff {k : Key} {budget : Nat} {history : List Key} :
    k ∈ (fitting size budget (entriesOf entry (order history))).map Prod.fst ↔
      k ∈ history ∧ reuseDistance size entry k history ≤ budget := by
  have hbefore : (k :: (order history).takeWhile fun j => j ≠ k).Nodup := by
    refine List.nodup_cons.mpr ⟨fun hmem => ?_,
      (nodup_order history).sublist (List.takeWhile_sublist _)⟩
    have hne := List.mem_takeWhile_imp hmem
    simp at hne
  have hdistance : total size (entriesOf entry (k :: (order history).takeWhile fun j => j ≠ k)) =
      reuseDistance size entry k history := by
    unfold reuseDistance total entriesOf
    rw [List.toFinset_cons, ← toFinset_before, ← List.toFinset_cons,
      List.sum_toFinset _ hbefore, List.map_map]
    rfl
  rw [mem_fitting_iff, mem_order, hdistance]

end Recency
