import Mathlib.Data.List.Nodup
import Mathlib.Algebra.BigOperators.Group.List.Basic
import Mathlib.Algebra.Order.BigOperators.Group.List
import Mathlib.Algebra.Order.Ring.Nat

/-! # Recency Lists

    A cache that evicts the least recently used entries is, abstractly, a list
    of keyed entries with the most recent one in front. Entries have sizes, and
    the cache may hold entries up to a total size.

    `fitting budget l` is what survives an eviction: the longest prefix of `l`
    that fits into `budget`. `evictUntil` is how implementations compute it,
    dropping entries from the back while the rest is too large; the two agree.
-/

namespace Recency

universe u v

variable {Key : Type u} {Entry : Type v} (size : Entry → Nat)

/-- The total size of the entries of a list. -/
def total (l : List (Key × Entry)) : Nat := (l.map fun e => size e.2).sum

/-- The longest prefix whose total size fits into the budget. -/
def fitting (budget : Nat) : List (Key × Entry) → List (Key × Entry)
  | [] => []
  | e :: l => if size e.2 ≤ budget then e :: fitting (budget - size e.2) l else []

/-- Drop entries from the back while the rest is larger than the budget. -/
def evictUntil (budget : Nat) : Nat → List (Key × Entry) → List (Key × Entry)
  | 0, l => l
  | fuel + 1, l =>
    if l ≠ [] ∧ budget < total size l then evictUntil budget fuel l.dropLast else l

/-- The list without the entry of `k`. -/
def without [DecidableEq Key] (k : Key) (l : List (Key × Entry)) : List (Key × Entry) :=
  l.filter fun e => e.1 ≠ k

@[simp] theorem total_nil : total size ([] : List (Key × Entry)) = 0 := rfl

@[simp] theorem total_cons (e : Key × Entry) (l : List (Key × Entry)) :
    total size (e :: l) = size e.2 + total size l := rfl

theorem total_append (l l' : List (Key × Entry)) :
    total size (l ++ l') = total size l + total size l' := by
  simp [total]

theorem total_perm {l l' : List (Key × Entry)} (h : l.Perm l') : total size l = total size l' :=
  (h.map _).sum_eq

theorem total_sublist {l l' : List (Key × Entry)} (h : l.Sublist l') :
    total size l ≤ total size l' :=
  (h.map _).sum_le_sum (fun _ _ => Nat.zero_le _)

theorem total_fitting_le (budget : Nat) (l : List (Key × Entry)) :
    total size (fitting size budget l) ≤ budget := by
  induction l generalizing budget with
  | nil => exact Nat.zero_le _
  | cons e l ih =>
    unfold fitting
    split
    · have := ih (budget - size e.2)
      rw [total_cons]
      omega
    · exact Nat.zero_le _

theorem fitting_isPrefix (budget : Nat) (l : List (Key × Entry)) : fitting size budget l <+: l := by
  induction l generalizing budget with
  | nil => exact List.prefix_refl _
  | cons e l ih =>
    unfold fitting
    split
    · exact List.cons_prefix_cons.mpr ⟨rfl, ih _⟩
    · exact List.nil_prefix

/-- `fitting` is the longest prefix that fits. -/
theorem prefix_fitting {budget : Nat} {p l : List (Key × Entry)} (hp : p <+: l)
    (hfit : total size p ≤ budget) : p <+: fitting size budget l := by
  induction l generalizing budget p with
  | nil =>
    rw [List.prefix_nil.mp hp]
    exact List.nil_prefix
  | cons e l ih =>
    rcases p with _ | ⟨e', p⟩
    · exact List.nil_prefix
    · obtain ⟨rfl, hrest⟩ := List.cons_prefix_cons.mp hp
      rw [total_cons] at hfit
      unfold fitting
      rw [if_pos (by omega)]
      exact List.cons_prefix_cons.mpr ⟨rfl, ih hrest (by omega)⟩

theorem fitting_of_total_le {budget : Nat} {l : List (Key × Entry)} (h : total size l ≤ budget) :
    fitting size budget l = l :=
  (fitting_isPrefix size budget l).eq_of_length_le (prefix_fitting size (List.prefix_refl l) h).length_le

/-- An entry that does not survive anyway may be dropped first. -/
theorem fitting_dropLast {budget : Nat} {l : List (Key × Entry)} (h : budget < total size l) :
    fitting size budget l.dropLast = fitting size budget l := by
  have hne : fitting size budget l ≠ l := by
    intro heq
    have hle := total_fitting_le size budget l
    rw [heq] at hle
    omega
  have hpre : fitting size budget l <+: l.dropLast := by
    obtain ⟨t, ht⟩ := fitting_isPrefix size budget l
    have ht' : t ≠ [] := by
      rintro rfl
      exact hne (by simpa using ht)
    conv => rhs; rw [← ht]
    rw [List.dropLast_append_of_ne_nil ht']
    exact List.prefix_append _ _
  refine List.IsPrefix.eq_of_length_le ?_ ?_
  · exact prefix_fitting size ((fitting_isPrefix size budget l.dropLast).trans
      (List.dropLast_prefix l)) (total_fitting_le size budget _)
  · exact (prefix_fitting size hpre (total_fitting_le size budget l)).length_le

/-- **Eviction from the back keeps the longest prefix that fits**, given enough
    fuel to empty the list. -/
theorem evictUntil_eq_fitting (budget fuel : Nat) (l : List (Key × Entry))
    (hfuel : l.length ≤ fuel) : evictUntil size budget fuel l = fitting size budget l := by
  induction fuel generalizing l with
  | zero =>
    obtain rfl : l = [] := List.length_eq_zero_iff.mp (Nat.le_zero.mp hfuel)
    rfl
  | succ fuel ih =>
    unfold evictUntil
    split
    · next h =>
      have hlen : l.dropLast.length ≤ fuel := by
        rw [List.length_dropLast]
        omega
      rw [ih _ hlen, fitting_dropLast size h.2]
    · next h =>
      have hle : total size l ≤ budget := by
        by_cases hl : l = []
        · simp [hl]
        · exact Nat.le_of_not_lt fun hlt => h ⟨hl, hlt⟩
      exact (fitting_of_total_le size hle).symm

section
variable [DecidableEq Key]

theorem without_sublist (k : Key) (l : List (Key × Entry)) : (without k l).Sublist l :=
  List.filter_sublist

theorem mem_without {k : Key} {e : Key × Entry} {l : List (Key × Entry)} :
    e ∈ without k l ↔ e ∈ l ∧ e.1 ≠ k := by
  simp [without]

/-- With distinct keys, removing the last key drops the last entry. -/
theorem without_concat {l : List (Key × Entry)} {e : Key × Entry}
    (hnd : ((l ++ [e]).map Prod.fst).Nodup) : without e.1 (l ++ [e]) = l := by
  have hrest : ∀ e' ∈ l, e'.1 ≠ e.1 := by
    intro e' he' heq
    rw [List.map_append, List.nodup_append] at hnd
    exact hnd.2.2 e'.1 (List.mem_map_of_mem he') e.1 (by simp) heq
  have hkeep : without e.1 l = l := List.filter_eq_self.mpr fun e' he' => by simpa using hrest e' he'
  have happ : without e.1 (l ++ [e]) = without e.1 l ++ without e.1 [e] := List.filter_append _ _
  rw [happ, hkeep]
  simp [without]

/-- With distinct keys, removing a stored entry takes exactly its size away. -/
theorem total_without {k : Key} {x : Entry} {l : List (Key × Entry)}
    (hnd : (l.map Prod.fst).Nodup) (hmem : (k, x) ∈ l) :
    size x + total size (without k l) = total size l := by
  induction l with
  | nil => cases hmem
  | cons e l ih =>
    rw [List.map_cons, List.nodup_cons] at hnd
    by_cases hk : e.1 = k
    · subst hk
      have hx : e = (e.1, x) := by
        rcases List.mem_cons.mp hmem with heq | hmem
        · exact heq.symm
        · exact absurd (List.mem_map_of_mem hmem) hnd.1
      have hrest : without e.1 l = l := by
        refine List.filter_eq_self.mpr fun e' he' => ?_
        have hne : e'.1 ≠ e.1 := fun heq => hnd.1 (heq ▸ List.mem_map_of_mem he')
        simpa using hne
      have hcons : without e.1 (e :: l) = without e.1 l := by simp [without]
      rw [hcons, hrest, total_cons, hx]
    · have hmem' : (k, x) ∈ l := by
        rcases List.mem_cons.mp hmem with heq | hmem
        · exact absurd (congrArg Prod.fst heq).symm hk
        · exact hmem
      have hcons : without k (e :: l) = e :: without k l := by simp [without, hk]
      have := ih hnd.2 hmem'
      rw [hcons, total_cons, total_cons]
      omega

/-- Moving an entry to the front does not add to the total. -/
theorem total_without_le {k : Key} {x : Entry} {l : List (Key × Entry)} (hmem : (k, x) ∈ l) :
    size x + total size (without k l) ≤ total size l := by
  induction l with
  | nil => cases hmem
  | cons e l ih =>
    have htail := total_sublist size (without_sublist k l)
    rcases List.mem_cons.mp hmem with rfl | hmem
    · have hcons : without k ((k, x) :: l) = without k l := by simp [without]
      rw [hcons, total_cons]
      exact Nat.add_le_add_left htail _
    · have := ih hmem
      by_cases hk : e.1 = k
      · have hcons : without k (e :: l) = without k l := by simp [without, hk]
        rw [hcons, total_cons]
        omega
      · have hcons : without k (e :: l) = e :: without k l := by simp [without, hk]
        rw [hcons, total_cons, total_cons]
        omega

/-- A read through the cache: the entry is in front afterwards, before all the
    others when it was there, before those that still fit when it had to be put. -/
def access (budget : Nat) (k : Key) (x : Entry) (l : List (Key × Entry)) : List (Key × Entry) :=
  (k, x) :: if k ∈ l.map Prod.fst then without k l else fitting size (budget - size x) l

theorem without_isPrefix (k : Key) {l l' : List (Key × Entry)} (h : l <+: l') :
    without k l <+: without k l' :=
  h.filter _

theorem without_of_not_mem {k : Key} {l : List (Key × Entry)} (h : k ∉ l.map Prod.fst) :
    without k l = l := by
  refine List.filter_eq_self.mpr fun e he => ?_
  have hne : e.1 ≠ k := fun heq => h (heq ▸ List.mem_map_of_mem he)
  simpa using hne

theorem mem_access {budget : Nat} {k : Key} {x : Entry} {l : List (Key × Entry)}
    {e : Key × Entry} (h : e ∈ access size budget k x l) : e = (k, x) ∨ e ∈ l := by
  unfold access at h
  rcases List.mem_cons.mp h with heq | hmem
  · exact Or.inl heq
  · right
    split at hmem
    · exact (without_sublist k l).subset hmem
    · exact (fitting_isPrefix size _ l).subset hmem

/-- **Inclusion**: an access keeps the list of the smaller cache a prefix of the
    list of the larger one. -/
theorem access_isPrefix {budget budget' : Nat} (hle : budget ≤ budget') (k : Key) (x : Entry)
    {l l' : List (Key × Entry)} (hpre : l <+: l') :
    access size budget k x l <+: access size budget' k x l' := by
  refine List.cons_prefix_cons.mpr ⟨rfl, ?_⟩
  by_cases hhit : k ∈ l.map Prod.fst
  · have hhit' : k ∈ l'.map Prod.fst := (hpre.map Prod.fst).subset hhit
    rw [if_pos hhit, if_pos hhit']
    exact without_isPrefix k hpre
  · rw [if_neg hhit]
    have hkept := fitting_isPrefix size (budget - size x) l
    by_cases hhit' : k ∈ l'.map Prod.fst
    · -- the smaller cache lacks `k`, so removing `k` does not shorten the common part
      rw [if_pos hhit']
      have hcommon := without_isPrefix k hpre
      rw [without_of_not_mem hhit] at hcommon
      exact hkept.trans hcommon
    · rw [if_neg hhit']
      have hroom := total_fitting_le size (budget - size x) l
      exact prefix_fitting size (hkept.trans hpre) (by omega)

/-- The entry of `k`, if the list has one. -/
def lookup (k : Key) (l : List (Key × Entry)) : Option Entry :=
  (l.find? fun e => e.1 = k).map Prod.snd

theorem lookup_of_mem {k : Key} {x : Entry} {l : List (Key × Entry)}
    (hnd : (l.map Prod.fst).Nodup) (hmem : (k, x) ∈ l) : lookup k l = some x := by
  unfold lookup
  rcases hfind : l.find? fun e => decide (e.1 = k) with _ | e
  · have := List.find?_eq_none.mp hfind _ hmem
    simp at this
  · have hkey : e.1 = k := by simpa using List.find?_some hfind
    have heq : e = (k, x) := List.inj_on_of_nodup_map hnd (List.mem_of_find?_eq_some hfind) hmem hkey
    rw [hfind, heq]
    rfl

theorem mem_of_lookup {k : Key} {x : Entry} {l : List (Key × Entry)} (h : lookup k l = some x) :
    (k, x) ∈ l := by
  obtain ⟨e, hfind, rfl⟩ := Option.map_eq_some_iff.mp h
  have hkey : e.1 = k := by simpa using List.find?_some hfind
  rw [← hkey]
  exact List.mem_of_find?_eq_some hfind

theorem lookup_eq_none {k : Key} {l : List (Key × Entry)} (h : ∀ e ∈ l, e.1 ≠ k) :
    lookup k l = none := by
  unfold lookup
  rw [List.find?_eq_none.mpr fun e he => by simpa using h e he]
  rfl

end

/-! ## Changing the Entries -/

section
variable {Entry' : Type v} (f : Entry → Entry')

/-- Apply a function to the entries of a list. -/
def mapEntries (l : List (Key × Entry)) : List (Key × Entry') := l.map fun e => (e.1, f e.2)

@[simp] theorem mapEntries_cons (e : Key × Entry) (l : List (Key × Entry)) :
    mapEntries f (e :: l) = (e.1, f e.2) :: mapEntries f l := rfl

@[simp] theorem length_mapEntries (l : List (Key × Entry)) : (mapEntries f l).length = l.length :=
  List.length_map _

theorem keys_mapEntries (l : List (Key × Entry)) :
    (mapEntries f l).map Prod.fst = l.map Prod.fst := by
  unfold mapEntries
  rw [List.map_map]
  rfl

theorem mem_mapEntries_of_mem {k : Key} {x : Entry} {l : List (Key × Entry)} (h : (k, x) ∈ l) :
    (k, f x) ∈ mapEntries f l :=
  List.mem_map.mpr ⟨(k, x), h, rfl⟩

theorem without_mapEntries [DecidableEq Key] (k : Key) (l : List (Key × Entry)) :
    without k (mapEntries f l) = mapEntries f (without k l) := by
  unfold without mapEntries
  rw [List.filter_map]
  rfl

variable {size} {size' : Entry' → Nat} (hsize : ∀ x, size' (f x) = size x)
include hsize

theorem total_mapEntries (l : List (Key × Entry)) : total size' (mapEntries f l) = total size l := by
  induction l with
  | nil => rfl
  | cons e l ih => simp [hsize, ih]

theorem fitting_mapEntries (budget : Nat) (l : List (Key × Entry)) :
    fitting size' budget (mapEntries f l) = mapEntries f (fitting size budget l) := by
  induction l generalizing budget with
  | nil => rfl
  | cons e l ih =>
    rw [mapEntries_cons]
    unfold fitting
    rw [hsize]
    split
    · rw [ih, mapEntries_cons]
    · rfl

end

end Recency
