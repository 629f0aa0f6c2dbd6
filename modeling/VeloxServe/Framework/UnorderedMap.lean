import Mathlib.Data.List.AList

/-! # `std::unordered_map`

    A hash map is an association list with distinct keys, in the order in
    which its keys were first inserted: assigning to a key that is present
    keeps its place. The order in which a hash map is *iterated* is left to
    the library that implements it; an `IterOrder` is any such choice, and
    results about iteration are proved for all of them.
-/

universe u v

/-- A map from keys to values. -/
abbrev UnorderedMap (κ : Type u) (ν : Type v) : Type (max u v) := AList fun _ : κ => ν

namespace UnorderedMap

variable {κ : Type u} {ν : Type v} [DecidableEq κ]

/-- `m[k] = v`. -/
def set (k : κ) (v : ν) (m : UnorderedMap κ ν) : UnorderedMap κ ν :=
  if k ∈ m then m.replace k v else m.insert k v

/-- The key-value pairs of a map. -/
def pairs (m : UnorderedMap κ ν) : List (κ × ν) := m.entries.map fun e => (e.1, e.2)

private theorem dlookup_kreplace (k k' : κ) (v : ν) (l : List (Sigma fun _ : κ => ν)) :
    (List.kreplace k v l).dlookup k' =
      if k' = k ∧ k ∈ l.keys then some v else l.dlookup k' := by
  induction l with
  | nil => simp [List.kreplace]
  | cons e l ih =>
    obtain ⟨j, w⟩ := e
    have hcons : List.kreplace k v (⟨j, w⟩ :: l) =
        if k = j then ⟨k, v⟩ :: l else ⟨j, w⟩ :: List.kreplace k v l := by
      unfold List.kreplace
      rw [List.lookmap_cons]
      by_cases h : k = j <;> simp [h]
    rw [hcons]
    by_cases hj : k = j
    · subst hj
      by_cases hk : k' = k
      · subst hk
        simp
      · simp [hk, List.dlookup_cons_ne]
    · by_cases hk : k' = j
      · subst hk
        have hne : ¬ k' = k := fun h => hj h.symm
        simp [hj, hne]
      · rw [if_neg hj, List.dlookup_cons_ne _ _ hk, List.dlookup_cons_ne _ _ hk, ih]
        simp [hj]

@[simp] theorem lookup_set_self (k : κ) (v : ν) (m : UnorderedMap κ ν) :
    (set k v m).lookup k = some v := by
  unfold set
  by_cases h : k ∈ m
  · rw [if_pos h]
    show (List.kreplace k v m.entries).dlookup k = some v
    rw [dlookup_kreplace, if_pos ⟨rfl, h⟩]
  · rw [if_neg h, AList.lookup_insert]

@[simp] theorem lookup_set_ne {k k' : κ} (v : ν) (m : UnorderedMap κ ν) (h : k' ≠ k) :
    (set k v m).lookup k' = m.lookup k' := by
  unfold set
  by_cases hk : k ∈ m
  · rw [if_pos hk]
    show (List.kreplace k v m.entries).dlookup k' = m.lookup k'
    rw [dlookup_kreplace, if_neg (fun hkk => h hkk.1)]
    rfl
  · rw [if_neg hk, AList.lookup_insert_ne h]

theorem lookup_set (k k' : κ) (v : ν) (m : UnorderedMap κ ν) :
    (set k v m).lookup k' = if k' = k then some v else m.lookup k' := by
  by_cases h : k' = k
  · subst h; simp
  · simp [h]

@[simp] theorem mem_set {k k' : κ} {v : ν} {m : UnorderedMap κ ν} :
    k' ∈ set k v m ↔ k' = k ∨ k' ∈ m := by
  rw [← AList.lookup_isSome, ← AList.lookup_isSome, lookup_set]
  by_cases h : k' = k <;> simp [h]

/-- What was assigned to a key is gone with the key. -/
theorem erase_set (k : κ) (v : ν) (m : UnorderedMap κ ν) : (set k v m).erase k = m.erase k := by
  have hreplace : ∀ l : List (Sigma fun _ : κ => ν),
      (List.kreplace k v l).kerase k = l.kerase k := by
    intro l
    induction l with
    | nil => rfl
    | cons e l ih =>
      obtain ⟨j, w⟩ := e
      unfold List.kreplace at ih ⊢
      rw [List.lookmap_cons]
      by_cases hj : k = j
      · subst hj
        simp
      · simp [hj, ih]
  unfold set
  split
  · exact AList.ext (hreplace m.entries)
  · apply AList.ext
    show ((⟨k, v⟩ :: m.entries.kerase k).kerase k) = m.entries.kerase k
    exact List.kerase_cons_eq rfl

/-- Assign the pairs one after another. -/
def setAll (kvs : List (κ × ν)) (m : UnorderedMap κ ν) : UnorderedMap κ ν :=
  kvs.foldl (fun m kv => set kv.1 kv.2 m) m

theorem setAll_append (kvs kvs' : List (κ × ν)) (m : UnorderedMap κ ν) :
    setAll (kvs ++ kvs') m = setAll kvs' (setAll kvs m) := List.foldl_append

theorem lookup_setAll_of_not_mem {k : κ} {kvs : List (κ × ν)} (h : k ∉ kvs.map Prod.fst)
    (m : UnorderedMap κ ν) : (setAll kvs m).lookup k = m.lookup k := by
  induction kvs generalizing m with
  | nil => rfl
  | cons kv kvs ih =>
    obtain ⟨hk, hkvs⟩ : k ≠ kv.1 ∧ k ∉ kvs.map Prod.fst := by simpa using h
    exact (ih hkvs _).trans (lookup_set_ne _ _ hk)

/-- A key that is always assigned the same value has it in the end. -/
theorem lookup_setAll {k : κ} {v : ν} {kvs : List (κ × ν)} (hmem : k ∈ kvs.map Prod.fst)
    (hval : ∀ kv ∈ kvs, kv.1 = k → kv.2 = v) (m : UnorderedMap κ ν) :
    (setAll kvs m).lookup k = some v := by
  induction kvs generalizing m with
  | nil => cases hmem
  | cons kv kvs ih =>
    show (setAll kvs (set kv.1 kv.2 m)).lookup k = some v
    by_cases hlater : k ∈ kvs.map Prod.fst
    · exact ih hlater (fun kv' hkv' => hval kv' (List.mem_cons_of_mem _ hkv')) _
    · have hk : kv.1 = k := by
        rcases List.mem_cons.mp hmem with hk | hk
        · exact hk.symm
        · exact absurd hk hlater
      have hv := hval kv List.mem_cons_self hk
      rw [lookup_setAll_of_not_mem hlater, hk, hv, lookup_set_self]

/-- Distinct keys are all there afterwards, each with its value. -/
theorem lookup_setAll_nodup {kvs : List (κ × ν)} (h : (kvs.map Prod.fst).Nodup) {k : κ} {v : ν} :
    (setAll kvs ∅).lookup k = some v ↔ (k, v) ∈ kvs := by
  have hone : ∀ {v : ν}, (k, v) ∈ kvs → (setAll kvs ∅).lookup k = some v := by
    intro v hmem
    refine lookup_setAll (List.mem_map_of_mem hmem) (fun kv hkv hk => ?_) _
    exact congrArg Prod.snd (List.inj_on_of_nodup_map h hkv hmem hk)
  constructor
  · intro hlook
    by_cases hk : k ∈ kvs.map Prod.fst
    · obtain ⟨kv, hkv, rfl⟩ := List.mem_map.mp hk
      have hval := hone (v := kv.2) hkv
      rw [hlook] at hval
      exact Option.some.inj hval ▸ hkv
    · rw [lookup_setAll_of_not_mem hk] at hlook
      cases hlook
  · exact hone

theorem mem_pairs {k : κ} {v : ν} {m : UnorderedMap κ ν} :
    (k, v) ∈ pairs m ↔ m.lookup k = some v := by
  rw [← Option.mem_def, AList.mem_lookup_iff]
  simp [pairs]

omit [DecidableEq κ] in
theorem pairs_fst (m : UnorderedMap κ ν) : (pairs m).map Prod.fst = m.keys := by
  simp [pairs, AList.keys, List.keys, Function.comp_def]

omit [DecidableEq κ] in
theorem pairs_nodup (m : UnorderedMap κ ν) : ((pairs m).map Prod.fst).Nodup := by
  rw [pairs_fst]
  exact m.keys_nodup

/-- Go through the map and erase the entries a condition picks. -/
def eraseIf (p : κ → ν → Bool) (m : UnorderedMap κ ν) : UnorderedMap κ ν :=
  (pairs m).foldl (fun m kv => if p kv.1 kv.2 then m.erase kv.1 else m) m

private theorem lookup_eraseEach (p : κ → ν → Bool) (kvs : List (κ × ν)) (m : UnorderedMap κ ν)
    (k : κ) :
    (kvs.foldl (fun m kv => if p kv.1 kv.2 then m.erase kv.1 else m) m).lookup k =
      if kvs.any fun kv => k = kv.1 && p kv.1 kv.2 then none else m.lookup k := by
  induction kvs generalizing m with
  | nil => rfl
  | cons kv kvs ih =>
    have hstep : (if p kv.1 kv.2 then m.erase kv.1 else m).lookup k =
        if (k = kv.1 && p kv.1 kv.2 : Bool) then none else m.lookup k := by
      by_cases hk : k = kv.1
      · subst hk
        by_cases hp : p kv.1 kv.2 <;> simp [hp]
      · by_cases hp : p kv.1 kv.2 <;> simp [hp, hk]
    rw [List.foldl_cons, ih, hstep, List.any_cons]
    cases hlater : kvs.any fun kv => k = kv.1 && p kv.1 kv.2 <;> simp

/-- The entries the condition does not pick are left. -/
theorem lookup_eraseIf (p : κ → ν → Bool) (m : UnorderedMap κ ν) (k : κ) :
    (eraseIf p m).lookup k = (m.lookup k).filter fun v => !p k v := by
  have hany : ((pairs m).any fun kv => k = kv.1 && p kv.1 kv.2) = true ↔
      ∃ v, m.lookup k = some v ∧ p k v = true := by
    simp only [List.any_eq_true, Prod.exists, mem_pairs, Bool.and_eq_true, decide_eq_true_eq]
    constructor
    · rintro ⟨j, v, hlook, rfl, hv⟩
      exact ⟨v, hlook, hv⟩
    · rintro ⟨v, hlook, hv⟩
      exact ⟨k, v, hlook, rfl, hv⟩
  unfold eraseIf
  rw [lookup_eraseEach]
  cases hlook : m.lookup k with
  | none => simp
  | some v =>
    by_cases hv : p k v
    · rw [if_pos (hany.mpr ⟨v, hlook, hv⟩)]
      simp [Option.filter_some, hv]
    · have hnot : ¬ ((pairs m).any fun kv => k = kv.1 && p kv.1 kv.2) = true := by
        rw [hany, hlook]
        rintro ⟨w, hw, hpw⟩
        exact hv (Option.some.inj hw ▸ hpw)
      rw [if_neg hnot]
      simp [Option.filter_some, hv]

/-- The order in which a hash map implementation iterates over a map. -/
structure IterOrder (κ : Type u) (ν : Type v) where
  order : UnorderedMap κ ν → List (κ × ν)
  perm : ∀ m, (order m).Perm (pairs m)

/-- Iteration in insertion order, newest key first. -/
def IterOrder.listed : IterOrder κ ν where
  order := pairs
  perm := fun _ => List.Perm.refl _

theorem IterOrder.mem_order (ord : IterOrder κ ν) {k : κ} {v : ν} {m : UnorderedMap κ ν} :
    (k, v) ∈ ord.order m ↔ m.lookup k = some v := by
  rw [(ord.perm m).mem_iff, mem_pairs]

omit [DecidableEq κ] in
theorem IterOrder.order_nodup (ord : IterOrder κ ν) (m : UnorderedMap κ ν) :
    ((ord.order m).map Prod.fst).Nodup :=
  ((ord.perm m).map Prod.fst).nodup_iff.mpr (pairs_nodup m)

end UnorderedMap
