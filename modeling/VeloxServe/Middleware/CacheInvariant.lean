import VeloxServe.Framework.Recency
import VeloxServe.Middleware.Cache

/-! # LRU Cache Invariant

    The list, the map and the byte counter of an `LRUCache` describe one
    recency list, the `view` of the cache. Each operation is specified by what
    it does to the view, and keeps the invariant `Inv` that ties the three
    structures to it:

    * `get` moves the entry to the front or, when it has expired, removes it;
    * `put` puts the new entry in front of what still fits;
    * `remove` and `clear` take entries out.
-/

namespace VeloxServe

open StdString Recency

/-- The entry as a hit hands it out. -/
def CacheEntry.touched (e : CacheEntry) (now : Time) : CacheEntry :=
  { e with lastAccessed := now, accessCount := e.accessCount + 1 }

/-- The entry `put` stores. -/
def CacheEntry.fresh (data contentType : Bytes) (now : Time) : CacheEntry :=
  { data := data, contentType := contentType, created := now, lastAccessed := now }

namespace LRUCache

/-- The size of an entry: `entry.data.size()`. -/
abbrev entrySize (e : CacheEntry) : Nat := e.data.length

/-- The recency list the cache stands for. -/
def view (c : LRUCache) : List (Bytes × CacheEntry) :=
  c.lruList.filterMap fun n => (c.cache.lookup n.key).map fun v => (n.key, v.1)

/-- The list and the map refer to each other. -/
structure Linked (c : LRUCache) : Prop where
  ids : (c.lruList.map ListNode.id).Nodup
  keys : (c.lruList.map ListNode.key).Nodup
  fresh : ∀ n ∈ c.lruList, n.id < c.nextNode
  stored : ∀ n ∈ c.lruList, ∃ e, c.cache.lookup n.key = some (e, n.id)
  listed : ∀ k e it, c.cache.lookup k = some (e, it) → ⟨it, k⟩ ∈ c.lruList

structure Inv (c : LRUCache) : Prop extends Linked c where
  size : c.currentSize = total entrySize c.view
  bounded : total entrySize c.view ≤ c.maxSizeBytes
  inRange : total entrySize c.view < sizeRange
  noFault : c.fault = false

/-! ## The View -/

theorem Linked.view_keys {c : LRUCache} (h : c.Linked) :
    c.view.map Prod.fst = c.lruList.map ListNode.key := by
  unfold view
  rw [List.map_filterMap, List.filterMap_eq_map_iff_forall_eq_some.mpr]
  intro n hn
  obtain ⟨e, he⟩ := h.stored n hn
  simp [he]

theorem Linked.view_nodup {c : LRUCache} (h : c.Linked) : (c.view.map Prod.fst).Nodup := by
  rw [h.view_keys]
  exact h.keys

theorem Linked.mem_view {c : LRUCache} (h : c.Linked) {k : Bytes} {e : CacheEntry} :
    (k, e) ∈ c.view ↔ ∃ it, c.cache.lookup k = some (e, it) := by
  unfold view
  rw [List.mem_filterMap]
  constructor
  · rintro ⟨n, hn, hmap⟩
    obtain ⟨⟨e', it⟩, hlook, heq⟩ := Option.map_eq_some_iff.mp hmap
    obtain ⟨rfl, rfl⟩ := Prod.mk.inj heq
    exact ⟨it, hlook⟩
  · rintro ⟨it, hlook⟩
    exact ⟨⟨it, k⟩, h.listed k e it hlook, by simp [hlook]⟩

/-- The entries of the map are those of the view. -/
theorem Linked.pairs_perm {c : LRUCache} (h : c.Linked) :
    ((UnorderedMap.pairs c.cache).map fun p => (p.1, p.2.1)).Perm c.view := by
  have hnd : (((UnorderedMap.pairs c.cache).map fun p => (p.1, p.2.1)).map Prod.fst).Nodup := by
    have := UnorderedMap.pairs_nodup c.cache
    simpa [Function.comp_def] using this
  rw [List.perm_ext_iff_of_nodup hnd.of_map h.view_nodup.of_map]
  rintro ⟨k, e⟩
  rw [h.mem_view, List.mem_map]
  constructor
  · rintro ⟨⟨k', e', it⟩, hmem, heq⟩
    obtain ⟨rfl, rfl⟩ := Prod.mk.inj heq
    exact ⟨it, UnorderedMap.mem_pairs.mp hmem⟩
  · rintro ⟨it, hlook⟩
    exact ⟨(k, e, it), UnorderedMap.mem_pairs.mpr hlook, rfl⟩

/-- A key of the list is at one node only. -/
theorem Linked.key_ne_iff {c : LRUCache} (h : c.Linked) {k : Bytes} {it : Nat} {n : ListNode}
    (hk : (⟨it, k⟩ : ListNode) ∈ c.lruList) (hn : n ∈ c.lruList) : n.id ≠ it ↔ n.key ≠ k := by
  have hid : n.id = it → n.key = k := fun heq =>
    congrArg ListNode.key (List.inj_on_of_nodup_map h.ids hn hk heq)
  have hkey : n.key = k → n.id = it := fun heq =>
    congrArg ListNode.id (List.inj_on_of_nodup_map h.keys hn hk heq)
  exact not_congr ⟨hid, hkey⟩

/-! ## Unlinking -/

theorem subSize_exact {c : LRUCache} {n : Nat} (hle : n ≤ c.currentSize)
    (hrange : c.currentSize < sizeRange) :
    c.subSize n = { c with currentSize := c.currentSize - n, fault := c.fault } := by
  have hlt : n < sizeRange := by omega
  have hval : (c.currentSize + (sizeRange - n % sizeRange)) % sizeRange = c.currentSize - n := by
    rw [Nat.mod_eq_of_lt hlt]
    have hsum : c.currentSize + (sizeRange - n) = c.currentSize - n + sizeRange := by omega
    rw [hsum, Nat.add_mod_right, Nat.mod_eq_of_lt (by omega)]
  unfold subSize
  rw [hval]
  simp [Nat.not_lt.mpr hle]

/-- The list of `unlink` is the list without the key. -/
theorem Linked.filter_id {c : LRUCache} (h : c.Linked) {k : Bytes} {e : CacheEntry} {it : Nat}
    (hlook : c.cache.lookup k = some (e, it)) :
    (c.lruList.filter fun n => n.id ≠ it) = c.lruList.filter fun n => n.key ≠ k := by
  refine List.filter_congr fun n hn => ?_
  rw [decide_eq_decide]
  exact h.key_ne_iff (h.listed k e it hlook) hn

theorem Inv.size_le {c : LRUCache} (h : c.Inv) {k : Bytes} {e : CacheEntry} {it : Nat}
    (hlook : c.cache.lookup k = some (e, it)) :
    entrySize e + total entrySize (without k c.view) = c.currentSize := by
  have hmem : (k, e) ∈ c.view := h.mem_view.mpr ⟨it, hlook⟩
  rw [h.size, total_without entrySize h.view_nodup hmem]

/-- `unlink` with its arithmetic carried out. -/
theorem Inv.unlink_eq {c : LRUCache} (h : c.Inv) {k : Bytes} {e : CacheEntry} {it : Nat}
    (hlook : c.cache.lookup k = some (e, it)) :
    c.unlink k e it =
      { c with
        lruList := c.lruList.filter fun n => n.key ≠ k
        cache := c.cache.erase k
        currentSize := c.currentSize - entrySize e } := by
  have hle : entrySize e ≤ c.currentSize := by
    have := h.size_le hlook
    omega
  have hrange : c.currentSize < sizeRange := h.size ▸ h.inRange
  have hnode : (c.lruList.any fun n => decide (n.id = it)) = true :=
    List.any_eq_true.mpr ⟨_, h.listed k e it hlook, by simp⟩
  unfold LRUCache.unlink
  rw [subSize_exact hle hrange]
  unfold eraseNode
  simp only [h.filter_id hlook, hnode, Bool.not_true, Bool.or_false]

/-- The view only depends on the entries of the listed keys. -/
theorem view_filter (l : List ListNode) (m : UnorderedMap Bytes (CacheEntry × Nat)) (k : Bytes) :
    ((l.filter fun n => n.key ≠ k).filterMap fun n =>
      ((m.erase k).lookup n.key).map fun v => (n.key, v.1)) =
    without k (l.filterMap fun n => (m.lookup n.key).map fun v => (n.key, v.1)) := by
  induction l with
  | nil => rfl
  | cons n l ih =>
    by_cases hn : n.key = k
    · have hrest : without k ((n :: l).filterMap fun n => (m.lookup n.key).map fun v => (n.key, v.1)) =
          without k (l.filterMap fun n => (m.lookup n.key).map fun v => (n.key, v.1)) := by
        rw [List.filterMap_cons]
        cases m.lookup n.key <;> simp [without, hn]
      rw [hrest, ← ih]
      simp [hn]
    · have hlook : (m.erase k).lookup n.key = m.lookup n.key := AList.lookup_erase_ne hn
      have hkeep : (n :: l).filter (fun n => n.key ≠ k) = n :: l.filter fun n => n.key ≠ k := by
        simp [hn]
      rw [hkeep, List.filterMap_cons, List.filterMap_cons, hlook]
      cases m.lookup n.key with
      | none => simpa using ih
      | some v =>
        simp only [Option.map_some, ih]
        simp [without, hn]

theorem Inv.unlink {c : LRUCache} (h : c.Inv) {k : Bytes} {e : CacheEntry} {it : Nat}
    (hlook : c.cache.lookup k = some (e, it)) :
    (c.unlink k e it).Inv ∧ (c.unlink k e it).view = without k c.view := by
  have hview : (c.unlink k e it).view = without k c.view := by
    rw [h.unlink_eq hlook]
    exact view_filter c.lruList c.cache k
  have hsize := h.size_le hlook
  have hmax := h.bounded
  have hrange := h.inRange
  rw [← h.size] at hmax hrange
  refine ⟨?_, hview⟩
  constructor
  · rw [h.unlink_eq hlook]
    have hsub : (c.lruList.filter fun n => n.key ≠ k).Sublist c.lruList := List.filter_sublist
    constructor
    · exact (hsub.map _).nodup h.ids
    · exact (hsub.map _).nodup h.keys
    · intro n hn
      exact h.fresh n (hsub.subset hn)
    · intro n hn
      obtain ⟨hn, hne⟩ := List.mem_filter.mp hn
      obtain ⟨e', he'⟩ := h.stored n hn
      refine ⟨e', ?_⟩
      rw [AList.lookup_erase_ne (by simpa using hne)]
      exact he'
    · intro k' e' it' hlook'
      by_cases hk : k' = k
      · subst hk
        rw [AList.lookup_erase] at hlook'
        cases hlook'
      · rw [AList.lookup_erase_ne hk] at hlook'
        exact List.mem_filter.mpr ⟨h.listed k' e' it' hlook', by simpa using hk⟩
  · rw [hview, h.unlink_eq hlook]
    show c.currentSize - entrySize e = _
    omega
  · rw [hview, h.unlink_eq hlook]
    show _ ≤ c.maxSizeBytes
    omega
  · rw [hview]
    omega
  · rw [h.unlink_eq hlook]
    exact h.noFault

/-- What no eviction changes. -/
structure SameSettings (c c' : LRUCache) : Prop where
  maxSizeBytes : c'.maxSizeBytes = c.maxSizeBytes
  ttlSeconds : c'.ttlSeconds = c.ttlSeconds
  hits : c'.hits = c.hits
  misses : c'.misses = c.misses

theorem SameSettings.refl (c : LRUCache) : SameSettings c c := ⟨rfl, rfl, rfl, rfl⟩

theorem SameSettings.trans {c c' c'' : LRUCache} (h : SameSettings c c')
    (h' : SameSettings c' c'') : SameSettings c c'' :=
  ⟨h'.1.trans h.1, h'.2.trans h.2, h'.3.trans h.3, h'.4.trans h.4⟩

theorem sameSettings_unlink (k : Bytes) (e : CacheEntry) (it : Nat) (c : LRUCache) :
    SameSettings c (c.unlink k e it) := ⟨rfl, rfl, rfl, rfl⟩

/-! ## Eviction -/

/-- Dropping the back of the list unlinks its key. -/
theorem Inv.evictBack {c : LRUCache} (h : c.Inv) {back : ListNode}
    (hback : c.lruList.getLast? = some back) :
    (c.evictBack back).Inv ∧ (c.evictBack back).view = c.view.dropLast ∧
      SameSettings c (c.evictBack back) := by
  obtain ⟨init, hlist⟩ := List.getLast?_eq_some_iff.mp hback
  obtain ⟨e, hlook⟩ := h.stored back (by simp [hlist])
  have hkeys : ∀ n ∈ init, n.key ≠ back.key := by
    intro n hn heq
    have hnd := h.keys
    rw [hlist, List.map_append, List.nodup_append] at hnd
    exact hnd.2.2 n.key (List.mem_map_of_mem hn) back.key (by simp) heq
  have hinit : (c.lruList.filter fun n => n.key ≠ back.key) = c.lruList.dropLast := by
    have hkeep : (init.filter fun n => n.key ≠ back.key) = init :=
      List.filter_eq_self.mpr fun n hn => by simpa using hkeys n hn
    rw [hlist, List.filter_append, hkeep, List.dropLast_concat]
    simp
  have hle : entrySize e ≤ c.currentSize := by
    have := h.size_le hlook
    omega
  have heq : c.evictBack back = c.unlink back.key e back.id := by
    rw [h.unlink_eq hlook, hinit]
    unfold LRUCache.evictBack
    simp only [hlook]
    rw [subSize_exact hle (h.size ▸ h.inRange)]
  have hview : c.view.dropLast = without back.key c.view := by
    have hcons : c.view = (init.filterMap fun n =>
        (c.cache.lookup n.key).map fun v => (n.key, v.1)) ++ [(back.key, e)] := by
      unfold view
      rw [hlist, List.filterMap_append]
      simp [hlook]
    have hnd := h.view_nodup
    rw [hcons] at hnd ⊢
    have hlast := without_concat hnd
    rw [List.dropLast_concat]
    exact hlast.symm
  rw [heq, hview]
  exact ⟨(h.unlink hlook).1, (h.unlink hlook).2, sameSettings_unlink _ _ _ _⟩

theorem Inv.evictLoop {c : LRUCache} (h : c.Inv) {n : Nat} (hn : n ≤ c.maxSizeBytes)
    (hsum : total entrySize c.view + n < sizeRange) (fuel : Nat) :
    (c.evictLoop n fuel).Inv ∧
      (c.evictLoop n fuel).view = evictUntil entrySize (c.maxSizeBytes - n) fuel c.view ∧
      SameSettings c (c.evictLoop n fuel) := by
  induction fuel generalizing c with
  | zero => exact ⟨h, rfl, SameSettings.refl c⟩
  | succ fuel ih =>
    unfold LRUCache.evictLoop evictUntil
    rcases hlast : c.lruList.getLast? with _ | back
    · have hnil : c.view = [] := by
        rw [List.getLast?_eq_none_iff] at hlast
        simp [view, hlast]
      simp only [hnil]
      exact ⟨h, by simp, SameSettings.refl c⟩
    · have hne : c.view ≠ [] := by
        intro hnil
        have hkeys := h.view_keys
        rw [hnil] at hkeys
        have hlist : c.lruList = [] := List.map_eq_nil_iff.mp hkeys.symm
        simp [hlist] at hlast
      -- the sum in the loop condition does not wrap
      have hnofault : (c.fault || decide (sizeRange ≤ c.currentSize + n)) = c.fault := by
        rw [h.size, decide_eq_false (by omega), Bool.or_false]
      have hcond : c.exceeds n = decide (c.maxSizeBytes - n < total entrySize c.view) := by
        unfold exceeds
        rw [h.size, Nat.mod_eq_of_lt hsum, decide_eq_decide]
        omega
      simp only [hnofault, hcond]
      by_cases hlt : c.maxSizeBytes - n < total entrySize c.view
      · obtain ⟨hinv, hview, hsame⟩ := h.evictBack hlast
        have hle : total entrySize c.view.dropLast ≤ total entrySize c.view := by
          obtain ⟨t, ht⟩ := List.dropLast_prefix c.view
          conv => rhs; rw [← ht]
          rw [total_append]
          exact Nat.le_add_right _ _
        rw [← hview] at hle
        obtain ⟨hinv', hview', hsame'⟩ := ih hinv (hsame.maxSizeBytes ▸ hn) (by omega)
        rw [hview, hsame.maxSizeBytes] at hview'
        rw [if_pos (by simpa using hlt), if_pos ⟨hne, hlt⟩]
        exact ⟨hinv', hview', hsame.trans hsame'⟩
      · rw [if_neg (by simpa using hlt), if_neg (fun hh => hlt hh.2)]
        exact ⟨h, rfl, SameSettings.refl c⟩

/-! ## Moving to the Front -/

/-- The list and the map after `k` has been put at a new front node. -/
def front (k : Bytes) (e : CacheEntry) (c : LRUCache) : LRUCache :=
  { c with
    lruList := ⟨c.nextNode, k⟩ :: c.lruList.filter fun n => n.key ≠ k
    cache := UnorderedMap.set k (e, c.nextNode) c.cache
    nextNode := c.nextNode + 1 }

theorem Linked.front {c : LRUCache} (h : c.Linked) (k : Bytes) (e : CacheEntry) :
    (c.front k e).Linked := by
  have hsub : (c.lruList.filter fun n => n.key ≠ k).Sublist c.lruList := List.filter_sublist
  constructor
  · refine List.nodup_cons.mpr ⟨?_, (hsub.map _).nodup h.ids⟩
    intro hmem
    obtain ⟨n, hn, hid⟩ := List.mem_map.mp hmem
    replace hid : n.id = c.nextNode := hid
    have := h.fresh n (hsub.subset hn)
    omega
  · refine List.nodup_cons.mpr ⟨?_, (hsub.map _).nodup h.keys⟩
    intro hmem
    obtain ⟨n, hn, hkey⟩ := List.mem_map.mp hmem
    have hne : n.key ≠ k := by simpa using (List.mem_filter.mp hn).2
    exact hne hkey
  · intro n hn
    show n.id < c.nextNode + 1
    rcases List.mem_cons.mp hn with rfl | hn
    · exact Nat.lt_succ_self _
    · exact Nat.lt_succ_of_lt (h.fresh n (hsub.subset hn))
  · intro n hn
    rcases List.mem_cons.mp hn with rfl | hn
    · exact ⟨e, UnorderedMap.lookup_set_self _ _ _⟩
    · obtain ⟨hn, hne⟩ := List.mem_filter.mp hn
      obtain ⟨e', he'⟩ := h.stored n hn
      refine ⟨e', ?_⟩
      show (UnorderedMap.set k (e, c.nextNode) c.cache).lookup n.key = _
      rw [UnorderedMap.lookup_set_ne _ _ (by simpa using hne)]
      exact he'
  · intro k' e' it' hlook
    replace hlook : (UnorderedMap.set k (e, c.nextNode) c.cache).lookup k' = some (e', it') := hlook
    rw [UnorderedMap.lookup_set] at hlook
    by_cases hk : k' = k
    · rw [if_pos hk] at hlook
      obtain ⟨rfl, rfl⟩ := Prod.mk.inj (Option.some.inj hlook)
      rw [hk]
      exact List.mem_cons_self
    · rw [if_neg hk] at hlook
      refine List.mem_cons_of_mem _ (List.mem_filter.mpr ⟨h.listed k' e' it' hlook, ?_⟩)
      simpa using hk

theorem view_front (k : Bytes) (e : CacheEntry) (c : LRUCache) :
    (c.front k e).view = (k, e) :: without k c.view := by
  have hrest : ((c.lruList.filter fun n => n.key ≠ k).filterMap fun n =>
        ((UnorderedMap.set k (e, c.nextNode) c.cache).lookup n.key).map fun v => (n.key, v.1)) =
      (c.lruList.filter fun n => n.key ≠ k).filterMap fun n =>
        ((c.cache.erase k).lookup n.key).map fun v => (n.key, v.1) := by
    refine List.filterMap_congr fun n hn => ?_
    have hne : n.key ≠ k := by simpa using (List.mem_filter.mp hn).2
    rw [UnorderedMap.lookup_set_ne _ _ hne, AList.lookup_erase_ne hne]
  unfold view LRUCache.front
  rw [List.filterMap_cons, UnorderedMap.lookup_set_self]
  simp only [Option.map_some]
  rw [hrest, view_filter]

/-- A key that is not stored is not in the view. -/
theorem Linked.without_of_lookup {c : LRUCache} (h : c.Linked) {k : Bytes}
    (hlook : c.cache.lookup k = none) : without k c.view = c.view := by
  refine List.filter_eq_self.mpr fun e he => ?_
  have hne : e.1 ≠ k := by
    intro heq
    have he' : (e.1, e.2) ∈ c.view := he
    obtain ⟨it, hsome⟩ := h.mem_view.mp he'
    rw [heq, hlook] at hsome
    cases hsome
  simpa using hne

/-- Putting an entry in front keeps the invariant when the counter follows. -/
theorem Inv.front {c : LRUCache} (h : c.Linked) {k : Bytes} {e : CacheEntry} {size : Nat}
    (hsize : size = entrySize e + total entrySize (without k c.view))
    (hmax : size ≤ c.maxSizeBytes) (hrange : size < sizeRange) (hfault : c.fault = false) :
    Inv { c.front k e with currentSize := size } := by
  have hlinked := h.front k e
  have hview := view_front k e c
  constructor
  · exact ⟨hlinked.ids, hlinked.keys, hlinked.fresh, hlinked.stored, hlinked.listed⟩
  · show size = total entrySize (c.front k e).view
    rw [hview, total_cons]
    exact hsize
  · show total entrySize (c.front k e).view ≤ c.maxSizeBytes
    rw [hview, total_cons, ← hsize]
    exact hmax
  · show total entrySize (c.front k e).view < sizeRange
    rw [hview, total_cons, ← hsize]
    exact hrange
  · exact hfault

/-- The invariant does not read the statistics. -/
theorem Inv.withCounts {c : LRUCache} (h : c.Inv) (hits misses : Nat) :
    Inv { c with hits := hits, misses := misses } :=
  ⟨⟨h.ids, h.keys, h.fresh, h.stored, h.listed⟩, h.size, h.bounded, h.inRange, h.noFault⟩

/-! ## Operations -/

theorem get_miss {c : LRUCache} {key : Bytes} (hlook : c.cache.lookup key = none) (now : Time) :
    c.get key now = (none, { c with misses := c.misses + 1 }) := by
  unfold LRUCache.get
  rw [hlook]

theorem get_expired {c : LRUCache} {key : Bytes} {e : CacheEntry} {it : Nat} {now : Time}
    (hlook : c.cache.lookup key = some (e, it))
    (hold : elapsedSeconds now e.created > c.ttlSeconds) :
    c.get key now = (none, { c.unlink key e it with misses := c.misses + 1 }) := by
  unfold LRUCache.get
  simp only [hlook]
  rw [if_pos hold]
  rfl

/-- A hit moves the entry to the front. -/
theorem Linked.get_hit {c : LRUCache} (h : c.Linked) {key : Bytes} {e : CacheEntry} {it : Nat}
    {now : Time} (hlook : c.cache.lookup key = some (e, it))
    (hlive : ¬ elapsedSeconds now e.created > c.ttlSeconds) :
    c.get key now =
      (some (e.touched now),
        { c.front key (e.touched now) with hits := c.hits + 1 }) := by
  have hnode : (c.lruList.any fun n => decide (n.id = it)) = true :=
    List.any_eq_true.mpr ⟨_, h.listed key e it hlook, by simp⟩
  unfold LRUCache.get
  simp only [hlook]
  rw [if_neg hlive]
  unfold eraseNode pushFront LRUCache.front CacheEntry.touched
  simp only [h.filter_id hlook, hnode, Bool.not_true, Bool.or_false, Nat.add_sub_cancel]

theorem Inv.get {c : LRUCache} (h : c.Inv) (key : Bytes) (now : Time) : (c.get key now).2.Inv := by
  rcases hlook : c.cache.lookup key with _ | ⟨e, it⟩
  · rw [get_miss hlook]
    exact h.withCounts c.hits _
  · by_cases hold : elapsedSeconds now e.created > c.ttlSeconds
    · rw [get_expired hlook hold]
      exact (h.unlink hlook).1.withCounts c.hits _
    · rw [h.get_hit hlook hold]
      have hsize := h.size_le hlook
      have hmax := h.bounded
      have hrange := h.inRange
      rw [← h.size] at hmax hrange
      have hfront : Inv { c.front key (e.touched now) with currentSize := c.currentSize } :=
        Inv.front h.toLinked hsize.symm hmax hrange h.noFault
      exact hfront.withCounts (c.hits + 1) c.misses

/-- The eviction of `put` is given enough fuel. -/
theorem Linked.view_length {c : LRUCache} (h : c.Linked) : c.view.length = c.lruList.length := by
  have hlen := congrArg List.length h.view_keys
  simpa using hlen

theorem Inv.dropEntry {c : LRUCache} (h : c.Inv) (key : Bytes) :
    (c.dropEntry key).Inv ∧ (c.dropEntry key).view = without key c.view ∧
      SameSettings c (c.dropEntry key) := by
  unfold LRUCache.dropEntry
  rcases hlook : c.cache.lookup key with _ | ⟨e, it⟩
  · exact ⟨h, (h.without_of_lookup hlook).symm, SameSettings.refl c⟩
  · exact ⟨(h.unlink hlook).1, (h.unlink hlook).2, sameSettings_unlink _ _ _ _⟩

/-- **`put` puts the new entry in front of what still fits.** -/
theorem Inv.put {c : LRUCache} (h : c.Inv) (key data contentType : Bytes) (now : Time)
    (hfits : data.length ≤ c.maxSizeBytes)
    (hsum : total entrySize c.view + data.length < sizeRange) :
    (c.put key data contentType now).Inv ∧
    (c.put key data contentType now).view =
      (key, CacheEntry.fresh data contentType now) ::
        fitting entrySize (c.maxSizeBytes - data.length) (without key c.view) ∧
    SameSettings c (c.put key data contentType now) := by
  -- the old entry of the key is taken out first
  obtain ⟨hinv₁, hview₁, hsame₁⟩ := h.dropEntry key
  generalize hc₁ : c.dropEntry key = c₁ at hinv₁ hview₁ hsame₁
  have hle₁ : total entrySize c₁.view ≤ total entrySize c.view := by
    rw [hview₁]
    exact total_sublist entrySize (without_sublist key c.view)
  -- then the loop makes room
  obtain ⟨hinv₂, hview₂, hsame₂⟩ := hinv₁.evictLoop (hsame₁.maxSizeBytes ▸ hfits)
    (by omega) c₁.lruList.length
  generalize hc₂ : c₁.evictLoop data.length c₁.lruList.length = c₂ at hinv₂ hview₂ hsame₂
  rw [evictUntil_eq_fitting entrySize _ _ _ hinv₁.view_length.le, hsame₁.maxSizeBytes,
    hview₁] at hview₂
  have hsame : SameSettings c c₂ := hsame₁.trans hsame₂
  have habsent : ∀ n ∈ c₂.lruList, n.key ≠ key := by
    intro n hn heq
    obtain ⟨e, he⟩ := hinv₂.stored n hn
    have hmem : (n.key, e) ∈ c₂.view := hinv₂.mem_view.mpr ⟨_, he⟩
    rw [hview₂] at hmem
    exact (mem_without.mp ((fitting_isPrefix entrySize _ _).subset hmem)).2 heq
  have hroom := total_fitting_le entrySize (c.maxSizeBytes - data.length) (without key c.view)
  rw [← hview₂] at hroom
  have hwithout : without key c₂.view = c₂.view := by
    refine List.filter_eq_self.mpr fun e he => ?_
    rw [hview₂] at he
    simpa using (mem_without.mp ((fitting_isPrefix entrySize _ _).subset he)).2
  have hrange : c₂.currentSize + data.length < sizeRange := by
    have hpre : total entrySize c₂.view ≤ total entrySize c.view := by
      rw [hview₂]
      exact total_sublist entrySize
        (((fitting_isPrefix entrySize _ _).sublist).trans (without_sublist key c.view))
    rw [hinv₂.size]
    omega
  have heq : c.put key data contentType now =
      { c₂.front key (CacheEntry.fresh data contentType now) with
        currentSize := c₂.currentSize + data.length } := by
    have hkeep : (c₂.lruList.filter fun n => n.key ≠ key) = c₂.lruList :=
      List.filter_eq_self.mpr fun n hn => by simpa using habsent n hn
    unfold LRUCache.put
    rw [if_neg (Nat.not_lt.mpr hfits)]
    simp only [hc₁, hc₂]
    unfold pushFront addSize LRUCache.front CacheEntry.fresh
    simp only [hkeep, Nat.mod_eq_of_lt hrange, Nat.not_le.mpr hrange, decide_false, Bool.or_false,
      Nat.add_sub_cancel]
  rw [heq]
  refine ⟨?_, ?_, ?_⟩
  · refine Inv.front hinv₂.toLinked ?_ ?_ hrange hinv₂.noFault
    · rw [hwithout, hinv₂.size]
      exact Nat.add_comm _ _
    · rw [hinv₂.size, hsame.maxSizeBytes]
      omega
  · show (c₂.front key _).view = _
    rw [view_front, hwithout, hview₂]
  · exact ⟨hsame.maxSizeBytes, hsame.ttlSeconds, hsame.hits, hsame.misses⟩

theorem put_tooLarge {c : LRUCache} {data : Bytes} (hlarge : c.maxSizeBytes < data.length)
    (key contentType : Bytes) (now : Time) : c.put key data contentType now = c := by
  unfold LRUCache.put
  rw [if_pos hlarge]

/-- A cache without entries meets the invariant. -/
theorem Inv.empty {c : LRUCache} (hlist : c.lruList = []) (hmap : c.cache = ∅)
    (hsize : c.currentSize = 0) (hfault : c.fault = false) : c.Inv := by
  have hview : c.view = [] := by simp [view, hlist]
  constructor
  · constructor <;> simp [hlist, hmap]
  · rw [hview, hsize, total_nil]
  · rw [hview]
    exact Nat.zero_le _
  · rw [hview]
    exact Nat.two_pow_pos 64
  · exact hfault

theorem Inv.clear {c : LRUCache} (h : c.Inv) : c.clear.Inv :=
  Inv.empty rfl rfl rfl h.noFault

theorem Inv.create (maxSizeBytes : Nat) (ttlSeconds : Int) : (create maxSizeBytes ttlSeconds).Inv :=
  Inv.empty rfl rfl rfl rfl

theorem Inv.call {c : LRUCache} (h : c.Inv) (x : CacheCall)
    (hput : ∀ key data contentType, x.op = .put key data contentType →
      data.length ≤ c.maxSizeBytes → total entrySize c.view + data.length < sizeRange) :
    (c.call x).2.Inv := by
  rcases hop : x.op with key | ⟨key, data, contentType⟩ | key | _
  · simpa only [LRUCache.call, hop] using h.get key x.now
  · simp only [LRUCache.call, hop]
    by_cases hfits : data.length ≤ c.maxSizeBytes
    · exact (h.put key data contentType x.now hfits (hput _ _ _ hop hfits)).1
    · rw [put_tooLarge (Nat.lt_of_not_le hfits)]
      exact h
  · simpa only [LRUCache.call, hop, LRUCache.remove] using (h.dropEntry key).1
  · simpa only [LRUCache.call, hop] using h.clear

/-- No call changes the limits given to the constructor. -/
theorem call_settings (c : LRUCache) (x : CacheCall) :
    (c.call x).2.maxSizeBytes = c.maxSizeBytes ∧ (c.call x).2.ttlSeconds = c.ttlSeconds := by
  have hdrop : ∀ key, SameSettings c (c.dropEntry key) := by
    intro key
    unfold LRUCache.dropEntry
    split <;> exact ⟨rfl, rfl, rfl, rfl⟩
  have hevict : ∀ (n fuel : Nat) (c : LRUCache), SameSettings c (c.evictLoop n fuel) := by
    intro n fuel
    induction fuel with
    | zero => exact SameSettings.refl
    | succ fuel ih =>
      intro c
      unfold LRUCache.evictLoop
      split
      · exact SameSettings.refl c
      · next back _ =>
        dsimp only
        split
        · refine SameSettings.trans ?_ (ih _)
          unfold LRUCache.evictBack
          simp only
          split <;> exact ⟨rfl, rfl, rfl, rfl⟩
        · exact ⟨rfl, rfl, rfl, rfl⟩
  rcases hop : x.op with key | ⟨key, data, contentType⟩ | key | _
  · simp only [LRUCache.call, hop]
    unfold LRUCache.get
    split
    · exact ⟨rfl, rfl⟩
    · split <;> exact ⟨rfl, rfl⟩
  · simp only [LRUCache.call, hop]
    unfold LRUCache.put
    split
    · exact ⟨rfl, rfl⟩
    · have hsame := (hdrop key).trans
        (hevict data.length (c.dropEntry key).lruList.length (c.dropEntry key))
      exact ⟨hsame.maxSizeBytes, hsame.ttlSeconds⟩
  · simp only [LRUCache.call, hop]
    exact ⟨(hdrop key).maxSizeBytes, (hdrop key).ttlSeconds⟩
  · simp only [LRUCache.call, hop]
    exact ⟨rfl, rfl⟩

/-! ## Consistency -/

/-- The structures of the cache agree, said without the view. -/
structure Consistent (c : LRUCache) : Prop where
  noDuplicates : (c.lruList.map ListNode.key).Nodup
  sameKeys : ∀ k, k ∈ c.lruList.map ListNode.key ↔ k ∈ c.cache
  ownNode : ∀ k e it, c.cache.lookup k = some (e, it) →
    ∃ n ∈ c.lruList, n.id = it ∧ n.key = k ∧ ∀ n' ∈ c.lruList, n'.id = it → n' = n
  size : c.currentSize = ((UnorderedMap.pairs c.cache).map fun p => p.2.1.data.length).sum
  bounded : c.currentSize ≤ c.maxSizeBytes
  noFault : c.fault = false

theorem Inv.consistent {c : LRUCache} (h : c.Inv) : c.Consistent := by
  constructor
  · exact h.keys
  · intro k
    rw [← AList.lookup_isSome, Option.isSome_iff_exists, ← h.view_keys, List.mem_map]
    constructor
    · rintro ⟨⟨k', e⟩, hmem, rfl⟩
      obtain ⟨it, hlook⟩ := h.mem_view.mp hmem
      exact ⟨(e, it), hlook⟩
    · rintro ⟨⟨e, it⟩, hlook⟩
      exact ⟨(k, e), h.mem_view.mpr ⟨it, hlook⟩, rfl⟩
  · intro k e it hlook
    have hmem := h.listed k e it hlook
    refine ⟨⟨it, k⟩, hmem, rfl, rfl, ?_⟩
    intro n' hn' hid
    exact List.inj_on_of_nodup_map h.ids hn' hmem hid
  · rw [h.size, ← total_perm entrySize h.pairs_perm]
    unfold total
    rw [List.map_map]
    rfl
  · rw [h.size]
    exact h.bounded
  · exact h.noFault

/-- **Consistency of the cache** after any calls, whatever the clock says. -/
theorem run_consistent (maxSizeBytes : Nat) (ttlSeconds : Int) (calls : List CacheCall)
    (hmax : maxSizeBytes < 2 ^ 63) :
    (machine.run (create maxSizeBytes ttlSeconds) calls).2.Consistent := by
  have hstep : ∀ (c : LRUCache) (x : CacheCall), c.Inv ∧ c.maxSizeBytes < 2 ^ 63 →
      (machine.step c x).2.Inv ∧ (machine.step c x).2.maxSizeBytes < 2 ^ 63 := by
    intro c x ⟨hinv, hlt⟩
    refine ⟨hinv.call x ?_, ?_⟩
    · intro key data contentType _ hfits
      -- both summands are at most the maximum, so the sum is below twice that
      have hbounded := hinv.bounded
      unfold sizeRange
      omega
    · have hsame := (call_settings c x).1
      exact hsame ▸ hlt
  exact (machine.run_invariant hstep _ calls ⟨Inv.create _ _, hmax⟩).1.consistent

/-- Two keys in a cache of four bytes: the second one evicts the first. -/
theorem run_consistent_evicting :
    (machine.run (create 4 300) [⟨0, .put [1] [1, 2, 3] []⟩, ⟨1, .get [1]⟩,
      ⟨2, .put [2] [4, 5] []⟩]).2.Consistent :=
  run_consistent 4 300 _ (by decide)

end LRUCache

end VeloxServe
