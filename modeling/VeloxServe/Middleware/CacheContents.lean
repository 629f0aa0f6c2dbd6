import VeloxServe.Middleware.Cache

/-! # Cache Contents

    Every entry of the cache was put there: a property of key, data and content
    type that all `put` calls of a run have is one of all entries, and so of
    whatever `get` returns. No assumption on sizes is needed, since wrapped
    arithmetic only changes what is evicted.
-/

namespace VeloxServe

open StdString

namespace LRUCache

/-- Every entry has the property, which may speak of the time it was put. -/
def Stores (P : Bytes → Bytes → Bytes → Time → Prop) (c : LRUCache) : Prop :=
  ∀ k e it, c.cache.lookup k = some (e, it) → P k e.data e.contentType e.created

section

variable {P : Bytes → Bytes → Bytes → Time → Prop} {c : LRUCache}

theorem Stores.mono {Q : Bytes → Bytes → Bytes → Time → Prop} (h : c.Stores P)
    (hPQ : ∀ k data contentType created, P k data contentType created →
      Q k data contentType created) : c.Stores Q :=
  fun k e it hlook => hPQ _ _ _ _ (h k e it hlook)

theorem Stores.of_cache {c' : LRUCache} (h : c.Stores P) (hcache : c'.cache = c.cache) :
    c'.Stores P := by
  intro k e it hlook
  rw [hcache] at hlook
  exact h k e it hlook

theorem Stores.of_erase {c' : LRUCache} {key : Bytes} (h : c.Stores P)
    (hcache : c'.cache = c.cache.erase key) : c'.Stores P := by
  intro k e it hlook
  rw [hcache] at hlook
  by_cases hk : k = key
  · rw [hk, AList.lookup_erase] at hlook
    cases hlook
  · rw [AList.lookup_erase_ne hk] at hlook
    exact h k e it hlook

theorem Stores.of_set {c' : LRUCache} {key : Bytes} {entry : CacheEntry} {node : Nat}
    (h : c.Stores P) (hcache : c'.cache = UnorderedMap.set key (entry, node) c.cache)
    (hentry : P key entry.data entry.contentType entry.created) : c'.Stores P := by
  intro k e it hlook
  rw [hcache, UnorderedMap.lookup_set] at hlook
  split at hlook
  · next hk =>
    obtain ⟨rfl, -⟩ := Prod.mk.inj (Option.some.inj hlook)
    exact hk ▸ hentry
  · exact h k e it hlook

theorem Stores.dropEntry (h : c.Stores P) (key : Bytes) : (c.dropEntry key).Stores P := by
  unfold LRUCache.dropEntry
  split
  · exact h.of_erase rfl
  · exact h

/-- The dropped key is stored no longer. -/
theorem Stores.dropEntry_ne (h : c.Stores P) (key : Bytes) :
    (c.dropEntry key).Stores fun k data contentType created =>
      k ≠ key ∧ P k data contentType created := by
  intro k e it hlook
  refine ⟨?_, h.dropEntry key k e it hlook⟩
  rintro rfl
  unfold LRUCache.dropEntry at hlook
  rcases hk : c.cache.lookup k with _ | ⟨entry, node⟩
  · simp only [hk] at hlook
    cases hlook
  · simp only [hk] at hlook
    have hgone : (c.unlink k entry node).cache.lookup k = none := AList.lookup_erase k c.cache
    rw [hgone] at hlook
    cases hlook

theorem Stores.evictLoop (h : c.Stores P) (size fuel : Nat) :
    (c.evictLoop size fuel).Stores P := by
  induction fuel generalizing c with
  | zero => exact h
  | succ fuel ih =>
    unfold LRUCache.evictLoop
    split
    · exact h
    · dsimp only
      split
      · apply ih
        unfold LRUCache.evictBack
        dsimp only
        split
        · exact h.of_erase rfl
        · exact h.of_cache rfl
      · exact h.of_cache rfl

/-- A hit returns an entry of the cache that is not too old, and a call to `get`
    adds none. -/
theorem Stores.get (h : c.Stores P) (key : Bytes) (now : Time) :
    (∀ e ∈ (c.get key now).1, P key e.data e.contentType e.created ∧
      elapsedSeconds now e.created ≤ c.ttlSeconds) ∧ (c.get key now).2.Stores P := by
  unfold LRUCache.get
  split
  · exact ⟨by simp, h.of_cache rfl⟩
  · next entry it hlook =>
    have hentry := h key entry it hlook
    split
    · exact ⟨by simp, h.of_erase rfl⟩
    · next hfresh =>
      refine ⟨fun e he => ?_, h.of_set rfl hentry⟩
      obtain rfl := Option.some.inj he
      exact ⟨hentry, Int.not_lt.mp hfresh⟩

theorem Stores.put (h : c.Stores P) {key data contentType : Bytes} {now : Time}
    (hput : P key data contentType now) : (c.put key data contentType now).Stores P := by
  unfold LRUCache.put
  split
  · exact h
  · exact ((h.dropEntry key).evictLoop _ _).of_set rfl hput

/-- An accepted `put` replaces what its key had. -/
theorem Stores.overwrite {Q : Bytes → Bytes → Bytes → Time → Prop} (h : c.Stores Q)
    {key data contentType : Bytes} {now : Time} (hfits : data.length ≤ c.maxSizeBytes)
    (hother : ∀ k data contentType created, k ≠ key → Q k data contentType created →
      P k data contentType created)
    (hput : P key data contentType now) : (c.put key data contentType now).Stores P := by
  have hrest : (c.dropEntry key).Stores P :=
    (h.dropEntry_ne key).mono fun k d ct t hk => hother k d ct t hk.1 hk.2
  unfold LRUCache.put
  rw [if_neg (Nat.not_lt.mpr hfits)]
  exact (hrest.evictLoop _ _).of_set rfl hput

theorem Stores.create (maxSizeBytes : Nat) (ttlSeconds : Int) :
    (create maxSizeBytes ttlSeconds).Stores P := by
  intro k e it hlook
  cases hlook

end

/-- Every entry has the property. -/
def Contains (P : Bytes → Bytes → Bytes → Prop) (c : LRUCache) : Prop :=
  ∀ k e it, c.cache.lookup k = some (e, it) → P k e.data e.contentType

variable {P : Bytes → Bytes → Bytes → Prop} {c : LRUCache}

theorem contains_iff_stores :
    c.Contains P ↔ c.Stores fun k data contentType _ => P k data contentType := Iff.rfl

/-- A hit returns an entry of the cache, and a call to `get` adds none. -/
theorem Contains.get (h : c.Contains P) (key : Bytes) (now : Time) :
    (∀ e ∈ (c.get key now).1, P key e.data e.contentType) ∧ (c.get key now).2.Contains P := by
  obtain ⟨hhit, hafter⟩ := (contains_iff_stores.mp h).get key now
  exact ⟨fun e he => (hhit e he).1, hafter⟩

/-- The calls that put nothing without the property. -/
def CacheCall.Puts (P : Bytes → Bytes → Bytes → Prop) (x : CacheCall) : Prop :=
  ∀ key data contentType, x.op = .put key data contentType → P key data contentType

theorem Contains.call (h : c.Contains P) {x : CacheCall} (hx : CacheCall.Puts P x) :
    (c.call x).2.Contains P := by
  unfold LRUCache.call
  split
  · exact (h.get _ _).2
  · next hop =>
    exact Stores.put (P := fun k data contentType _ => P k data contentType) h (hx _ _ _ hop)
  · exact Stores.dropEntry (P := fun k data contentType _ => P k data contentType) h _
  · intro k e it hlook
    cases hlook

theorem Contains.create (maxSizeBytes : Nat) (ttlSeconds : Int) :
    (create maxSizeBytes ttlSeconds).Contains P := by
  intro k e it hlook
  cases hlook

/-- The caches a run of such calls leads to, from an empty one. -/
def FilledBy (P : Bytes → Bytes → Bytes → Prop) (c : LRUCache) : Prop :=
  ∃ maxSizeBytes ttlSeconds calls, (∀ x ∈ calls, CacheCall.Puts P x) ∧
    (machine.run (create maxSizeBytes ttlSeconds) calls).2 = c

theorem FilledBy.create (maxSizeBytes : Nat) (ttlSeconds : Int) :
    FilledBy P (create maxSizeBytes ttlSeconds) :=
  ⟨maxSizeBytes, ttlSeconds, [], by simp, rfl⟩

theorem FilledBy.call (h : FilledBy P c) {x : CacheCall} (hx : CacheCall.Puts P x) :
    FilledBy P (c.call x).2 := by
  obtain ⟨maxSizeBytes, ttlSeconds, calls, hcalls, rfl⟩ := h
  refine ⟨maxSizeBytes, ttlSeconds, calls ++ [x], fun y hy => ?_, ?_⟩
  · rcases List.mem_append.mp hy with hy | hy
    · exact hcalls y hy
    · exact List.mem_singleton.mp hy ▸ hx
  · rw [LTS.Machine.run_append]
    rfl

theorem FilledBy.get (h : FilledBy P c) (key : Bytes) (now : Time) :
    FilledBy P (c.get key now).2 :=
  h.call (x := ⟨now, .get key⟩) fun _ _ _ hop => by cases hop

theorem FilledBy.put (h : FilledBy P c) {key data contentType : Bytes} (now : Time)
    (hput : P key data contentType) : FilledBy P (c.put key data contentType now) := by
  refine h.call (x := ⟨now, .put key data contentType⟩) ?_
  intro _ _ _ hop
  obtain ⟨rfl, rfl, rfl⟩ := CacheOp.put.inj hop
  exact hput

/-- **Run lemma**: such a cache contains only entries with the property. -/
theorem FilledBy.contains (h : FilledBy P c) : c.Contains P := by
  obtain ⟨maxSizeBytes, ttlSeconds, calls, hcalls, rfl⟩ := h
  exact machine.run_invariant_on (fun c x h hx => h.call hx) _ calls
    (Contains.create _ _) hcalls

end LRUCache

end VeloxServe
