import VeloxServe.Middleware.CacheInvariant

/-! # LRU Cache Refinement

    What the cache is for, said with one list: `RefCache` keeps its entries in
    recency order and evicts the least recently used suffix that does not fit.
    `LRUCache` with its list, map and byte counter gives the same answers.
-/

namespace VeloxServe

open StdString Recency

/-! ## Reference Model -/

/-- What the reference model keeps of a key. -/
structure RefEntry where
  data : Bytes
  contentType : Bytes
  created : Time
  deriving DecidableEq

structure RefCache where
  /-- Most recently used key in front. -/
  entries : List (Bytes × RefEntry) := []
  maxSizeBytes : Nat
  ttlSeconds : Int
  hits : Nat := 0
  misses : Nat := 0

namespace RefCache

abbrev entrySize (e : RefEntry) : Nat := e.data.length

/-- The age of an entry in whole seconds. -/
def age (now : Time) (e : RefEntry) : Int := (now - e.created) / 1000000000

def get (key : Bytes) (now : Time) (r : RefCache) : Option RefEntry × RefCache :=
  match lookup key r.entries with
  | none => (none, { r with misses := r.misses + 1 })
  | some e =>
    if age now e ≤ r.ttlSeconds then
      (some e, { r with entries := (key, e) :: without key r.entries, hits := r.hits + 1 })
    else
      (none, { r with entries := without key r.entries, misses := r.misses + 1 })

def put (key data contentType : Bytes) (now : Time) (r : RefCache) : RefCache :=
  if r.maxSizeBytes < data.length then r
  else
    let rest := fitting entrySize (r.maxSizeBytes - data.length) (without key r.entries)
    { r with entries := (key, ⟨data, contentType, now⟩) :: rest }

def remove (key : Bytes) (r : RefCache) : RefCache := { r with entries := without key r.entries }

def clear (r : RefCache) : RefCache := { r with entries := [] }

def getStats (r : RefCache) : CacheStats where
  hits := r.hits
  misses := r.misses
  entries := r.entries.length
  memory := total entrySize r.entries

def create (maxSizeBytes : Nat) (ttlSeconds : Int) : RefCache where
  maxSizeBytes := maxSizeBytes
  ttlSeconds := ttlSeconds

def call (r : RefCache) (x : CacheCall) : Option RefEntry × RefCache :=
  match x.op with
  | .get key => r.get key x.now
  | .put key data contentType => (none, r.put key data contentType x.now)
  | .remove key => (none, r.remove key)
  | .clear => (none, r.clear)

/-- The answers of a call: the result of `get` and the statistics after it. -/
def observed : LTS.Machine RefCache CacheCall (Option RefEntry × CacheStats) where
  step r x := (((r.call x).1, (r.call x).2.getStats), (r.call x).2)

/-- The cached bytes and the argument of a `put` lie in one address space. -/
def Addressable (r : RefCache) (x : CacheCall) : Prop :=
  ∀ key data contentType, x.op = .put key data contentType →
    data.length ≤ r.maxSizeBytes → total entrySize r.entries + data.length < sizeRange

end RefCache

/-! ## Refinement -/

def CacheEntry.toRef (e : CacheEntry) : RefEntry := ⟨e.data, e.contentType, e.created⟩

namespace LRUCache

/-- The cache, observed as the reference model is. -/
def observed : LTS.Machine LRUCache CacheCall (Option RefEntry × CacheStats) where
  step c x := (((c.call x).1.map CacheEntry.toRef, (c.call x).2.getStats), (c.call x).2)

structure Refines (c : LRUCache) (r : RefCache) : Prop where
  inv : c.Inv
  entries : mapEntries CacheEntry.toRef c.view = r.entries
  maxSizeBytes : c.maxSizeBytes = r.maxSizeBytes
  ttlSeconds : c.ttlSeconds = r.ttlSeconds
  hits : c.hits = r.hits
  misses : c.misses = r.misses

variable {c : LRUCache} {r : RefCache}

theorem toRef_entrySize (e : CacheEntry) : RefCache.entrySize e.toRef = entrySize e := rfl

theorem Refines.total_eq (h : Refines c r) :
    total RefCache.entrySize r.entries = total entrySize c.view := by
  rw [← h.entries]
  exact total_mapEntries _ toRef_entrySize c.view

theorem Refines.getStats_eq (h : Refines c r) : c.getStats = r.getStats := by
  have hentries : c.cache.entries.length = r.entries.length := by
    have hlen := h.inv.pairs_perm.length_eq
    rw [← h.entries, length_mapEntries, ← hlen]
    simp [UnorderedMap.pairs]
  unfold LRUCache.getStats RefCache.getStats
  rw [h.hits, h.misses, hentries, h.total_eq, h.inv.size]

/-- Truncated and floored ages agree when the clock does not run backwards. -/
theorem elapsedSeconds_eq_age {now : Time} {e : CacheEntry} (h : e.created ≤ now) :
    elapsedSeconds now e.created = RefCache.age now e.toRef := by
  unfold elapsedSeconds RefCache.age
  exact Int.tdiv_eq_ediv_of_nonneg (Int.sub_nonneg_of_le h)

theorem Refines.get (h : Refines c r) (key : Bytes) (now : Time)
    (hclock : ∀ e ∈ r.entries, e.2.created ≤ now) :
    (c.get key now).1.map CacheEntry.toRef = (r.get key now).1 ∧
      Refines (c.get key now).2 (r.get key now).2 := by
  have hinv := h.inv.get key now
  rcases hlook : c.cache.lookup key with _ | ⟨e, it⟩
  · have hnone : Recency.lookup key r.entries = none := by
      apply lookup_eq_none
      intro e he heq
      rw [← h.entries] at he
      obtain ⟨⟨k, e'⟩, hmem, rfl⟩ := List.mem_map.mp he
      obtain ⟨it, hsome⟩ := h.inv.mem_view.mp hmem
      rw [show k = key from heq, hlook] at hsome
      cases hsome
    rw [get_miss hlook] at hinv ⊢
    unfold RefCache.get
    rw [hnone]
    exact ⟨rfl, hinv, h.entries, h.maxSizeBytes, h.ttlSeconds, h.hits, by rw [h.misses]⟩
  · have hmem : (key, e) ∈ c.view := h.inv.mem_view.mpr ⟨it, hlook⟩
    have hmem' : (key, e.toRef) ∈ r.entries := h.entries ▸ mem_mapEntries_of_mem _ hmem
    have hnd : (r.entries.map Prod.fst).Nodup := by
      rw [← h.entries, keys_mapEntries]
      exact h.inv.view_nodup
    have hage : elapsedSeconds now e.created = RefCache.age now e.toRef :=
      elapsedSeconds_eq_age (hclock _ hmem')
    have hwithout : mapEntries CacheEntry.toRef (without key c.view) = without key r.entries := by
      rw [← h.entries, without_mapEntries]
    unfold RefCache.get
    simp only [lookup_of_mem hnd hmem']
    by_cases hold : elapsedSeconds now e.created > c.ttlSeconds
    · rw [get_expired hlook hold] at hinv ⊢
      rw [if_neg (by rw [← hage, ← h.ttlSeconds]; omega)]
      have hview : (c.unlink key e it).view = without key c.view := (h.inv.unlink hlook).2
      refine ⟨rfl, hinv, ?_, h.maxSizeBytes, h.ttlSeconds, h.hits, by rw [h.misses]⟩
      show mapEntries CacheEntry.toRef (c.unlink key e it).view = without key r.entries
      rw [hview, hwithout]
    · rw [h.inv.get_hit hlook hold] at hinv ⊢
      rw [if_pos (by rw [← hage, ← h.ttlSeconds]; omega)]
      refine ⟨rfl, hinv, ?_, h.maxSizeBytes, h.ttlSeconds, by rw [h.hits], h.misses⟩
      show mapEntries CacheEntry.toRef (c.front key (e.touched now)).view = _
      rw [view_front, mapEntries_cons, hwithout]
      rfl

theorem Refines.put (h : Refines c r) (key data contentType : Bytes) (now : Time)
    (hsum : data.length ≤ r.maxSizeBytes →
      total RefCache.entrySize r.entries + data.length < sizeRange) :
    Refines (c.put key data contentType now) (r.put key data contentType now) := by
  unfold RefCache.put
  by_cases hlarge : r.maxSizeBytes < data.length
  · rw [if_pos hlarge, put_tooLarge (h.maxSizeBytes ▸ hlarge)]
    exact h
  · have hfits : data.length ≤ r.maxSizeBytes := Nat.le_of_not_lt hlarge
    have hrange := hsum hfits
    rw [h.total_eq] at hrange
    obtain ⟨hinv, hview, hsame⟩ :=
      h.inv.put key data contentType now (h.maxSizeBytes ▸ hfits) hrange
    rw [if_neg hlarge]
    refine ⟨hinv, ?_, hsame.maxSizeBytes.trans h.maxSizeBytes,
      hsame.ttlSeconds.trans h.ttlSeconds, hsame.hits.trans h.hits, hsame.misses.trans h.misses⟩
    have hfitting : mapEntries CacheEntry.toRef
        (fitting entrySize (c.maxSizeBytes - data.length) (without key c.view)) =
        fitting RefCache.entrySize (r.maxSizeBytes - data.length) (without key r.entries) := by
      rw [← h.entries, without_mapEntries, ← h.maxSizeBytes,
        fitting_mapEntries CacheEntry.toRef toRef_entrySize]
    rw [hview, mapEntries_cons, hfitting]
    rfl

theorem Refines.remove (h : Refines c r) (key : Bytes) :
    Refines (c.remove key) (r.remove key) := by
  obtain ⟨hinv, hview, hsame⟩ := h.inv.dropEntry key
  refine ⟨hinv, ?_, hsame.maxSizeBytes.trans h.maxSizeBytes,
    hsame.ttlSeconds.trans h.ttlSeconds, hsame.hits.trans h.hits, hsame.misses.trans h.misses⟩
  show mapEntries CacheEntry.toRef (c.dropEntry key).view = without key r.entries
  rw [hview, ← without_mapEntries, h.entries]

theorem Refines.clear (h : Refines c r) : Refines c.clear r.clear :=
  ⟨h.inv.clear, rfl, h.maxSizeBytes, h.ttlSeconds, h.hits, h.misses⟩

/-- **One call** answers as the reference model does. -/
theorem Refines.call (h : Refines c r) (x : CacheCall) (haddr : r.Addressable x)
    (hclock : ∀ e ∈ r.entries, e.2.created ≤ x.now) :
    (c.call x).1.map CacheEntry.toRef = (r.call x).1 ∧ Refines (c.call x).2 (r.call x).2 := by
  unfold LRUCache.call RefCache.call
  rcases hop : x.op with key | ⟨key, data, contentType⟩ | key | _
  · exact h.get key x.now hclock
  · exact ⟨rfl, h.put key data contentType x.now (haddr key data contentType hop)⟩
  · exact ⟨rfl, h.remove key⟩
  · exact ⟨rfl, h.clear⟩

end LRUCache

/-! ## Runs -/

/-- No entry is newer than the call that stored it. -/
theorem RefCache.call_created {r : RefCache} {x : CacheCall}
    (h : ∀ e ∈ r.entries, e.2.created ≤ x.now) :
    ∀ e ∈ (r.call x).2.entries, e.2.created ≤ x.now := by
  have hwithout : ∀ key, ∀ e ∈ without key r.entries, e.2.created ≤ x.now :=
    fun key e he => h e ((without_sublist key r.entries).subset he)
  unfold RefCache.call
  rcases x.op with key | ⟨key, data, contentType⟩ | key | _
  · show ∀ e ∈ (r.get key x.now).2.entries, _
    unfold RefCache.get
    rcases hlook : Recency.lookup key r.entries with _ | e
    · exact h
    · dsimp only
      split
      · intro e' he'
        rcases List.mem_cons.mp he' with rfl | he'
        · exact h (key, e) (mem_of_lookup hlook)
        · exact hwithout key e' he'
      · exact hwithout key
  · show ∀ e ∈ (r.put key data contentType x.now).entries, _
    unfold RefCache.put
    split
    · exact h
    · intro e he
      rcases List.mem_cons.mp he with rfl | he
      · exact le_refl _
      · exact hwithout key e ((fitting_isPrefix _ _ _).subset he)
  · exact hwithout key
  · intro e he
    cases he

/-- A clock that does not run backwards never meets a newer entry. -/
theorem RefCache.guarded_created (calls : List CacheCall)
    (hclock : (calls.map CacheCall.now).Pairwise (· ≤ ·)) {r : RefCache}
    (hold : ∀ x ∈ calls, ∀ e ∈ r.entries, e.2.created ≤ x.now)
    (haddr : RefCache.observed.Guarded RefCache.Addressable r calls) :
    RefCache.observed.Guarded
      (fun r x => r.Addressable x ∧ ∀ e ∈ r.entries, e.2.created ≤ x.now) r calls := by
  induction calls generalizing r with
  | nil => exact True.intro
  | cons x calls ih =>
    rw [List.map_cons, List.pairwise_cons] at hclock
    have hnow := hold x List.mem_cons_self
    refine ⟨⟨haddr.1, hnow⟩, ih hclock.2 ?_ haddr.2⟩
    intro x' hx' e he
    have hle : x.now ≤ x'.now := hclock.1 x'.now (List.mem_map_of_mem hx')
    exact le_trans (RefCache.call_created hnow e he) hle

/-- The reference model stays within its maximum. -/
theorem RefCache.call_bounded {r : RefCache} (h : total entrySize r.entries ≤ r.maxSizeBytes)
    (x : CacheCall) :
    total entrySize (r.call x).2.entries ≤ r.maxSizeBytes ∧
      (r.call x).2.maxSizeBytes = r.maxSizeBytes := by
  have hwithout : ∀ key, total entrySize (without key r.entries) ≤ r.maxSizeBytes :=
    fun key => (total_sublist entrySize (without_sublist key r.entries)).trans h
  unfold RefCache.call
  rcases x.op with key | ⟨key, data, contentType⟩ | key | _
  · show total entrySize (r.get key x.now).2.entries ≤ _ ∧ (r.get key x.now).2.maxSizeBytes = _
    unfold RefCache.get
    rcases hlook : Recency.lookup key r.entries with _ | e
    · exact ⟨h, rfl⟩
    · dsimp only
      split
      · exact ⟨(total_without_le entrySize (mem_of_lookup hlook)).trans h, rfl⟩
      · exact ⟨hwithout key, rfl⟩
  · show total entrySize (r.put key data contentType x.now).entries ≤ _ ∧
      (r.put key data contentType x.now).maxSizeBytes = _
    unfold RefCache.put
    split
    · exact ⟨h, rfl⟩
    · refine ⟨?_, rfl⟩
      have hroom := total_fitting_le entrySize (r.maxSizeBytes - data.length)
        (without key r.entries)
      show data.length + total entrySize (fitting entrySize _ _) ≤ _
      omega
  · exact ⟨hwithout key, rfl⟩
  · exact ⟨Nat.zero_le _, rfl⟩

/-- A maximum below `2^63` keeps every sum addressable. -/
theorem RefCache.guarded_addressable (calls : List CacheCall) {r : RefCache}
    (hbounded : total entrySize r.entries ≤ r.maxSizeBytes) (hmax : r.maxSizeBytes < 2 ^ 63) :
    RefCache.observed.Guarded RefCache.Addressable r calls := by
  induction calls generalizing r with
  | nil => exact True.intro
  | cons x calls ih =>
    obtain ⟨hnext, hsame⟩ := RefCache.call_bounded hbounded x
    refine ⟨?_, ih (hsame ▸ hnext) (hsame ▸ hmax)⟩
    intro key data contentType _ hfits
    unfold sizeRange
    omega

/-- **The cache is observationally equal to the reference model**: over any
    calls with a clock that does not run backwards, every result of `get` and
    all the statistics agree. -/
theorem LRUCache.observed_eq (maxSizeBytes : Nat) (ttlSeconds : Int) (calls : List CacheCall)
    (hclock : (calls.map CacheCall.now).Pairwise (· ≤ ·))
    (haddr : RefCache.observed.Guarded RefCache.Addressable
      (RefCache.create maxSizeBytes ttlSeconds) calls) :
    (LRUCache.observed.run (LRUCache.create maxSizeBytes ttlSeconds) calls).1 =
      (RefCache.observed.run (RefCache.create maxSizeBytes ttlSeconds) calls).1 := by
  have hguard := RefCache.guarded_created calls hclock (by intro x _ e he; cases he) haddr
  have hinit : LRUCache.Refines (LRUCache.create maxSizeBytes ttlSeconds)
      (RefCache.create maxSizeBytes ttlSeconds) :=
    ⟨LRUCache.Inv.create _ _, rfl, rfl, rfl, rfl, rfl⟩
  refine (LTS.Machine.simulation LRUCache.observed RefCache.observed ?_ _ _ calls hinit hguard).1
  intro c r x href hg
  obtain ⟨hout, hnext⟩ := href.call x hg.1 hg.2
  exact ⟨Prod.ext hout hnext.getStats_eq, hnext⟩

/-- A hit keeps the older key of a full cache, an overwrite evicts the other one. -/
theorem LRUCache.observed_eq_evicting :
    let calls : List CacheCall :=
      [⟨0, .put [1] [1, 2] []⟩, ⟨1, .put [2] [3, 4] []⟩, ⟨2, .get [1]⟩, ⟨3, .put [3] [5] []⟩,
        ⟨4, .get [2]⟩, ⟨301000000000, .get [1]⟩]
    (LRUCache.observed.run (LRUCache.create 4 300) calls).1 =
      (RefCache.observed.run (RefCache.create 4 300) calls).1 :=
  LRUCache.observed_eq 4 300 _ (by decide)
    (RefCache.guarded_addressable _ (Nat.zero_le _) (by decide))

end VeloxServe
