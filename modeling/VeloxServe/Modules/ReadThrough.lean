import VeloxServe.Middleware.CacheRefinement
import VeloxServe.Modules.StaticHandler

/-! # Reading Through the Cache

    How `StaticHandler::handle` uses its cache: `get` the file and, on a miss,
    read it and `put` it. While the files stay as they are and nothing expires,
    the entries are a recency list that each access changes as `Recency.access`
    does, so that a cache with more room has every entry of one with less.
-/

namespace VeloxServe

open StdString Recency

/-- An access to a key, with the two readings of the clock it may make. -/
structure Access where
  key : Bytes
  getTime : Time
  putTime : Time
  deriving DecidableEq

/-- What can be seen of an access: whether it hit, and the recency list after it. -/
structure Accessed where
  hit : Bool
  recency : List Bytes
  deriving DecidableEq

namespace LRUCache

variable (content contentType : Bytes → Bytes)

/-- `lru_list_`, most recently used key in front. -/
def recency (c : LRUCache) : List Bytes := c.lruList.map ListNode.key

/-- `get` and, on a miss, `put` of the content; the result is whether it hit. -/
def readThrough (c : LRUCache) (x : Access) : Bool × LRUCache :=
  match c.get x.key x.getTime with
  | (some _, c) => (true, c)
  | (none, c) => (false, c.put x.key (content x.key) (contentType x.key) x.putTime)

/-- The cache as a machine over accesses. -/
def accesses : LTS.Machine LRUCache Access Accessed where
  step c x :=
    let r := c.readThrough content contentType x
    (⟨r.1, r.2.recency⟩, r.2)

/-- The access finds no expired entry, and on a miss the cached bytes and the content
    lie in one address space. -/
structure Undisturbed (c : LRUCache) (x : Access) : Prop where
  unexpired : ∀ v ∈ c.cache.lookup x.key, elapsedSeconds x.getTime v.1.created ≤ c.ttlSeconds
  addressable : c.cache.lookup x.key = none →
    c.currentSize + (content x.key).length < sizeRange

instance (c : LRUCache) (x : Access) : Decidable (c.Undisturbed content x) :=
  decidable_of_iff
    ((∀ v ∈ c.cache.lookup x.key, elapsedSeconds x.getTime v.1.created ≤ c.ttlSeconds) ∧
      (c.cache.lookup x.key = none → c.currentSize + (content x.key).length < sizeRange))
    ⟨fun h => ⟨h.1, h.2⟩, fun h => ⟨h.unexpired, h.addressable⟩⟩

/-! ## One Cache -/

/-- The recency list with the cached data. -/
def cached (c : LRUCache) : List (Bytes × Bytes) := mapEntries CacheEntry.data c.view

/-- The cache holds the contents of its keys. -/
structure Holds (c : LRUCache) : Prop where
  inv : c.Inv
  contents : ∀ e ∈ c.cached, e.2 = content e.1

variable {content contentType} {c : LRUCache}

theorem Linked.keys_cached (h : c.Linked) : c.cached.map Prod.fst = c.recency := by
  unfold cached recency
  rw [keys_mapEntries, h.view_keys]

theorem Linked.mem_keys_cached (h : c.Linked) {k : Bytes} :
    k ∈ c.cached.map Prod.fst ↔ ∃ e it, c.cache.lookup k = some (e, it) := by
  unfold cached
  rw [keys_mapEntries, List.mem_map]
  constructor
  · intro ⟨⟨k', e⟩, hmem, heq⟩
    obtain rfl : k' = k := heq
    obtain ⟨it, hlook⟩ := h.mem_view.mp hmem
    exact ⟨e, it, hlook⟩
  · intro ⟨e, it, hlook⟩
    exact ⟨(k, e), h.mem_view.mpr ⟨it, hlook⟩, rfl⟩

theorem Holds.data_eq (h : c.Holds content) {k : Bytes} {e : CacheEntry} {it : Nat}
    (hlook : c.cache.lookup k = some (e, it)) : e.data = content k :=
  h.contents (k, e.data) (mem_mapEntries_of_mem _ (h.inv.mem_view.mpr ⟨it, hlook⟩))

/-- What an access does to the cached data. -/
structure ReadsThrough (content : Bytes → Bytes) (c : LRUCache) (k : Bytes) (r : Bool × LRUCache) :
    Prop where
  hit : r.1 = true ↔ k ∈ c.cached.map Prod.fst
  cached : r.2.cached = access List.length c.maxSizeBytes k (content k) c.cached
  inv : r.2.Inv
  maxSizeBytes : r.2.maxSizeBytes = c.maxSizeBytes

/-- **An access** hits the cached keys, and puts its own in front. -/
theorem Holds.readThrough (h : c.Holds content) {x : Access}
    (hfits : (content x.key).length ≤ c.maxSizeBytes) (hx : c.Undisturbed content x) :
    ReadsThrough content c x.key (c.readThrough content contentType x) := by
  have hinv := h.inv.get x.key x.getTime
  rcases hlook : c.cache.lookup x.key with _ | ⟨e, it⟩
  · have hmiss : x.key ∉ c.cached.map Prod.fst := by
      rw [h.inv.mem_keys_cached]
      intro ⟨e, it, hsome⟩
      rw [hlook] at hsome
      cases hsome
    rw [get_miss hlook] at hinv
    have hsum : total entrySize c.view + (content x.key).length < sizeRange := by
      rw [← h.inv.size]
      exact hx.addressable hlook
    obtain ⟨hinv', hview, hsame⟩ :=
      hinv.put x.key (content x.key) (contentType x.key) x.putTime hfits hsum
    have hstep : c.readThrough content contentType x = (false, LRUCache.put x.key
        (content x.key) (contentType x.key) x.putTime { c with misses := c.misses + 1 }) := by
      unfold LRUCache.readThrough
      rw [get_miss hlook]
    rw [hstep]
    refine ⟨by simpa using hmiss, ?_, hinv', hsame.maxSizeBytes⟩
    have hview' : (LRUCache.put x.key (content x.key) (contentType x.key) x.putTime
        { c with misses := c.misses + 1 }).view =
        (x.key, CacheEntry.fresh (content x.key) (contentType x.key) x.putTime) ::
          fitting entrySize (c.maxSizeBytes - (content x.key).length) (without x.key c.view) := hview
    unfold LRUCache.cached access at *
    rw [hview', if_neg hmiss, mapEntries_cons, h.inv.without_of_lookup hlook,
      fitting_mapEntries CacheEntry.data (fun _ => rfl)]
    rfl
  · have hhit : x.key ∈ c.cached.map Prod.fst := h.inv.mem_keys_cached.mpr ⟨e, it, hlook⟩
    have hlive : ¬ elapsedSeconds x.getTime e.created > c.ttlSeconds :=
      Int.not_lt.mpr (hx.unexpired (e, it) hlook)
    have hget := h.inv.get_hit hlook hlive
    have hstep : c.readThrough content contentType x =
        (true, { c.front x.key (e.touched x.getTime) with hits := c.hits + 1 }) := by
      unfold LRUCache.readThrough
      rw [hget]
    rw [hget] at hinv
    rw [hstep]
    refine ⟨by simpa using hhit, ?_, hinv, rfl⟩
    have hview : LRUCache.view { c.front x.key (e.touched x.getTime) with hits := c.hits + 1 } =
        (x.key, e.touched x.getTime) :: without x.key c.view :=
      view_front x.key (e.touched x.getTime) c
    have hdata : (e.touched x.getTime).data = content x.key := by
      show e.data = _
      exact h.data_eq hlook
    unfold LRUCache.cached access at *
    rw [hview, if_pos hhit, mapEntries_cons, hdata, without_mapEntries]

theorem ReadsThrough.holds (h : c.Holds content) {k : Bytes} {r : Bool × LRUCache}
    (hr : ReadsThrough content c k r) : r.2.Holds content := by
  refine ⟨hr.inv, fun e he => ?_⟩
  rw [hr.cached] at he
  rcases mem_access _ he with rfl | he
  · rfl
  · exact h.contents e he

theorem Holds.create (content : Bytes → Bytes) (maxSizeBytes : Nat) (ttlSeconds : Int) :
    (LRUCache.create maxSizeBytes ttlSeconds).Holds content := by
  refine ⟨Inv.create _ _, fun e he => ?_⟩
  cases he

/-! ## Two Capacities -/

/-- Two caches with the same contents, the first one with less room. -/
structure Included (content : Bytes → Bytes) (small large : Nat) (s t : LRUCache) : Prop where
  holds : s.Holds content
  holds' : t.Holds content
  maxSizeBytes : s.maxSizeBytes = small
  maxSizeBytes' : t.maxSizeBytes = large
  cached : s.cached <+: t.cached

/-- The larger cache hits whenever the smaller one does, and has its recency list
    in front of its own. -/
structure Covers (a b : Accessed) : Prop where
  hit : a.hit = true → b.hit = true
  recency : a.recency <+: b.recency

/-- **Step lemma**: an access keeps the smaller cache included in the larger one. -/
theorem Included.step {small large : Nat} (hle : small ≤ large) {s t : LRUCache}
    (h : Included content small large s t) {x : Access}
    (hfits : (content x.key).length ≤ small) (hs : s.Undisturbed content x)
    (ht : t.Undisturbed content x) :
    Covers ((accesses content contentType).step s x).1
        ((accesses content contentType).step t x).1 ∧
      Included content small large ((accesses content contentType).step s x).2
        ((accesses content contentType).step t x).2 := by
  have hrs : ReadsThrough content s x.key (s.readThrough content contentType x) :=
    h.holds.readThrough (h.maxSizeBytes ▸ hfits) hs
  have hrt : ReadsThrough content t x.key (t.readThrough content contentType x) :=
    h.holds'.readThrough (h.maxSizeBytes' ▸ hfits.trans hle) ht
  have hcached : (s.readThrough content contentType x).2.cached <+:
      (t.readThrough content contentType x).2.cached := by
    rw [hrs.cached, hrt.cached, h.maxSizeBytes, h.maxSizeBytes']
    exact access_isPrefix List.length hle x.key (content x.key) h.cached
  refine ⟨⟨?_, ?_⟩, ⟨hrs.holds h.holds, hrt.holds h.holds', ?_, ?_, hcached⟩⟩
  · intro hhit
    exact hrt.hit.mpr ((h.cached.map Prod.fst).subset (hrs.hit.mp hhit))
  · show (s.readThrough content contentType x).2.recency <+: _
    rw [← hrs.inv.keys_cached]
    show _ <+: (t.readThrough content contentType x).2.recency
    rw [← hrt.inv.keys_cached]
    exact hcached.map Prod.fst
  · exact hrs.maxSizeBytes.trans h.maxSizeBytes
  · exact hrt.maxSizeBytes.trans h.maxSizeBytes'

/-- **Capacity monotonicity**: on any accesses that nothing expires in, a larger
    cache keeps the recency list of a smaller one as a prefix and loses no hit. -/
theorem covers_of_le (content contentType : Bytes → Bytes) {small large : Nat} (hle : small ≤ large)
    (hfits : ∀ key, (content key).length ≤ small) (ttlSeconds : Int) (xs : List Access)
    (hsmall : (accesses content contentType).Guarded (Undisturbed content)
      (create small ttlSeconds) xs)
    (hlarge : (accesses content contentType).Guarded (Undisturbed content)
      (create large ttlSeconds) xs) :
    List.Forall₂ Covers ((accesses content contentType).run (create small ttlSeconds) xs).1
      ((accesses content contentType).run (create large ttlSeconds) xs).1 := by
  have hinit : Included content small large (create small ttlSeconds) (create large ttlSeconds) :=
    ⟨Holds.create _ _ _, Holds.create _ _ _, rfl, rfl, List.prefix_refl _⟩
  refine LTS.Machine.run_related _ ?_ xs hinit hsmall hlarge
  intro s t x h hs ht
  exact h.step hle (hfits x.key) hs ht

/-- Files of one, two and three bytes: the third access evicts in the smaller cache
    only, and the last one hits in the larger cache only. -/
theorem covers_of_le_evicting :
    let xs : List Access := [⟨[1], 0, 1⟩, ⟨[2, 2], 2, 3⟩, ⟨[3, 3, 3], 4, 5⟩, ⟨[3, 3, 3], 6, 7⟩,
      ⟨[2, 2], 8, 9⟩]
    List.Forall₂ Covers
      ((accesses (fun key => key.take 3) getMimeType).run (create 3 300) xs).1
      ((accesses (fun key => key.take 3) getMimeType).run (create 6 300) xs).1 :=
  covers_of_le (fun key => key.take 3) getMimeType (by decide)
    (fun key => List.length_take_le 3 key) 300 _ (by decide) (by decide)

end LRUCache

/-! ## The Handler -/

namespace StaticHandler

/-- **The handler reads through its cache** whatever file it can read. -/
theorem serveFile_readThrough {fs : FileSystem} {content : Bytes → Bytes} {fsPath : Bytes}
    (hfile : fileAt fs fsPath = some (content fsPath)) (getTime putTime : Time) (c : LRUCache) :
    (serveFile fs getTime putTime fsPath (some c)).cache =
      some (c.readThrough content getMimeType ⟨fsPath, getTime, putTime⟩).2 := by
  unfold fileAt at hfile
  split at hfile
  · next hexists =>
    unfold serveFile LRUCache.readThrough
    dsimp only
    rcases c.get fsPath getTime with ⟨_ | e, c'⟩
    · show (serveFromDisk fs putTime fsPath (some c')).cache = _
      unfold serveFromDisk
      rw [hexists, hfile]
      rfl
    · rfl
  · cases hfile

end StaticHandler

end VeloxServe
