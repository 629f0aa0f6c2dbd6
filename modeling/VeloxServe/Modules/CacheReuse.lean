import VeloxServe.Framework.ReuseDistance
import VeloxServe.Modules.ReadThrough

/-! # Which Accesses Hit

    What the cache of `src/middleware/cache.cpp` holds after any sequence of
    accesses in which nothing expires: the contents of the keys in the order of
    their latest access, as far as they fit. So the capacity and the reuse
    distance of an access decide whether it hits, whatever else was accessed
    before.
-/

namespace VeloxServe

open StdString Recency LTS

namespace LRUCache

variable {content : Bytes → Bytes} {capacity : Nat}

/-- The keys of some accesses, latest first. -/
def history (past : List Access) : List Bytes := (past.map Access.key).reverse

theorem history_snoc (past : List Access) (x : Access) :
    history (past ++ [x]) = x.key :: history past := by
  unfold history
  rw [List.map_append, List.reverse_append]
  rfl

theorem mem_history {past : List Access} {key : Bytes} :
    key ∈ history past ↔ ∃ x ∈ past, x.key = key := by
  unfold history
  rw [List.mem_reverse, List.mem_map]

/-- **Invariant**: the cache holds what fits of the order of its history. -/
structure HoldsLatest (content : Bytes → Bytes) (capacity : Nat) (past : List Access)
    (c : LRUCache) : Prop where
  holds : c.Holds content
  maxSizeBytes : c.maxSizeBytes = capacity
  cached : c.cached =
    fitting List.length capacity (entriesOf content (order (history past)))

theorem HoldsLatest.create (content : Bytes → Bytes) (capacity : Nat) (ttlSeconds : Int) :
    HoldsLatest content capacity [] (create capacity ttlSeconds) :=
  ⟨Holds.create _ _ _, rfl, rfl⟩

/-- **Step lemma**: an access hits what fits, and its key becomes the latest. -/
theorem HoldsLatest.step (contentType : Bytes → Bytes) {past : List Access} {c : LRUCache}
    (h : HoldsLatest content capacity past c) {x : Access}
    (hfits : (content x.key).length ≤ capacity) (hx : c.Undisturbed content x) :
    (((accesses content contentType).step c x).1.hit = true ↔
        x.key ∈ history past ∧
          reuseDistance List.length content x.key (history past) ≤ capacity) ∧
      HoldsLatest content capacity (past ++ [x]) ((accesses content contentType).step c x).2 := by
  have hread : ReadsThrough content c x.key (c.readThrough content contentType x) :=
    h.holds.readThrough (h.maxSizeBytes ▸ hfits) hx
  constructor
  · show (c.readThrough content contentType x).1 = true ↔ _
    rw [hread.hit, h.cached, mem_fitting_order_iff]
  · refine ⟨hread.holds h.holds, hread.maxSizeBytes.trans h.maxSizeBytes, ?_⟩
    show (c.readThrough content contentType x).2.cached = _
    rw [hread.cached, h.maxSizeBytes, h.cached, history_snoc,
      access_fitting List.length content (nodup_order _) hfits]
    rfl

/-- **Which accesses hit**: after any accesses, one hits exactly when its key was accessed
    before and all the different contents accessed since then fit into the cache together,
    and the recency list is the order of the keys as far as they fit. -/
theorem hit_iff_reuseDistance (content contentType : Bytes → Bytes) {capacity : Nat}
    (hfits : ∀ key, (content key).length ≤ capacity) (ttlSeconds : Int) (past : List Access)
    (x : Access)
    (hguard : (accesses content contentType).Guarded (Undisturbed content)
      (create capacity ttlSeconds) (past ++ [x])) :
    let before := ((accesses content contentType).run (create capacity ttlSeconds) past).2
    (((accesses content contentType).step before x).1.hit = true ↔
      (∃ earlier ∈ past, earlier.key = x.key) ∧
        reuseDistance List.length content x.key (history past) ≤ capacity) ∧
    before.recency =
      (fitting List.length capacity (entriesOf content (order (history past)))).map Prod.fst := by
  obtain ⟨hpast, hlast⟩ := Machine.guarded_append _ hguard
  have hheld : HoldsLatest content capacity ([] ++ past)
      ((accesses content contentType).run (create capacity ttlSeconds) past).2 := by
    refine Machine.run_history _ ?_ (HoldsLatest.create _ _ _) past hpast
    intro earlier c y h hy
    exact (h.step contentType (hfits y.key) hy).2
  rw [List.nil_append] at hheld
  obtain ⟨hhit, -⟩ := hheld.step contentType (hfits x.key) hlast.1
  constructor
  · rw [hhit, mem_history]
  · rw [← hheld.holds.inv.keys_cached, hheld.cached]

/-- Contents of one, two and three bytes in four: the second access to the first key hits,
    since only three bytes have been accessed from the first one on. -/
theorem hit_iff_reuseDistance_small :
    let content : Bytes → Bytes := fun key => key.take 3
    let past : List Access := [⟨[3, 3, 3], 0, 1⟩, ⟨[1], 2, 3⟩, ⟨[2, 2], 4, 5⟩]
    let before := ((accesses content getMimeType).run (create 4 300) past).2
    (((accesses content getMimeType).step before ⟨[1], 6, 7⟩).1.hit = true ↔
      (∃ earlier ∈ past, earlier.key = [1]) ∧
        reuseDistance List.length content [1] (history past) ≤ 4) ∧
    before.recency =
      (fitting List.length 4 (entriesOf content (order (history past)))).map Prod.fst :=
  hit_iff_reuseDistance (fun key => key.take 3) getMimeType
    (fun key => (List.length_take_le 3 key).trans (by decide)) 300 _ ⟨[1], 6, 7⟩ (by decide)

end LRUCache

end VeloxServe
