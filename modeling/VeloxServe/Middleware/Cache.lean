import VeloxServe.Framework.StdString
import VeloxServe.Framework.System
import VeloxServe.Framework.UnorderedMap

/-! # LRU Cache

    `include/middleware/cache.h` and `src/middleware/cache.cpp`. The recency
    list is a `std::list` of nodes and the map stores, beside each entry, an
    iterator to the node of its key: a node is identified here by a number, and
    erasing through an iterator removes the node with that number. Sizes are
    `size_t`, so their arithmetic is modulo `2^64`.

    `fault` is not in the source. It records that some arithmetic on
    `current_size_` wrapped, or that a list node was erased through an iterator
    that does not point into the list.
-/

namespace VeloxServe

open StdString

/-- A `steady_clock` time point, in nanoseconds. -/
abbrev Time : Type := Int

/-- `duration_cast<seconds>(later - earlier).count()`. -/
def elapsedSeconds (later earlier : Time) : Int := (later - earlier).tdiv 1000000000

/-- The number of values of `size_t`. -/
def sizeRange : Nat := 2 ^ 64

structure CacheEntry where
  data : Bytes
  contentType : Bytes
  created : Time
  lastAccessed : Time
  accessCount : Nat := 0
  deriving DecidableEq

/-- A node of `lru_list_`. -/
structure ListNode where
  id : Nat
  key : Bytes
  deriving DecidableEq

structure LRUCache where
  /-- Most recently used key in front. -/
  lruList : List ListNode := []
  /-- The entries, with the list position of their key. -/
  cache : UnorderedMap Bytes (CacheEntry × Nat) := ∅
  maxSizeBytes : Nat
  ttlSeconds : Int
  currentSize : Nat := 0
  hits : Nat := 0
  misses : Nat := 0
  /-- The identity of the next list node to be allocated. -/
  nextNode : Nat := 0
  fault : Bool := false

namespace LRUCache

/-! ## Primitive Steps -/

/-- `current_size_ -= n`. -/
def subSize (n : Nat) (c : LRUCache) : LRUCache :=
  { c with
    currentSize := (c.currentSize + (sizeRange - n % sizeRange)) % sizeRange
    fault := c.fault || decide (c.currentSize < n) }

/-- `current_size_ += n`. -/
def addSize (n : Nat) (c : LRUCache) : LRUCache :=
  { c with
    currentSize := (c.currentSize + n) % sizeRange
    fault := c.fault || decide (sizeRange ≤ c.currentSize + n) }

/-- `lru_list_.erase(it)`. -/
def eraseNode (it : Nat) (c : LRUCache) : LRUCache :=
  { c with
    lruList := c.lruList.filter fun n => n.id ≠ it
    fault := c.fault || !c.lruList.any fun n => n.id = it }

/-- `lru_list_.push_front(key)`; the new node is the one before `nextNode`. -/
def pushFront (key : Bytes) (c : LRUCache) : LRUCache :=
  { c with lruList := ⟨c.nextNode, key⟩ :: c.lruList, nextNode := c.nextNode + 1 }

/-- Take an entry out of all three structures. -/
def unlink (key : Bytes) (entry : CacheEntry) (it : Nat) (c : LRUCache) : LRUCache :=
  let c := (c.subSize entry.data.length).eraseNode it
  { c with cache := c.cache.erase key }

/-! ## Operations -/

def get (key : Bytes) (now : Time) (c : LRUCache) : Option CacheEntry × LRUCache :=
  match c.cache.lookup key with
  | none => (none, { c with misses := c.misses + 1 })
  | some (entry, it) =>
    if elapsedSeconds now entry.created > c.ttlSeconds then
      -- expired
      let c := c.unlink key entry it
      (none, { c with misses := c.misses + 1 })
    else
      let c := { c with hits := c.hits + 1 }
      let c := (c.eraseNode it).pushFront key
      let entry := { entry with lastAccessed := now, accessCount := entry.accessCount + 1 }
      (some entry, { c with cache := UnorderedMap.set key (entry, c.nextNode - 1) c.cache })

/-- Whether `current_size_ + size > max_size_bytes_`, as `size_t` arithmetic has it. -/
def exceeds (size : Nat) (c : LRUCache) : Bool :=
  decide (c.maxSizeBytes < (c.currentSize + size) % sizeRange)

/-- One iteration of the eviction loop: drop the least recently used key. -/
def evictBack (back : ListNode) (c : LRUCache) : LRUCache :=
  let c := match c.cache.lookup back.key with
    | some (entry, _) =>
      let c := c.subSize entry.data.length
      { c with cache := c.cache.erase back.key }
    | none => c
  { c with lruList := c.lruList.dropLast }

/-- `while (!lru_list_.empty() && current_size_ + size > max_size_bytes_)`. Every
    iteration drops a node, so the length of the list is enough fuel. -/
def evictLoop (size : Nat) : Nat → LRUCache → LRUCache
  | 0, c => c
  | fuel + 1, c =>
    match c.lruList.getLast? with
    | none => c
    | some back =>
      let c := { c with fault := c.fault || decide (sizeRange ≤ c.currentSize + size) }
      if c.exceeds size then evictLoop size fuel (c.evictBack back) else c

/-- Take out the entry of `key`, if there is one: the lines `put` and `remove` share. -/
def dropEntry (key : Bytes) (c : LRUCache) : LRUCache :=
  match c.cache.lookup key with
  | some (entry, it) => c.unlink key entry it
  | none => c

def put (key data contentType : Bytes) (now : Time) (c : LRUCache) : LRUCache :=
  if data.length > c.maxSizeBytes then c
  else
    let c := c.dropEntry key
    let c := c.evictLoop data.length c.lruList.length
    let c := c.pushFront key
    let entry : CacheEntry :=
      { data := data, contentType := contentType, created := now, lastAccessed := now }
    let c := { c with cache := UnorderedMap.set key (entry, c.nextNode - 1) c.cache }
    c.addSize data.length

def remove (key : Bytes) (c : LRUCache) : LRUCache := c.dropEntry key

def clear (c : LRUCache) : LRUCache :=
  { c with lruList := [], cache := ∅, currentSize := 0 }

end LRUCache

/-! ## Runs -/

inductive CacheOp where
  | get (key : Bytes)
  | put (key data contentType : Bytes)
  | remove (key : Bytes)
  | clear
  deriving DecidableEq

/-- A call, with the reading of the clock it makes. -/
structure CacheCall where
  now : Time
  op : CacheOp
  deriving DecidableEq

/-- What `get_stats` reports. -/
structure CacheStats where
  hits : Nat
  misses : Nat
  entries : Nat
  memory : Nat
  deriving DecidableEq

namespace LRUCache

def getStats (c : LRUCache) : CacheStats where
  hits := c.hits
  misses := c.misses
  entries := c.cache.entries.length
  memory := c.currentSize

/-- The constructor: an empty cache. -/
def create (maxSizeBytes : Nat) (ttlSeconds : Int) : LRUCache where
  maxSizeBytes := maxSizeBytes
  ttlSeconds := ttlSeconds

/-- One call; only `get` returns something. -/
def call (c : LRUCache) (x : CacheCall) : Option CacheEntry × LRUCache :=
  match x.op with
  | .get key => c.get key x.now
  | .put key data contentType => (none, c.put key data contentType x.now)
  | .remove key => (none, c.remove key)
  | .clear => (none, c.clear)

/-- The cache as a machine over its calls. -/
def machine : LTS.Machine LRUCache CacheCall (Option CacheEntry) := ⟨call⟩

end LRUCache

end VeloxServe
