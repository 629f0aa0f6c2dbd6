import VeloxServe.Middleware.CacheContents
import VeloxServe.Middleware.CacheInvariant

/-! # Cache History

    What a hit has to do with the calls made before it. The cache stores the
    data of the last `put` of a key that it did not refuse, with no removal
    since; `put` refuses data larger than the maximum, and then leaves the
    entry of the key, if there is one, as it is. So a hit returns what was put
    last exactly when that `put` was not refused. No assumption on sizes or on
    the clock is needed.
-/

namespace VeloxServe

open StdString

namespace CacheOp

/-- A `put` of the key. -/
def putsTo (key : Bytes) : CacheOp → Bool
  | .put k _ _ => k = key
  | _ => false

/-- A `put` of the key with data that fits into the maximum. -/
def accepted (maxSizeBytes : Nat) (key : Bytes) : CacheOp → Bool
  | .put k data _ => k = key ∧ data.length ≤ maxSizeBytes
  | _ => false

/-- A call after which the cache has no entry of the key. -/
def drops (key : Bytes) : CacheOp → Bool
  | .remove k => k = key
  | .clear => true
  | _ => false

end CacheOp

namespace LRUCache

variable {maxSizeBytes : Nat} {ttlSeconds : Int} {calls : List CacheCall} {key : Bytes}

/-- The last call that `reset` accepts is a `put` of these data at that time, and
    the key has not been dropped since. -/
structure PutBy (reset : CacheCall → Bool) (calls : List CacheCall) (key data contentType : Bytes)
    (created : Time) : Prop where
  last : LTS.last reset calls = some ⟨created, .put key data contentType⟩
  kept : ∀ x ∈ LTS.since reset calls, x.op.drops key = false

/-- The entry is the one of the last accepted `put` of its key. -/
def Stored (maxSizeBytes : Nat) (calls : List CacheCall) (key data contentType : Bytes)
    (created : Time) : Prop :=
  PutBy (fun x => x.op.accepted maxSizeBytes key) calls key data contentType created

/-- What a hit should return: the data of the last `put` of the key, which has
    not been dropped since and lies within the time to live. -/
def Latest (ttlSeconds : Int) (calls : List CacheCall) (key : Bytes) (now : Time)
    (e : CacheEntry) : Prop :=
  ∃ created, PutBy (fun x => x.op.putsTo key) calls key e.data e.contentType created ∧
    elapsedSeconds now created ≤ ttlSeconds

/-! ## Steps -/

theorem accepted_putsTo {x : CacheCall} (h : x.op.accepted maxSizeBytes key = true) :
    x.op.putsTo key = true := by
  rcases x with ⟨now, _ | ⟨k, data, contentType⟩ | _ | _⟩
  · cases h
  · have hboth : k = key ∧ data.length ≤ maxSizeBytes := by simpa [CacheOp.accepted] using h
    simpa [CacheOp.putsTo] using hboth.1
  · cases h
  · cases h

/-- Calls that neither accept a `put` of the key nor drop it change nothing. -/
theorem Stored.snoc {data contentType : Bytes} {created : Time} {x : CacheCall}
    (h : Stored maxSizeBytes calls key data contentType created)
    (hput : x.op.accepted maxSizeBytes key = false) (hdrop : x.op.drops key = false) :
    Stored maxSizeBytes (calls ++ [x]) key data contentType created := by
  constructor
  · rw [LTS.last_snoc, if_neg (by simp [hput])]
    exact h.last
  · rw [LTS.since_snoc, if_neg (by simp [hput])]
    intro y hy
    rcases List.mem_cons.mp hy with rfl | hy
    · exact hdrop
    · exact h.kept y hy

/-- An accepted `put` is the last one. -/
theorem Stored.put {data contentType : Bytes} {now : Time} (hfits : data.length ≤ maxSizeBytes) :
    Stored maxSizeBytes (calls ++ [⟨now, .put key data contentType⟩]) key data contentType now := by
  have haccepted : (CacheOp.put key data contentType).accepted maxSizeBytes key = true := by
    simp [CacheOp.accepted, hfits]
  constructor
  · rw [LTS.last_snoc, if_pos haccepted]
  · rw [LTS.since_snoc, if_pos haccepted]
    intro y hy
    cases hy

/-- **Step lemma**: every entry stays that of the last accepted `put` of its key. -/
theorem Stores.call_stored {c : LRUCache} (hmax : c.maxSizeBytes = maxSizeBytes)
    (h : c.Stores (Stored maxSizeBytes calls)) (x : CacheCall) :
    (c.call x).2.Stores (Stored maxSizeBytes (calls ++ [x])) := by
  rcases x with ⟨now, key | ⟨key, data, contentType⟩ | key | _⟩
  · exact (h.get key now).2.mono fun k d ct t hk => hk.snoc rfl rfl
  · by_cases hfits : data.length ≤ c.maxSizeBytes
    · refine h.overwrite hfits (fun k d ct t hne hk => hk.snoc ?_ rfl) (Stored.put (hmax ▸ hfits))
      simp [CacheOp.accepted, Ne.symm hne]
    · -- a refused `put` leaves the entries, also that of its own key
      have hsame : (c.call ⟨now, .put key data contentType⟩).2 = c :=
        put_tooLarge (Nat.lt_of_not_le hfits) key contentType now
      rw [hsame]
      refine h.mono fun k d ct t hk => hk.snoc ?_ rfl
      rw [hmax] at hfits
      simp [CacheOp.accepted, hfits]
  · refine (h.dropEntry_ne key).mono fun k d ct t hk => hk.2.snoc rfl ?_
    simp [CacheOp.drops, Ne.symm hk.1]
  · intro k e it hlook
    cases hlook

/-- **Run lemma**: so it is after any calls. -/
theorem run_stored (maxSizeBytes : Nat) (ttlSeconds : Int) (calls : List CacheCall) :
    (machine.run (create maxSizeBytes ttlSeconds) calls).2.Stores (Stored maxSizeBytes calls) ∧
      (machine.run (create maxSizeBytes ttlSeconds) calls).2.maxSizeBytes = maxSizeBytes ∧
      (machine.run (create maxSizeBytes ttlSeconds) calls).2.ttlSeconds = ttlSeconds := by
  have hstep : ∀ (past : List CacheCall) (c : LRUCache) (x : CacheCall),
      (c.Stores (Stored maxSizeBytes past) ∧ c.maxSizeBytes = maxSizeBytes ∧
        c.ttlSeconds = ttlSeconds) → True →
      ((machine.step c x).2.Stores (Stored maxSizeBytes (past ++ [x])) ∧
        (machine.step c x).2.maxSizeBytes = maxSizeBytes ∧
        (machine.step c x).2.ttlSeconds = ttlSeconds) := by
    intro past c x ⟨hstores, hmax, httl⟩ _
    obtain ⟨hmax', httl'⟩ := call_settings c x
    exact ⟨hstores.call_stored hmax x, hmax'.trans hmax, httl'.trans httl⟩
  have hinit : (create maxSizeBytes ttlSeconds).Stores (Stored maxSizeBytes []) :=
    Stores.create _ _
  exact machine.run_history hstep ⟨hinit, rfl, rfl⟩ calls
    (machine.guarded_of_forall (fun _ _ => trivial) _ _)

/-! ## Hits -/

/-- There is an entry of the key that is not too old. -/
def Live (key : Bytes) (now : Time) (c : LRUCache) : Prop :=
  ∃ e it, c.cache.lookup key = some (e, it) ∧ elapsedSeconds now e.created ≤ c.ttlSeconds

theorem live_iff {c : LRUCache} {now : Time} :
    c.Live key now ↔ ∃ e, (c.get key now).1 = some e := by
  unfold LRUCache.get Live
  rcases hlook : c.cache.lookup key with _ | ⟨e, it⟩
  · simp
  · by_cases hold : elapsedSeconds now e.created > c.ttlSeconds
    · simp only [if_pos hold]
      constructor
      · intro ⟨e', it', heq, hlive⟩
        obtain ⟨rfl, -⟩ := Prod.mk.inj (Option.some.inj heq)
        omega
      · intro ⟨_, hnone⟩
        cases hnone
    · simp only [if_neg hold]
      exact ⟨fun _ => ⟨_, rfl⟩, fun _ => ⟨e, it, rfl, Int.not_lt.mp hold⟩⟩

/-- The last `put` of the key was not refused. -/
def LastPutFits (maxSizeBytes : Nat) (calls : List CacheCall) (key : Bytes) : Prop :=
  ∀ created data contentType,
    LTS.last (fun x => x.op.putsTo key) calls = some ⟨created, .put key data contentType⟩ →
      data.length ≤ maxSizeBytes

theorem putsTo_iff {op : CacheOp} :
    op.putsTo key = true ↔ ∃ data contentType, op = .put key data contentType := by
  rcases op with _ | ⟨k, data, contentType⟩ | _ | _ <;> simp [CacheOp.putsTo]

/-- What is stored is what was put last when that was not refused, and only then. -/
theorem Stored.latest_iff {e : CacheEntry} {now : Time}
    (h : Stored maxSizeBytes calls key e.data e.contentType e.created)
    (hlive : elapsedSeconds now e.created ≤ ttlSeconds) :
    Latest ttlSeconds calls key now e ↔ LastPutFits maxSizeBytes calls key := by
  have hfits : e.data.length ≤ maxSizeBytes := by
    have haccepted := LTS.of_last h.last
    simpa [CacheOp.accepted] using haccepted
  constructor
  · intro ⟨created, hlatest, _⟩ created' data contentType hlast
    have heq := hlatest.last
    rw [hlast] at heq
    injection heq with heq
    injection heq with _ heq
    injection heq with _ hdata
    exact hdata ▸ hfits
  · intro hlastFits
    have hsome : ∃ x, LTS.last (fun x : CacheCall => x.op.putsTo key) calls = some x :=
      LTS.exists_last (fun _ hx => accepted_putsTo hx) h.last
    obtain ⟨⟨created, op⟩, hlast⟩ := hsome
    have hputs := LTS.of_last hlast
    obtain ⟨data, contentType, rfl⟩ := putsTo_iff.mp hputs
    have haccepted : (CacheOp.put key data contentType).accepted maxSizeBytes key = true := by
      simpa [CacheOp.accepted] using hlastFits _ _ _ hlast
    -- both find the same call, and the same calls after it
    obtain ⟨hsame, hsince⟩ :=
      LTS.last_of_imp (fun _ hx => accepted_putsTo hx) hlast haccepted
    refine ⟨e.created, ⟨?_, ?_⟩, hlive⟩
    · rw [hlast, ← hsame]
      exact h.last
    · rw [← hsince]
      exact h.kept

/-- **A hit** returns what was put last exactly when that was not refused. -/
theorem get_latest_iff {e : CacheEntry} {now : Time}
    (hhit : ((machine.run (create maxSizeBytes ttlSeconds) calls).2.get key now).1 = some e) :
    Latest ttlSeconds calls key now e ↔ LastPutFits maxSizeBytes calls key := by
  obtain ⟨hstores, _, httl⟩ := run_stored maxSizeBytes ttlSeconds calls
  obtain ⟨hstored, hlive⟩ := (hstores.get key now).1 e hhit
  rw [httl] at hlive
  exact hstored.latest_iff hlive

/-- Every `get` of the calls that hits returns what was put last. -/
def HitsLatest (maxSizeBytes : Nat) (ttlSeconds : Int) (calls : List CacheCall) : Prop :=
  ∀ past now key future e, calls = past ++ ⟨now, .get key⟩ :: future →
    ((machine.run (create maxSizeBytes ttlSeconds) past).2.get key now).1 = some e →
    Latest ttlSeconds past key now e

/-- **Hits return the latest value** exactly when no `get` finds a live entry of a
    key whose last `put` was larger than the cache. -/
theorem hitsLatest_iff (maxSizeBytes : Nat) (ttlSeconds : Int) (calls : List CacheCall) :
    HitsLatest maxSizeBytes ttlSeconds calls ↔
      ∀ past now key future, calls = past ++ ⟨now, .get key⟩ :: future →
        (machine.run (create maxSizeBytes ttlSeconds) past).2.Live key now →
        LastPutFits maxSizeBytes past key := by
  constructor
  · intro h past now key future hcalls hlive
    obtain ⟨e, hhit⟩ := live_iff.mp hlive
    exact (get_latest_iff hhit).mp (h past now key future e hcalls hhit)
  · intro h past now key future e hcalls hhit
    exact (get_latest_iff hhit).mpr (h past now key future hcalls (live_iff.mpr ⟨e, hhit⟩))

/-- Four bytes at most, and five bytes for the key it holds: they are refused, and
    the hit returns the byte put before. -/
theorem not_hitsLatest_refused :
    ¬ HitsLatest 4 300 [⟨0, .put [1] [7] []⟩, ⟨0, .put [1] [1, 2, 3, 4, 5] []⟩, ⟨0, .get [1]⟩] := by
  intro h
  obtain ⟨created, hlatest, _⟩ :=
    h [⟨0, .put [1] [7] []⟩, ⟨0, .put [1] [1, 2, 3, 4, 5] []⟩] 0 [1] [] _ rfl rfl
  have hlast := hlatest.last
  injection hlast with hlast
  injection hlast with _ hlast
  injection hlast with _ hdata
  exact absurd hdata (by decide)

end LRUCache

end VeloxServe
