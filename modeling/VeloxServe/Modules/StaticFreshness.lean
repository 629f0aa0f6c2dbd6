import VeloxServe.Middleware.CacheInvariant
import VeloxServe.Modules.StaticHandler

/-! # Files Served Through the Cache

    Runs of `handle` that share one cache. Each entry of the cache is the
    content a file had at an earlier call, put there when that call ended, so a
    response from the cache is as old as the time to live allows at most, and
    where the files do not change it is the response without a cache.
-/

namespace VeloxServe

open StdString Message

namespace StaticHandler

/-! ## Runs -/

/-- A call of `handle`, with the file system and the readings of the clock it meets. -/
structure FileCall where
  fs : FileSystem
  getTime : Time
  putTime : Time
  request : HttpRequest
  rootDir : Bytes
  indexFile : Bytes

def FileCall.handle (call : FileCall) (cache : Option LRUCache) : Handled :=
  StaticHandler.handle call.fs call.getTime call.putTime call.request call.rootDir call.indexFile
    cache

/-- The pathname the request stands for. -/
def FileCall.servedPath (call : FileCall) : Option Bytes :=
  StaticHandler.servedPath call.fs call.rootDir call.indexFile call.request.path

/-- The calls on a cache. -/
def sharing : LTS.Machine LRUCache FileCall HttpResponse where
  step := fun c call => ((call.handle (some c)).response, (call.handle (some c)).cache.getD c)

/-- The response to a call that comes after others. -/
def responseAfter (maxSizeBytes : Nat) (ttlSeconds : Int) (before : List FileCall)
    (call : FileCall) : HttpResponse :=
  (sharing.step (sharing.run (LRUCache.create maxSizeBytes ttlSeconds) before).2 call).1

/-- A response but for one header. -/
def withoutHeader (name : Bytes) (r : HttpResponse) : HttpResponse :=
  { r with headers := r.headers.erase name }

/-- The body of a response is what the file holds, or held at the end of an earlier
    call that is less than `ttl_seconds + 1` seconds ago. -/
structure CarriesFile (ttlSeconds : Int) (before : List FileCall) (call : FileCall)
    (fsPath : Bytes) (r : HttpResponse) : Prop where
  body : fileAt call.fs fsPath = some r.body ∨
    ∃ earlier ∈ before, fileAt earlier.fs fsPath = some r.body ∧
      call.getTime - earlier.putTime < (ttlSeconds + 1) * 1000000000
  contentType : r.headers.lookup (bytes "Content-Type") = some (getMimeType fsPath)
  contentLength : r.headers.lookup (bytes "Content-Length") = some (decimal r.body.length)

/-- The cache shows in a run neither by stale files nor, if they do not change, at all. -/
structure ServesFiles (maxSizeBytes : Nat) (ttlSeconds : Int) (calls : List FileCall) : Prop where
  fresh : ∀ before call after, calls = before ++ call :: after →
    (responseAfter maxSizeBytes ttlSeconds before call).statusCode = 200 →
      ∃ fsPath, call.servedPath = some fsPath ∧
        CarriesFile ttlSeconds before call fsPath
          (responseAfter maxSizeBytes ttlSeconds before call)
  transparent : ∀ fs, (∀ call ∈ calls, call.fs = fs) →
    ∀ before call after, calls = before ++ call :: after →
      withoutHeader (bytes "X-Cache") (responseAfter maxSizeBytes ttlSeconds before call) =
        withoutHeader (bytes "X-Cache") (call.handle none).response

/-! ## What the Cache Holds -/

/-- An entry comes from a call. -/
def FromCall (before : List FileCall) (key data contentType : Bytes) (created : Time) : Prop :=
  contentType = getMimeType key ∧
    ∃ earlier ∈ before, fileAt earlier.fs key = some data ∧ earlier.putTime = created

/-- What get and put keep, a call of the handler keeps. -/
theorem step_cache {Q : LRUCache → Prop} {call : FileCall}
    (hget : ∀ c fsPath, Q c → Q (c.get fsPath call.getTime).2)
    (hput : ∀ c fsPath data, Q c → fileAt call.fs fsPath = some data →
      Q (c.put fsPath data (getMimeType fsPath) call.putTime))
    {c : LRUCache} (h : Q c) : Q (sharing.step c call).2 := by
  have hall : ∀ c' ∈ (call.handle (some c)).cache, Q c' :=
    handle_cache hget hput fun c' hc' => Option.some.inj hc' ▸ h
  show Q ((call.handle (some c)).cache.getD c)
  cases hafter : (call.handle (some c)).cache with
  | none => exact h
  | some c' => exact hall c' hafter

theorem run_ttlSeconds (maxSizeBytes : Nat) (ttlSeconds : Int) (calls : List FileCall) :
    (sharing.run (LRUCache.create maxSizeBytes ttlSeconds) calls).2.ttlSeconds = ttlSeconds := by
  have hstep : ∀ (c : LRUCache) (call : FileCall), c.ttlSeconds = ttlSeconds →
      (sharing.step c call).2.ttlSeconds = ttlSeconds := by
    intro c call h
    apply step_cache (Q := fun c => c.ttlSeconds = ttlSeconds) _ _ h
    · intro c fsPath hc
      exact (c.call_settings ⟨call.getTime, .get fsPath⟩).2.trans hc
    · intro c fsPath data hc _
      exact (c.call_settings ⟨call.putTime, .put fsPath data (getMimeType fsPath)⟩).2.trans hc
  exact sharing.run_invariant hstep _ calls rfl

/-- **Run lemma**: the cache holds what files held at the calls so far. -/
theorem run_stores (maxSizeBytes : Nat) (ttlSeconds : Int) (calls : List FileCall) :
    (sharing.run (LRUCache.create maxSizeBytes ttlSeconds) calls).2.Stores (FromCall calls) := by
  have hstep : ∀ (c : LRUCache) (call : FileCall), c.Stores (FromCall calls) → call ∈ calls →
      (sharing.step c call).2.Stores (FromCall calls) := by
    intro c call hc hcall
    apply step_cache _ _ hc
    · exact fun c fsPath h => (h.get fsPath call.getTime).2
    · exact fun c fsPath data h hdata => h.put ⟨rfl, call, hcall, hdata, rfl⟩
  exact sharing.run_invariant_on hstep _ calls (LRUCache.Stores.create _ _) fun _ hcall => hcall

/-! ## The Responses -/

section

variable {fs : FileSystem} {getTime putTime : Time} {c : LRUCache}

/-- The three headers of a file response. -/
theorem fileResponse_headers (contentType xCache content : Bytes) :
    (fileResponse contentType xCache content).headers.lookup (bytes "Content-Type") =
        some contentType ∧
      (fileResponse contentType xCache content).headers.lookup (bytes "Content-Length") =
        some (decimal content.length) := by
  have htype : bytes "Content-Type" ≠ bytes "Content-Length" := by decide
  have htype' : bytes "Content-Type" ≠ bytes "X-Cache" := by decide
  have hlength : bytes "Content-Length" ≠ bytes "X-Cache" := by decide
  unfold fileResponse
  simp [HttpResponse.setHeader_headers, htype, htype', hlength]

/-- Hit and miss differ in one header. -/
theorem withoutHeader_fileResponse (contentType xCache xCache' content : Bytes) :
    withoutHeader (bytes "X-Cache") (fileResponse contentType xCache content) =
      withoutHeader (bytes "X-Cache") (fileResponse contentType xCache' content) := by
  unfold withoutHeader fileResponse
  simp only [HttpResponse.setHeader_headers, HttpResponse.setBody_headers, UnorderedMap.erase_set]
  rfl

/-- The file system alone decides what is served from it. -/
theorem serveFromDisk_response (fsPath : Bytes) (cache : Option LRUCache) :
    (serveFromDisk fs putTime fsPath cache).response =
      (serveFromDisk fs putTime fsPath none).response := by
  unfold serveFromDisk
  split
  · rfl
  · split <;> rfl

theorem serveFromDisk_ok {fsPath : Bytes}
    (h : (serveFromDisk fs putTime fsPath none).response.statusCode = 200) :
    ∃ content, fileAt fs fsPath = some content ∧
      (serveFromDisk fs putTime fsPath none).response =
        fileResponse (getMimeType fsPath) (bytes "MISS") content := by
  unfold serveFromDisk at h ⊢
  split at h
  · cases h
  · next hexists =>
    unfold fileAt
    rw [if_neg hexists, if_pos (by simpa using hexists)]
    cases hread : fs.readFile fsPath with
    | none =>
      rw [hread] at h
      cases h
    | some content => exact ⟨content, rfl, rfl⟩

theorem serveFromDisk_file {fsPath content : Bytes} (h : fileAt fs fsPath = some content) :
    (serveFromDisk fs putTime fsPath none).response =
      fileResponse (getMimeType fsPath) (bytes "MISS") content := by
  unfold fileAt at h
  split at h
  · next hexists =>
    unfold serveFromDisk
    rw [hexists, h]
    rfl
  · cases h

/-- The cache is asked first. -/
theorem serveFile_response (fsPath : Bytes) :
    (serveFile fs getTime putTime fsPath (some c)).response =
      match (c.get fsPath getTime).1 with
      | some cached => fileResponse cached.contentType (bytes "HIT") cached.data
      | none => (serveFromDisk fs putTime fsPath none).response := by
  unfold serveFile
  dsimp only
  generalize c.get fsPath getTime = r
  obtain ⟨_ | cached, c⟩ := r
  · exact serveFromDisk_response fsPath (some c)
  · rfl

/-- Where nothing is looked up the cache plays no part. -/
theorem handle_response (call : FileCall) :
    (∃ fsPath, call.servedPath = some fsPath ∧ ∀ cache, (call.handle cache).response =
      (serveFile call.fs call.getTime call.putTime fsPath cache).response) ∨
    (∃ r : HttpResponse, r.statusCode ≠ 200 ∧ ∀ cache, (call.handle cache).response = r) := by
  unfold FileCall.servedPath FileCall.handle StaticHandler.servedPath StaticHandler.handle
  dsimp only
  split
  · exact .inr ⟨_, (by decide : (403 : Int) ≠ 200), fun _ => rfl⟩
  · split
    · split
      · exact .inr ⟨_, (by decide : (301 : Int) ≠ 200), fun _ => rfl⟩
      · exact .inl ⟨_, rfl, fun _ => rfl⟩
    · exact .inl ⟨_, rfl, fun _ => rfl⟩

/-- An age in whole seconds is one second short of the exact one at most. -/
theorem lt_of_elapsedSeconds_le {now earlier : Time} {n : Int} (h : elapsedSeconds now earlier ≤ n) :
    now - earlier < (n + 1) * 1000000000 := by
  have hexact : now - earlier < (elapsedSeconds now earlier + 1) * 1000000000 :=
    Int.lt_tdiv_add_one_mul_self _ (by decide)
  have hbound : (elapsedSeconds now earlier + 1) * 1000000000 ≤ (n + 1) * 1000000000 :=
    Int.mul_le_mul_of_nonneg_right (Int.add_le_add_right h 1) (by decide)
  exact Int.lt_of_lt_of_le hexact hbound

variable {before : List FileCall} {call : FileCall}

/-- **Step lemma**: what is served with such a cache is in a file, or was not long ago. -/
theorem carriesFile_of_stores (hstores : c.Stores (FromCall before))
    (hok : (call.handle (some c)).response.statusCode = 200) :
    ∃ fsPath, call.servedPath = some fsPath ∧
      CarriesFile c.ttlSeconds before call fsPath (call.handle (some c)).response := by
  rcases handle_response call with ⟨fsPath, hpath, hserve⟩ | ⟨r, hr, hsame⟩
  · refine ⟨fsPath, hpath, ?_⟩
    rw [hserve, serveFile_response] at hok ⊢
    cases hget : (c.get fsPath call.getTime).1 with
    | some cached =>
      -- the entry was put by an earlier call and has not expired
      obtain ⟨⟨hmime, earlier, hmem, hdata, hcreated⟩, hage⟩ :=
        (hstores.get fsPath call.getTime).1 cached hget
      obtain ⟨htype, hlength⟩ := fileResponse_headers cached.contentType (bytes "HIT") cached.data
      refine ⟨.inr ⟨earlier, hmem, hdata, ?_⟩, htype.trans (congrArg some hmime), hlength⟩
      rw [hcreated]
      exact lt_of_elapsedSeconds_le hage
    | none =>
      rw [hget] at hok
      obtain ⟨content, hfile, hresponse⟩ := serveFromDisk_ok hok
      obtain ⟨htype, hlength⟩ := fileResponse_headers (getMimeType fsPath) (bytes "MISS") content
      dsimp only
      rw [hresponse]
      exact ⟨.inl hfile, htype, hlength⟩
  · rw [hsame] at hok
    exact absurd hok hr

/-- Files that have not changed are served from the cache as without it. -/
theorem response_of_stores (hstores : c.Stores (FromCall before))
    (hfs : ∀ earlier ∈ before, earlier.fs = call.fs) :
    withoutHeader (bytes "X-Cache") (call.handle (some c)).response =
      withoutHeader (bytes "X-Cache") (call.handle none).response := by
  rcases handle_response call with ⟨fsPath, -, hserve⟩ | ⟨r, -, hsame⟩
  · have hnone : (serveFile call.fs call.getTime call.putTime fsPath none).response =
        (serveFromDisk call.fs call.putTime fsPath none).response := rfl
    rw [hserve, hserve, serveFile_response, hnone]
    cases hget : (c.get fsPath call.getTime).1 with
    | some cached =>
      obtain ⟨⟨hmime, earlier, hmem, hdata, -⟩, -⟩ :=
        (hstores.get fsPath call.getTime).1 cached hget
      rw [hfs earlier hmem] at hdata
      rw [serveFromDisk_file hdata, ← hmime]
      exact withoutHeader_fileResponse _ _ _ _
    | none => rfl
  · rw [hsame, hsame]

end

/-- **What is served through a cache is what a file held shortly before.** -/
theorem run_servesFiles (maxSizeBytes : Nat) (ttlSeconds : Int) (calls : List FileCall) :
    ServesFiles maxSizeBytes ttlSeconds calls := by
  constructor
  · intro before call after _ hok
    have hserved := carriesFile_of_stores (run_stores maxSizeBytes ttlSeconds before) hok
    rw [run_ttlSeconds] at hserved
    exact hserved
  · intro fs hfs before call after hcalls
    have hcall : call.fs = fs := hfs call (by simp [hcalls])
    have hbefore : ∀ earlier ∈ before, earlier.fs = call.fs := fun earlier hmem =>
      (hfs earlier (by simp [hcalls, hmem])).trans hcall.symm
    exact response_of_stores (run_stores maxSizeBytes ttlSeconds before) hbefore

end StaticHandler

end VeloxServe
