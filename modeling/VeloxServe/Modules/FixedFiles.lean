import VeloxServe.Modules.StaticFreshness
import VeloxServe.Modules.StaticHeaders

/-! # Serving Files That Do Not Change

    While the file system stays as it is, every entry of the cache is a file as
    it is on disk, and the response to a path is decided by the file system but
    for the `X-Cache` line: a file, a redirect, or one of three failures.
-/

namespace VeloxServe

open StdString

namespace StaticHandler

/-- Every entry is a file of the file system. -/
def Mirrors (fs : FileSystem) (c : LRUCache) : Prop :=
  c.Contains fun key data contentType =>
    contentType = getMimeType key ∧ fileAt fs key = some data

/-- The content of the file a request path stands for. -/
def servedFile (fs : FileSystem) (rootDir indexFile path : Bytes) : Option Bytes :=
  (servedPath fs rootDir indexFile path).bind (fileAt fs)

/-- The status of the response when there is no file to serve, nor a redirect. -/
def failure (fs : FileSystem) (rootDir indexFile path : Bytes) : Option Int :=
  if sanitizePath path = [] then some 403
  else (servedPath fs rootDir indexFile path).bind fun fsPath =>
    if !fs.fileExists fsPath then some 404
    else if fs.readFile fsPath = none then some 500
    else none

/-- The response for such a status. -/
def failureResponse (status : Int) : HttpResponse :=
  if status = 403 then HttpResponse.forbidden (bytes "403 Forbidden — Path traversal blocked")
  else if status = 500 then HttpResponse.internalError (bytes "500 Internal Server Error")
  else HttpResponse.notFound []

variable {fs : FileSystem} {getTime putTime : Time} {request : HttpRequest}
  {rootDir indexFile : Bytes} {c : LRUCache}

/-! ## The Cache -/

theorem mirrors_create (fs : FileSystem) (maxSizeBytes : Nat) (ttlSeconds : Int) :
    Mirrors fs (LRUCache.create maxSizeBytes ttlSeconds) :=
  LRUCache.Contains.create _ _

theorem Mirrors.handle (h : Mirrors fs c) :
    Mirrors fs ((handle fs getTime putTime request rootDir indexFile (some c)).cache.getD c) := by
  have hcache : ∀ c' ∈ some c, Mirrors fs c' := fun c' hc' => Option.some.inj hc' ▸ h
  have hafter : ∀ c' ∈ (StaticHandler.handle fs getTime putTime request rootDir indexFile
      (some c)).cache, Mirrors fs c' := by
    refine handle_cache (fun c' fsPath hc' => (hc'.get fsPath getTime).2) ?_ hcache
    intro c' fsPath data hc' hdata
    exact LRUCache.Stores.put (P := fun key data contentType _ =>
      contentType = getMimeType key ∧ fileAt fs key = some data) hc' ⟨rfl, hdata⟩
  cases hleft : (StaticHandler.handle fs getTime putTime request rootDir indexFile (some c)).cache with
  | none => exact h
  | some c' => exact hafter c' hleft

/-- A hit is on a file. -/
theorem Mirrors.hit (h : Mirrors fs c) {fsPath : Bytes} {cached : CacheEntry}
    (hget : (c.get fsPath getTime).1 = some cached) :
    cached.contentType = getMimeType fsPath ∧ fileAt fs fsPath = some cached.data :=
  (LRUCache.Contains.get h fsPath getTime).1 cached hget

/-- The cache makes no difference to what is behind a pathname. -/
theorem Mirrors.fileContent (h : Mirrors fs c) (fsPath : Bytes) :
    fileContent fs getTime (some c) fsPath = fileAt fs fsPath := by
  unfold StaticHandler.fileContent
  rw [Option.bind_some]
  cases hget : (c.get fsPath getTime).1 with
  | none => rfl
  | some cached => exact (h.hit hget).2.symm

theorem Mirrors.servedContent (h : Mirrors fs c) (path : Bytes) :
    servedContent fs getTime rootDir indexFile (some c) path =
      servedFile fs rootDir indexFile path := by
  unfold StaticHandler.servedContent servedFile
  congr 1
  funext fsPath
  exact h.fileContent fsPath

/-! ## The Responses -/

theorem handle_of_servedPath {fsPath : Bytes}
    (h : servedPath fs rootDir indexFile request.path = some fsPath) (cache : Option LRUCache) :
    (handle fs getTime putTime request rootDir indexFile cache).response =
      (serveFile fs getTime putTime fsPath cache).response := by
  unfold servedPath at h
  unfold StaticHandler.handle
  dsimp only at h ⊢
  split at h
  · cases h
  · next hsafe =>
    rw [if_neg hsafe]
    split at h
    · next hdir =>
      rw [if_pos hdir]
      split at h
      · cases h
      · next hslash =>
        rw [if_neg hslash, ← Option.some.inj h]
    · next hdir =>
      rw [if_neg hdir, ← Option.some.inj h]

/-- A redirect stands for no file. -/
theorem Redirects.servedPath_eq {path : Bytes} (h : Redirects fs rootDir path) :
    servedPath fs rootDir indexFile path = none := by
  obtain ⟨hsafe, hdir, hlast⟩ := h
  unfold servedPath
  rw [if_neg hsafe, if_pos hdir, if_pos hlast]

theorem Redirects.failure_eq {path : Bytes} (h : Redirects fs rootDir path) :
    failure fs rootDir indexFile path = none := by
  unfold failure
  rw [if_neg h.1, h.servedPath_eq]
  rfl

/-- **A file** is served with its own length, wherever its content came from. -/
theorem Mirrors.handle_served (h : Mirrors fs c) {fsPath content : Bytes}
    (hpath : servedPath fs rootDir indexFile request.path = some fsPath)
    (hfile : fileAt fs fsPath = some content) :
    ∃ xCache, (xCache = bytes "HIT" ∨ xCache = bytes "MISS") ∧
      (StaticHandler.handle fs getTime putTime request rootDir indexFile (some c)).response =
        fileResponse (getMimeType fsPath) xCache content := by
  rw [handle_of_servedPath hpath, serveFile_response]
  cases hget : (c.get fsPath getTime).1 with
  | none => exact ⟨_, .inr rfl, serveFromDisk_file hfile⟩
  | some cached =>
    obtain ⟨hmime, hdata⟩ := h.hit hget
    rw [hfile] at hdata
    obtain rfl := Option.some.inj hdata
    exact ⟨_, .inl rfl, by rw [← hmime]⟩

/-- What is neither a failure nor a redirect is a file. -/
theorem exists_served {path : Bytes} (hfailure : failure fs rootDir indexFile path = none)
    (hredirects : ¬ Redirects fs rootDir path) :
    ∃ fsPath content, servedPath fs rootDir indexFile path = some fsPath ∧
      fileAt fs fsPath = some content := by
  unfold failure at hfailure
  split at hfailure
  · cases hfailure
  · next hsafe =>
    cases hpath : servedPath fs rootDir indexFile path with
    | none =>
      -- a safe path without a pathname is a directory without its slash
      unfold servedPath at hpath
      rw [if_neg hsafe] at hpath
      split at hpath
      · next hdir =>
        split at hpath
        · next hlast => exact absurd ⟨hsafe, hdir, hlast⟩ hredirects
        · cases hpath
      · cases hpath
    | some fsPath =>
      rw [hpath, Option.bind_some] at hfailure
      split at hfailure
      · cases hfailure
      · next hexists =>
        split at hfailure
        · cases hfailure
        · next hread =>
          obtain ⟨content, hcontent⟩ := Option.ne_none_iff_exists'.mp hread
          refine ⟨fsPath, content, rfl, ?_⟩
          unfold fileAt
          rw [if_pos (by simpa using hexists), hcontent]

/-- **A failure** is answered by the response for its status. -/
theorem Mirrors.handle_failure (h : Mirrors fs c) {status : Int}
    (hfailure : failure fs rootDir indexFile request.path = some status) :
    (StaticHandler.handle fs getTime putTime request rootDir indexFile (some c)).response =
      failureResponse status := by
  unfold failure at hfailure
  split at hfailure
  · next hsafe =>
    obtain rfl := Option.some.inj hfailure
    unfold StaticHandler.handle
    dsimp only
    rw [if_pos hsafe]
    rfl
  · cases hpath : servedPath fs rootDir indexFile request.path with
    | none =>
      rw [hpath] at hfailure
      cases hfailure
    | some fsPath =>
      rw [hpath, Option.bind_some] at hfailure
      rw [handle_of_servedPath hpath, serveFile_response]
      -- the cache has nothing that is not on disk
      have hmiss : fileAt fs fsPath = none → (c.get fsPath getTime).1 = none := by
        intro hnone
        cases hget : (c.get fsPath getTime).1 with
        | none => rfl
        | some cached =>
          have hdata := (h.hit hget).2
          rw [hnone] at hdata
          cases hdata
      split at hfailure
      · next hexists =>
        obtain rfl := Option.some.inj hfailure
        have hnone : fileAt fs fsPath = none := by
          unfold fileAt
          rw [if_neg (by simpa using hexists)]
        rw [hmiss hnone]
        unfold serveFromDisk
        dsimp only
        rw [if_pos hexists]
        rfl
      · next hexists =>
        split at hfailure
        · next hread =>
          obtain rfl := Option.some.inj hfailure
          have hnone : fileAt fs fsPath = none := by
            unfold fileAt
            rw [if_pos (by simpa using hexists), hread]
          rw [hmiss hnone]
          unfold serveFromDisk
          dsimp only
          rw [if_neg hexists, hread]
          rfl
        · cases hfailure

/-- The failures there are. -/
theorem failure_cases {path : Bytes} {status : Int}
    (h : failure fs rootDir indexFile path = some status) :
    status = 403 ∨ status = 404 ∨ status = 500 := by
  unfold failure at h
  split at h
  · exact .inl (Option.some.inj h).symm
  · obtain ⟨fsPath, -, h⟩ := Option.bind_eq_some_iff.mp h
    split at h
    · exact .inr (.inl (Option.some.inj h).symm)
    · split at h
      · exact .inr (.inr (Option.some.inj h).symm)
      · cases h

end StaticHandler

end VeloxServe
