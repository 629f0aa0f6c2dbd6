import VeloxServe.Framework.LexicalPath
import VeloxServe.Http.HttpResponse
import VeloxServe.Http.MimeTypes
import VeloxServe.Middleware.CacheContents

/-! # Static File Handler

    `src/modules/static_handler.cpp`: a request path is normalised, joined to
    the root directory, and served from the cache or from the file system. The
    file system is an argument; `stat` and `open` read a pathname as a C string.

    Beside the response, `handle` returns the pathnames it hands to the
    operating system, in order.
-/

namespace VeloxServe

open StdString Message LexicalPath

/-! ## The File System -/

inductive FileKind where
  | directory
  | regular
  | other
  deriving DecidableEq

/-- The file system during one call. -/
structure FileSystem where
  /-- `stat`, when it succeeds. -/
  stat : Bytes → Option FileKind
  /-- The content of a file that can be opened. -/
  content : Bytes → Option Bytes

namespace FileSystem

def isDirectory (fs : FileSystem) (path : Bytes) : Bool :=
  fs.stat (cString path) = some .directory

def fileExists (fs : FileSystem) (path : Bytes) : Bool :=
  fs.stat (cString path) = some .regular

def readFile (fs : FileSystem) (filepath : Bytes) : Option Bytes :=
  fs.content (cString filepath)

end FileSystem

namespace StaticHandler

/-! ## Path Normalisation -/

/-- The segment loop of `sanitize_path`; `none` when it goes above the root. -/
def sanitizeLoop : List Bytes → Int → List Bytes → Option (List Bytes)
  | [], _, parts => some parts
  | segment :: segments, depth, parts =>
    if segment = [] ∨ segment = bytes "." then sanitizeLoop segments depth parts
    else if segment = bytes ".." then
      if depth - 1 < 0 then none
      else sanitizeLoop segments (depth - 1) parts.dropLast
    else sanitizeLoop segments (depth + 1) (parts ++ [segment])

/-- The clean path, or the empty string if the path is blocked. -/
def sanitizePath (requestPath : Bytes) : Bytes :=
  match sanitizeLoop (getlines 47 requestPath) 0 [] with
  | none => []
  | some parts => 47 :: [47].intercalate parts

/-! ## Serving a File -/

structure Handled where
  response : HttpResponse
  /-- The cache afterwards, when there is one. -/
  cache : Option LRUCache
  /-- The pathnames handed to `stat` and `ifstream`. -/
  pathnames : List Bytes

/-- A 200 response with a file as its body. -/
def fileResponse (contentType xCache content : Bytes) : HttpResponse :=
  ({ statusCode := 200, statusText := bytes "OK" } : HttpResponse)
    |>.setHeader (bytes "Content-Type") contentType
    |>.setHeader (bytes "Content-Length") (decimal content.length)
    |>.setHeader (bytes "X-Cache") xCache
    |>.setBody content

/-- Steps 5 to 7 of `handle`: the file is not in the cache. -/
def serveFromDisk (fs : FileSystem) (putTime : Time) (fsPath : Bytes) (cache : Option LRUCache) :
    Handled :=
  if !fs.fileExists fsPath then
    { response := HttpResponse.notFound [], cache := cache, pathnames := [fsPath] }
  else match fs.readFile fsPath with
    | none =>
      { response := HttpResponse.internalError (bytes "500 Internal Server Error")
        cache := cache
        pathnames := [fsPath, fsPath] }
    | some content =>
      let mime := getMimeType fsPath
      { response := fileResponse mime (bytes "MISS") content
        cache := cache.map fun c => c.put fsPath content mime putTime
        pathnames := [fsPath, fsPath] }

/-- Steps 4 to 7 of `handle`. -/
def serveFile (fs : FileSystem) (getTime putTime : Time) (fsPath : Bytes)
    (cache : Option LRUCache) : Handled :=
  match cache with
  | none => serveFromDisk fs putTime fsPath none
  | some c =>
    match c.get fsPath getTime with
    | (some cached, c) =>
      { response := fileResponse cached.contentType (bytes "HIT") cached.data
        cache := some c
        pathnames := [] }
    | (none, c) => serveFromDisk fs putTime fsPath (some c)

/-- `handle`, with the file system and the clock readings of the call. -/
def handle (fs : FileSystem) (getTime putTime : Time) (request : HttpRequest)
    (rootDir indexFile : Bytes) (cache : Option LRUCache) : Handled :=
  let safePath := sanitizePath request.path
  if safePath = [] then
    { response := HttpResponse.forbidden (bytes "403 Forbidden — Path traversal blocked")
      cache := cache
      pathnames := [] }
  else
    let fsPath := rootDir ++ safePath
    if fs.isDirectory fsPath then
      -- a path that does not end with / is redirected
      if request.path.getLast? ≠ some 47 then
        { response := HttpResponse.redirect (request.path ++ bytes "/")
          cache := cache
          pathnames := [fsPath] }
      else
        let served := serveFile fs getTime putTime (fsPath ++ bytes "/" ++ indexFile) cache
        { served with pathnames := fsPath :: served.pathnames }
    else
      let served := serveFile fs getTime putTime fsPath cache
      { served with pathnames := fsPath :: served.pathnames }

/-! ## What Is Served -/

/-- The pathname a request path stands for, unless it is blocked or redirected. -/
def servedPath (fs : FileSystem) (rootDir indexFile path : Bytes) : Option Bytes :=
  let safePath := sanitizePath path
  if safePath = [] then none
  else if fs.isDirectory (rootDir ++ safePath) then
    if path.getLast? ≠ some 47 then none
    else some (rootDir ++ safePath ++ bytes "/" ++ indexFile)
  else some (rootDir ++ safePath)

/-- The data behind a pathname: the cache's, or else the file's. -/
def fileContent (fs : FileSystem) (getTime : Time) (cache : Option LRUCache) (fsPath : Bytes) :
    Option Bytes :=
  match cache.bind fun c => (c.get fsPath getTime).1 with
  | some cached => some cached.data
  | none => if fs.fileExists fsPath then fs.readFile fsPath else none

/-- What is served for a request path, if anything is. -/
def servedContent (fs : FileSystem) (getTime : Time) (rootDir indexFile : Bytes)
    (cache : Option LRUCache) (path : Bytes) : Option Bytes :=
  (servedPath fs rootDir indexFile path).bind (fileContent fs getTime cache)

/-- A response with a file, or one with another status. -/
def Serves (content : Option Bytes) (r : HttpResponse) : Prop :=
  match content with
  | some data => r.statusCode = 200 ∧ r.body = data
  | none => r.statusCode ≠ 200

theorem serveFromDisk_serves (fs : FileSystem) (putTime : Time) (fsPath : Bytes)
    (cache : Option LRUCache) :
    Serves (if fs.fileExists fsPath then fs.readFile fsPath else none)
      (serveFromDisk fs putTime fsPath cache).response := by
  unfold serveFromDisk
  cases fs.fileExists fsPath with
  | false => exact (by decide : (404 : Int) ≠ 200)
  | true =>
    cases fs.readFile fsPath with
    | none => exact (by decide : (500 : Int) ≠ 200)
    | some content => exact ⟨rfl, rfl⟩

theorem serveFile_serves (fs : FileSystem) (getTime putTime : Time) (fsPath : Bytes)
    (cache : Option LRUCache) :
    Serves (fileContent fs getTime cache fsPath)
      (serveFile fs getTime putTime fsPath cache).response := by
  unfold serveFile fileContent
  cases cache with
  | none => exact serveFromDisk_serves fs putTime fsPath none
  | some c =>
    dsimp only [Option.bind_some]
    generalize c.get fsPath getTime = r
    obtain ⟨_ | cached, c⟩ := r
    · exact serveFromDisk_serves fs putTime fsPath (some c)
    · exact ⟨rfl, rfl⟩

/-- **`handle` answers with status 200 exactly where there is something to serve.** -/
theorem handle_serves (fs : FileSystem) (getTime putTime : Time) (request : HttpRequest)
    (rootDir indexFile : Bytes) (cache : Option LRUCache) :
    Serves (servedContent fs getTime rootDir indexFile cache request.path)
      (handle fs getTime putTime request rootDir indexFile cache).response := by
  unfold handle servedContent servedPath
  dsimp only
  split
  · exact (by decide : (403 : Int) ≠ 200)
  · split
    · split
      · exact (by decide : (301 : Int) ≠ 200)
      · exact serveFile_serves fs getTime putTime _ cache
    · exact serveFile_serves fs getTime putTime _ cache

/-! ## What Is Done to the Cache -/

/-- The content of a regular file. -/
def fileAt (fs : FileSystem) (path : Bytes) : Option Bytes :=
  if fs.fileExists path then fs.readFile path else none

section

variable {fs : FileSystem} {getTime putTime : Time} {request : HttpRequest}
  {rootDir indexFile : Bytes} {Q : LRUCache → Prop}

theorem serveFromDisk_cache
    (hput : ∀ c fsPath data, Q c → fileAt fs fsPath = some data →
      Q (c.put fsPath data (getMimeType fsPath) putTime))
    (fsPath : Bytes) {cache : Option LRUCache} (hcache : ∀ c ∈ cache, Q c) :
    ∀ c ∈ (serveFromDisk fs putTime fsPath cache).cache, Q c := by
  unfold serveFromDisk
  split
  · exact hcache
  · next hexists =>
    split
    · exact hcache
    · next content hread =>
      have hfile : fileAt fs fsPath = some content := by
        unfold fileAt
        rw [if_pos (by simpa using hexists), hread]
      intro c hc
      obtain ⟨c', hc', rfl⟩ := Option.map_eq_some_iff.mp hc
      exact hput c' fsPath content (hcache c' hc') hfile

/-- **The handler looks a pathname up and puts a file it has read, and does nothing
    else to the cache.** -/
theorem handle_cache (hget : ∀ c fsPath, Q c → Q (c.get fsPath getTime).2)
    (hput : ∀ c fsPath data, Q c → fileAt fs fsPath = some data →
      Q (c.put fsPath data (getMimeType fsPath) putTime))
    {cache : Option LRUCache} (hcache : ∀ c ∈ cache, Q c) :
    ∀ c ∈ (handle fs getTime putTime request rootDir indexFile cache).cache, Q c := by
  have hfile : ∀ fsPath : Bytes, ∀ c ∈ (serveFile fs getTime putTime fsPath cache).cache, Q c := by
    intro fsPath
    unfold serveFile
    split
    · exact serveFromDisk_cache hput fsPath hcache
    · next c =>
      have hafter := hget c fsPath (hcache c rfl)
      split
      · next cached c' heq =>
        rw [heq] at hafter
        exact fun c'' hc'' => Option.some.inj hc'' ▸ hafter
      · next c' heq =>
        rw [heq] at hafter
        exact serveFromDisk_cache hput fsPath fun c'' hc'' => Option.some.inj hc'' ▸ hafter
  unfold handle
  dsimp only
  split
  · exact hcache
  · split
    · split
      · exact hcache
      · exact hfile _
    · exact hfile _

end

end StaticHandler

end VeloxServe
