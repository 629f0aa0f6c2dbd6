import VeloxServe.Modules.StaticHandler

/-! # The Headers of the Static Handler

    All header names of a response to a static request are the server's own,
    and so are all values but one: a redirect puts the decoded request path
    into its `Location`. Whether a recipient reads the headers the server set
    comes down to that value.
-/

namespace VeloxServe

open StdString Message LexicalPath

/-! ## Responses Made by the Server -/

namespace HttpResponse

/-- What a recipient reads is what the server meant: the status line, then one
    line for each header, then the body. -/
structure ReadsAsSet (ord : HeaderOrder) (r : HttpResponse) : Prop where
  statusLine : (splitLines (r.build ord)).head? = some r.statusLine
  headers : headerLines (r.build ord) = (r.builtHeaders ord).map fieldLine
  distinct : ((r.builtHeaders ord).map Prod.fst).Nodup
  body : content (r.build ord) = r.body

theorem Clean.readsAsSet {r : HttpResponse} (h : r.Clean) (ord : HeaderOrder) :
    r.ReadsAsSet ord where
  statusLine := by
    rw [h.splitLines_build]
    rfl
  headers := (h.read_build ord).1
  distinct := r.builtHeaders_nodup ord
  body := (h.read_build ord).2

/-- A header with a CRLF in its value is not read as one line. -/
theorem not_readsAsSet (ord : HeaderOrder) {r : HttpResponse} {k v : Bytes}
    (hlook : r.headers.lookup k = some v) (hv : crlf <:+: v) : ¬ r.ReadsAsSet ord := by
  intro h
  have hbuilt : (k, v) ∈ r.builtHeaders ord := List.mem_append_left _ (ord.mem_order.mpr hlook)
  have hline : fieldLine (k, v) ∈ headerLines (r.build ord) := by
    rw [h.headers]
    exact List.mem_map_of_mem hbuilt
  have hsplit : fieldLine (k, v) ∈ splitLines (r.build ord) := by
    unfold headerLines at hline
    have htail := (List.takeWhile_prefix _).subset hline
    exact List.mem_of_mem_tail htail
  have hvalue : v <:+: fieldLine (k, v) := (List.suffix_append (k ++ bytes ": ") v).isInfix
  exact not_infix_of_mem_splitLines hsplit (hv.trans hvalue)

end HttpResponse

namespace StaticHandler

/-! ## The Cases of `handle` -/

/-- The cache has been filled by the handler: content types are those of the keys. -/
def Filled (c : LRUCache) : Prop :=
  c.FilledBy fun key _ contentType => contentType = getMimeType key

/-- The request is answered with a redirect. -/
def Redirects (fs : FileSystem) (rootDir path : Bytes) : Prop :=
  sanitizePath path ≠ [] ∧ fs.isDirectory (rootDir ++ sanitizePath path) = true ∧
    path.getLast? ≠ some 47

/-- The responses of `handle`. -/
inductive ResponseCase (fs : FileSystem) (rootDir path : Bytes) : HttpResponse → Prop where
  | forbidden : ResponseCase fs rootDir path
      (HttpResponse.forbidden (bytes "403 Forbidden — Path traversal blocked"))
  | redirect (h : Redirects fs rootDir path) : ResponseCase fs rootDir path
      (HttpResponse.redirect (path ++ bytes "/"))
  | file (fsPath : Bytes) {xCache : Bytes} (hx : xCache = bytes "HIT" ∨ xCache = bytes "MISS")
      (content : Bytes) :
      ResponseCase fs rootDir path (fileResponse (getMimeType fsPath) xCache content)
  | notFound : ResponseCase fs rootDir path (HttpResponse.notFound [])
  | internalError : ResponseCase fs rootDir path
      (HttpResponse.internalError (bytes "500 Internal Server Error"))

variable {fs : FileSystem} {getTime putTime : Time} {request : HttpRequest}
  {rootDir indexFile : Bytes} {cache : Option LRUCache}

theorem serveFromDisk_cases (path fsPath : Bytes) (cache : Option LRUCache) :
    ResponseCase fs rootDir path (serveFromDisk fs putTime fsPath cache).response := by
  unfold serveFromDisk
  split
  · exact .notFound
  · split
    · exact .internalError
    · exact .file fsPath (.inr rfl) _

theorem serveFile_cases (path fsPath : Bytes) (hcache : ∀ c ∈ cache, Filled c) :
    ResponseCase fs rootDir path (serveFile fs getTime putTime fsPath cache).response := by
  unfold serveFile
  split
  · exact serveFromDisk_cases path fsPath none
  · next c =>
    have hentry := ((hcache c rfl).contains.get fsPath getTime).1
    split
    · next cached c' hget =>
      have hmime : cached.contentType = getMimeType fsPath := hentry cached (by rw [hget]; rfl)
      dsimp only
      rw [hmime]
      exact .file fsPath (.inl rfl) cached.data
    · exact serveFromDisk_cases path fsPath _

theorem handle_cases (hcache : ∀ c ∈ cache, Filled c) :
    ResponseCase fs rootDir request.path
      (handle fs getTime putTime request rootDir indexFile cache).response := by
  unfold handle
  dsimp only
  split
  · exact .forbidden
  · next hsafe =>
    split
    · next hdir =>
      split
      · next hlast => exact .redirect ⟨hsafe, hdir, hlast⟩
      · exact serveFile_cases _ _ hcache
    · exact serveFile_cases _ _ hcache

/-- A redirect is what `Redirects` says it is. -/
theorem handle_redirect (h : Redirects fs rootDir request.path) :
    (handle fs getTime putTime request rootDir indexFile cache).response =
      HttpResponse.redirect (request.path ++ bytes "/") := by
  unfold handle
  dsimp only
  rw [if_neg h.1, if_pos h.2.1, if_pos h.2.2]

/-- `handle` keeps the cache filled by itself. -/
theorem handle_filled (hcache : ∀ c ∈ cache, Filled c) :
    ∀ c ∈ (handle fs getTime putTime request rootDir indexFile cache).cache, Filled c :=
  handle_cache (fun _ fsPath h => h.get fsPath getTime) (fun _ _ _ h _ => h.put putTime rfl) hcache

/-- The server keeps its cache where the handler returns none. -/
theorem Filled.served {c : LRUCache} (h : Filled c) :
    Filled ((handle fs getTime putTime request rootDir indexFile (some c)).cache.getD c) := by
  have hcache : ∀ c' ∈ some c, Filled c' := fun c' hc' => Option.some.inj hc' ▸ h
  cases hafter : (handle fs getTime putTime request rootDir indexFile (some c)).cache with
  | none => exact h
  | some c' => exact handle_filled hcache c' hafter

/-! ## Which Headers Are Read -/

/-- The header names of the handler and of `build`. -/
def headerNames : List Bytes :=
  [bytes "Content-Type", bytes "Content-Length", bytes "X-Cache", bytes "Location",
    bytes "Server", bytes "Connection"]

theorem names_setHeader {r : HttpResponse} (h : ∀ k ∈ r.headers, k ∈ headerNames) {key : Bytes}
    (hkey : key ∈ headerNames) (value : Bytes) :
    ∀ k ∈ (r.setHeader key value).headers, k ∈ headerNames := by
  intro k hk
  rcases UnorderedMap.mem_set.mp hk with rfl | hk
  · exact hkey
  · exact h k hk

/-- A response whose one header is called `Content-Type`. -/
theorem names_typed (code : Int) (reason contentType body : Bytes) :
    ∀ k ∈ ((({ statusCode := code, statusText := reason } : HttpResponse).setHeader
      (bytes "Content-Type") contentType).setBody body).headers, k ∈ headerNames := by
  have htype : bytes "Content-Type" ∈ headerNames := by decide
  exact names_setHeader (fun k hk => by cases hk) htype contentType

theorem ResponseCase.names {path : Bytes} {r : HttpResponse} (h : ResponseCase fs rootDir path r)
    (ord : HeaderOrder) : ∀ kv ∈ r.builtHeaders ord, kv.1 ∈ headerNames := by
  have hlength : bytes "Content-Length" ∈ headerNames := by decide
  have hx : bytes "X-Cache" ∈ headerNames := by decide
  have hlocation : bytes "Location" ∈ headerNames := by decide
  have hserver : bytes "Server" ∈ headerNames := by decide
  have hconn : bytes "Connection" ∈ headerNames := by decide
  have hset : ∀ k ∈ r.headers, k ∈ headerNames := by
    cases h with
    | forbidden => exact names_typed _ _ _ _
    | redirect _ =>
      have hfresh : ∀ k ∈ ({ statusCode := 301, statusText := bytes "Moved Permanently" } :
          HttpResponse).headers, k ∈ headerNames := by
        intro k hk
        cases hk
      exact names_setHeader hfresh hlocation (path ++ bytes "/")
    | @file fsPath xCache _ content =>
      have htyped := names_typed 200 (bytes "OK") (getMimeType fsPath) []
      have hsized := names_setHeader htyped hlength (decimal content.length)
      exact names_setHeader hsized hx xCache
    | notFound => exact names_typed _ _ _ _
    | internalError => exact names_typed _ _ _ _
  intro kv hkv
  rcases List.mem_append.mp hkv with hkv | hkv
  · obtain ⟨k, v⟩ := kv
    exact hset k (AList.lookup_isSome.mp (ord.mem_order.mp hkv ▸ rfl))
  · simp only [HttpResponse.addedHeaders, List.mem_append, List.mem_ite_nil_left,
      List.mem_singleton] at hkv
    rcases hkv with (⟨-, rfl⟩ | ⟨-, rfl⟩) | ⟨-, rfl⟩
    · exact hlength
    · exact hserver
    · exact hconn

/-- Apart from a redirect's location, nothing the handler sets contains a CRLF. -/
theorem ResponseCase.clean {path : Bytes} {r : HttpResponse} (h : ResponseCase fs rootDir path r)
    (hpath : Redirects fs rootDir path → ¬ crlf <:+: path) : r.Clean := by
  have htype : ¬ crlf <:+: bytes "Content-Type" := by decide
  have hhtml : ¬ crlf <:+: bytes "text/html" := by decide
  have hplain : ¬ crlf <:+: bytes "text/plain" := by decide
  cases h with
  | forbidden =>
    have hreason : ¬ crlf <:+: bytes "Forbidden" := by decide
    exact ((HttpResponse.Clean.fresh hreason).setHeader htype hplain).setBody _
  | redirect hredirects =>
    have hreason : ¬ crlf <:+: bytes "Moved Permanently" := by decide
    have hname : ¬ crlf <:+: bytes "Location" := by decide
    have hslash : bytes "/" = [47] := by decide
    have hvalue : ¬ crlf <:+: path ++ bytes "/" := by
      intro hin
      rw [hslash] at hin
      rcases infix_append_cons (by decide) hin with hin | hin
      · exact hpath hredirects hin
      · exact absurd hin (by decide)
    exact ((HttpResponse.Clean.fresh hreason).setHeader hname hvalue).setBody _
  | file fsPath hx content =>
    have hreason : ¬ crlf <:+: bytes "OK" := by decide
    have hlength : ¬ crlf <:+: bytes "Content-Length" := by decide
    have hxname : ¬ crlf <:+: bytes "X-Cache" := by decide
    have hhit : ¬ crlf <:+: bytes "HIT" := by decide
    have hmiss : ¬ crlf <:+: bytes "MISS" := by decide
    have hfresh : ({ statusCode := 200, statusText := bytes "OK" } : HttpResponse).Clean :=
      HttpResponse.Clean.fresh hreason
    have htyped := hfresh.setHeader htype (not_infix_getMimeType fsPath)
    have hsized := htyped.setHeader hlength (not_infix_decimal content.length)
    rcases hx with rfl | rfl
    · exact (hsized.setHeader hxname hhit).setBody _
    · exact (hsized.setHeader hxname hmiss).setBody _
  | notFound =>
    have hreason : ¬ crlf <:+: bytes "Not Found" := by decide
    exact ((HttpResponse.Clean.fresh hreason).setHeader htype hhtml).setBody _
  | internalError =>
    have hreason : ¬ crlf <:+: bytes "Internal Server Error" := by decide
    exact ((HttpResponse.Clean.fresh hreason).setHeader htype hhtml).setBody _

/-- **The header block is the server's own, except where a redirect repeats a
    path with a CRLF in it.** -/
theorem headers_own_iff (ord : HeaderOrder) (fs : FileSystem) (getTime putTime : Time)
    (request : HttpRequest) (rootDir indexFile : Bytes) (cache : Option LRUCache)
    (hcache : ∀ c ∈ cache, Filled c) :
    ((handle fs getTime putTime request rootDir indexFile cache).response.ReadsAsSet ord ∧
      ∀ kv ∈ (handle fs getTime putTime request rootDir indexFile cache).response.builtHeaders ord,
        kv.1 ∈ headerNames) ↔
    ¬ (Redirects fs rootDir request.path ∧ crlf <:+: request.path) := by
  constructor
  · intro hreads hinject
    obtain ⟨hredirects, hpath⟩ := hinject
    have hlook : (HttpResponse.redirect (request.path ++ bytes "/")).headers.lookup
        (bytes "Location") = some (request.path ++ bytes "/") :=
      UnorderedMap.lookup_set_self _ _ _
    rw [handle_redirect hredirects] at hreads
    exact HttpResponse.not_readsAsSet ord hlook (hpath.trans (List.prefix_append _ _).isInfix)
      hreads.1
  · intro hclean
    have hcase : ResponseCase fs rootDir request.path
        (handle fs getTime putTime request rootDir indexFile cache).response := handle_cases hcache
    have hr := hcase.clean fun hredirects hpath => hclean ⟨hredirects, hpath⟩
    exact ⟨hr.readsAsSet ord, hcase.names ord⟩

/-- A request for a directory without a slash at its end. -/
theorem headers_own_redirect :
    ((handle ⟨fun _ => some .directory, fun _ => none⟩ 0 0 { path := bytes "/docs" }
        (bytes "./www") (bytes "index.html") (some (LRUCache.create 1024 60))).response.ReadsAsSet
          UnorderedMap.IterOrder.listed ∧
      ∀ kv ∈ (handle ⟨fun _ => some .directory, fun _ => none⟩ 0 0 { path := bytes "/docs" }
        (bytes "./www") (bytes "index.html") (some (LRUCache.create 1024 60))).response.builtHeaders
          UnorderedMap.IterOrder.listed, kv.1 ∈ headerNames) ↔
    ¬ (Redirects ⟨fun _ => some .directory, fun _ => none⟩ (bytes "./www") (bytes "/docs") ∧
      crlf <:+: bytes "/docs") :=
  headers_own_iff _ _ 0 0 _ _ _ _ fun _ hc => Option.some.inj hc ▸ LRUCache.FilledBy.create 1024 60

/-- A segment that `..` cancels brings a header line of the client's choice into
    the redirect to the root directory. -/
theorem headers_injected :
    ¬ ∀ (ord : HeaderOrder) (fs : FileSystem) (getTime putTime : Time) (w rootDir indexFile : Bytes)
      (cache : Option LRUCache),
      (({} : HttpParser).parse w {}).1 = true → (({} : HttpParser).parse w {}).2.2.isValid = true →
      (∀ c ∈ cache, Filled c) →
      (handle fs getTime putTime (({} : HttpParser).parse w {}).2.2 rootDir indexFile
        cache).response.ReadsAsSet ord := by
  intro h
  have hreads := h UnorderedMap.IterOrder.listed ⟨fun _ => some .directory, fun _ => none⟩ 0 0
    (bytes "GET /x%0d%0aSet-Cookie:%20a=b/.. HTTP/1.1\r\n\r\n") (bytes "./www")
    (bytes "index.html") none (by decide +kernel) (by decide +kernel) (fun c hc => by cases hc)
  have hheaders := hreads.headers
  revert hheaders
  decide +kernel

end StaticHandler

end VeloxServe
