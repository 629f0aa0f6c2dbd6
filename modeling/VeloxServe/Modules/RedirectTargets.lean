import VeloxServe.Http.RequestText
import VeloxServe.Modules.StaticPaths
import VeloxServe.Modules.StaticHeaders

/-! # Following a Redirect

    A redirect repeats the request path, which has been decoded, with a slash
    behind it. Used as a target it is decoded once more: it leads back to the
    same directory when there is nothing left to decode, to cut or to end the
    target early, and when it is not taken for the name of another host.
-/

namespace VeloxServe

open StdString Message LexicalPath

/-! ## Decoding Again -/

/-- A text begins with an escape. -/
def StartsEscape (s : Bytes) : Prop :=
  ∃ high low, isXDigit high = true ∧ isXDigit low = true ∧ [37, high, low] <+: s

theorem decodeByte_eq_self_iff (b : UInt8) : decodeByte b = b ↔ b ≠ 43 := by
  unfold decodeByte
  split
  · next h => simp [h]
  · next h => simp [h]

/-- Decoding leaves a text alone when it leaves each byte alone and finds no escape. -/
theorem urlDecode_cons_eq_self_iff (b : UInt8) (s : Bytes) :
    urlDecode (b :: s) = b :: s ↔ b ≠ 43 ∧ ¬ StartsEscape (b :: s) ∧ urlDecode s = s := by
  have hstep : ¬ StartsEscape (b :: s) → urlDecode (b :: s) = decodeByte b :: urlDecode s := by
    intro hno
    rcases s with _ | ⟨high, _ | ⟨low, s⟩⟩
    · rfl
    · rfl
    · refine if_neg fun hescape => hno ⟨high, low, hescape.2.1, hescape.2.2, ?_⟩
      rw [hescape.1]
      exact List.prefix_append [37, high, low] s
  by_cases hescape : StartsEscape (b :: s)
  · -- an escape is three bytes that become one
    obtain ⟨high, low, hhigh, hlow, t, ht⟩ := hescape
    have hdecode : urlDecode ([37, high, low] ++ t) =
        (16 * hexValue high + hexValue low) :: urlDecode t := if_pos ⟨rfl, hhigh, hlow⟩
    have hlen := length_urlDecode_le t
    constructor
    · intro heq
      rw [← ht, hdecode] at heq
      have hsame := congrArg List.length heq
      simp only [List.length_cons, List.length_append, List.length_nil] at hsame
      omega
    · intro hplain
      exact absurd ⟨high, low, hhigh, hlow, t, ht⟩ hplain.2.1
  · rw [hstep hescape, List.cons.injEq, decodeByte_eq_self_iff]
    constructor
    · intro h
      exact ⟨h.1, hescape, h.2⟩
    · intro h
      exact ⟨h.1, h.2.2⟩

/-- A text that decoding leaves alone. -/
theorem urlDecode_eq_self_iff (s : Bytes) :
    urlDecode s = s ↔ (43 : UInt8) ∉ s ∧
      ∀ high low, isXDigit high = true → isXDigit low = true → ¬ [37, high, low] <:+: s := by
  induction s with
  | nil => exact ⟨fun _ => ⟨by simp, by simp⟩, fun _ => rfl⟩
  | cons b s ih =>
    rw [urlDecode_cons_eq_self_iff, ih, List.mem_cons, not_or]
    constructor
    · intro ⟨hb, hstart, hrest, hescape⟩
      refine ⟨⟨fun heq => hb heq.symm, hrest⟩, fun high low hhigh hlow hin => ?_⟩
      rcases List.infix_cons_iff.mp hin with hpre | hin
      · exact hstart ⟨high, low, hhigh, hlow, hpre⟩
      · exact hescape high low hhigh hlow hin
    · intro ⟨⟨hb, hrest⟩, hescape⟩
      refine ⟨fun heq => hb heq.symm, ?_, hrest, fun high low hhigh hlow hin => ?_⟩
      · intro ⟨high, low, hhigh, hlow, hpre⟩
        exact hescape high low hhigh hlow hpre.isInfix
      · exact hescape high low hhigh hlow (hin.trans (List.suffix_cons b s).isInfix)

/-- A slash at the end is no part of an escape. -/
theorem urlDecode_slash_eq_self_iff (path : Bytes) :
    urlDecode (path ++ [47]) = path ++ [47] ↔ (43 : UInt8) ∉ path ∧
      ∀ high low, isXDigit high = true → isXDigit low = true → ¬ [37, high, low] <:+: path := by
  have hplus : (43 : UInt8) ∉ path ++ [47] ↔ (43 : UInt8) ∉ path := by simp
  have hescape : ∀ high low : UInt8, isXDigit low = true →
      ([37, high, low] <:+: path ++ [47] ↔ [37, high, low] <:+: path) := by
    intro high low hlow
    constructor
    · intro hin
      obtain ⟨a, b, hab⟩ := hin
      rcases List.eq_nil_or_concat b with rfl | ⟨b, last, rfl⟩
      · -- the slash would be the last digit
        have hlast := congrArg List.getLast? hab
        simp at hlast
        rw [hlast] at hlow
        exact absurd hlow (by decide)
      · rw [List.concat_eq_append, ← List.append_assoc] at hab
        exact ⟨a, b, (List.append_inj' hab rfl).1⟩
    · intro hin
      exact hin.trans (List.prefix_append _ _).isInfix
  rw [urlDecode_eq_self_iff, hplus]
  constructor
  · intro ⟨hb, h⟩
    exact ⟨hb, fun high low hhigh hlow hin => h high low hhigh hlow ((hescape high low hlow).mpr hin)⟩
  · intro ⟨hb, h⟩
    exact ⟨hb, fun high low hhigh hlow hin => h high low hhigh hlow ((hescape high low hlow).mp hin)⟩

/-- **A path that can stand as a target as it is**: nothing in it ends the target,
    starts a query, is decoded or names a host. -/
structure IsPlainTarget (path : Bytes) : Prop where
  oneSlash : ¬ [47, 47] <+: path
  noBlank : ∀ b ∈ path, isSpace b = false
  noMark : (63 : UInt8) ∉ path
  noPlus : (43 : UInt8) ∉ path
  noEscape : ∀ high low, isXDigit high = true → isXDigit low = true → ¬ [37, high, low] <:+: path

/-- What the parser takes for the path of a target. -/
def targetPath (target : Bytes) : Bytes :=
  urlDecode ((target.takeWhile fun b => !isSpace b).takeWhile (· ≠ 63))

/-- A target is its own path when no step of reading it shortens it. -/
theorem targetPath_eq_self_iff (path : Bytes) :
    targetPath (path ++ [47]) = path ++ [47] ↔
      (∀ b ∈ path, isSpace b = false) ∧ (63 : UInt8) ∉ path ∧ (43 : UInt8) ∉ path ∧
      ∀ high low, isXDigit high = true → isXDigit low = true → ¬ [37, high, low] <:+: path := by
  have hspace : isSpace 47 = false := by decide
  have hword : (path ++ [47]).takeWhile (fun b => !isSpace b) = path ++ [47] ↔
      ∀ b ∈ path, isSpace b = false := by
    rw [List.takeWhile_eq_self_iff]
    simp [or_imp, forall_and, hspace]
  have hmark : (path ++ [47]).takeWhile (· ≠ 63) = path ++ [47] ↔ (63 : UInt8) ∉ path := by
    rw [List.takeWhile_eq_self_iff]
    constructor
    · intro hall hmem
      simpa using hall 63 (List.mem_append_left _ hmem)
    · intro hno b hb
      rcases List.mem_append.mp hb with hb | hb
      · have hne : b ≠ 63 := fun heq => hno (heq ▸ hb)
        simpa using hne
      · rw [List.mem_singleton.mp hb]
        decide
  unfold targetPath
  constructor
  · intro heq
    have hshort := List.takeWhile_prefix (fun b => !isSpace b) (l := path ++ [47])
    have hshorter := List.takeWhile_prefix (· ≠ 63)
      (l := (path ++ [47]).takeWhile fun b => !isSpace b)
    have hdecode := length_urlDecode_le
      (((path ++ [47]).takeWhile fun b => !isSpace b).takeWhile (· ≠ 63))
    rw [heq] at hdecode
    -- a shorter prefix could not be decoded to the whole
    have hfirst := hshort.eq_of_length_le (hdecode.trans hshorter.length_le)
    rw [hfirst] at heq hshorter hdecode
    have hsecond := hshorter.eq_of_length_le hdecode
    rw [hsecond] at heq
    exact ⟨hword.mp hfirst, hmark.mp hsecond, (urlDecode_slash_eq_self_iff path).mp heq⟩
  · intro h
    obtain ⟨hblank, hquestion, hplain⟩ := h
    rw [hword.mpr hblank, hmark.mpr hquestion]
    exact (urlDecode_slash_eq_self_iff path).mpr hplain

/-! ## The New Request -/

/-- A GET request for a target. -/
def getRequest (target : Bytes) (kvs : List (Bytes × Bytes)) : Bytes :=
  writeRequest (bytes "GET" ++ 32 :: (target ++ 32 :: bytes "HTTP/1.1")) kvs []

/-- What the parser makes of it. -/
def parsedGet (target : Bytes) (kvs : List (Bytes × Bytes)) : Bool × HttpParser × HttpRequest :=
  ({} : HttpParser).parse (getRequest target kvs) {}

/-- A header of a request without a body. -/
structure IsBodiless (kv : Bytes × Bytes) : Prop extends IsWritable kv where
  noLength : (readHeader kv).1 ≠ bytes "content-length"

/-- A target is cut at the first blank and the first `?` in it. -/
theorem parsedGet_path {target : Bytes} {kvs : List (Bytes × Bytes)} (hslash : target.head? = some 47)
    (hdone : (parsedGet target kvs).1 = true) (hvalid : (parsedGet target kvs).2.2.isValid = true) :
    (parsedGet target kvs).2.2.path =
      targetPath target := by
  have hget : isValidMethod (bytes "GET") = true := by decide
  have hblank : isSpace 32 = true := by decide
  obtain ⟨t, rfl⟩ := List.head?_eq_some_iff.mp hslash
  have hfirst : isSpace 47 = false := by decide
  -- what follows the word begins with a blank
  obtain ⟨rest, htext, hrest⟩ : ∃ rest, getRequest (47 :: t) kvs =
      bytes "GET" ++ 32 :: (((47 :: t).takeWhile fun b => !isSpace b) ++ rest) ∧
      ∀ b ∈ rest.head?, isSpace b = true := by
    refine ⟨((47 :: t).dropWhile fun b => !isSpace b) ++ (32 :: bytes "HTTP/1.1" ++ crlf ++
      writeLines (kvs.map HttpResponse.fieldLine) ++ crlf), ?_, ?_⟩
    · have hsplit := List.takeWhile_append_dropWhile (p := fun b => !isSpace b) (l := 47 :: t)
      unfold getRequest writeRequest
      rw [← List.append_assoc (List.takeWhile _ _), hsplit]
      simp [writeLines]
    · intro b hb
      cases hdrop : (47 :: t).dropWhile fun b => !isSpace b with
      | nil =>
        rw [hdrop] at hb
        obtain rfl := Option.some.inj hb
        exact hblank
      | cons c u =>
        rw [hdrop] at hb
        obtain rfl := Option.some.inj hb
        have hstop := List.head?_dropWhile_not (fun b => !isSpace b) (47 :: t)
        rw [hdrop] at hstop
        simpa using hstop
  unfold parsedGet at hdone hvalid ⊢
  rw [htext] at hdone hvalid ⊢
  refine path_of_valid hget ?_ ?_ hrest hdone hvalid
  · simp [hfirst]
  · intro b hb
    have hword := List.mem_takeWhile_imp hb
    simpa using hword

/-- A plain path is accepted as a target, with a slash behind it, and read as it is. -/
theorem parsedGet_plain {path : Bytes} (hslash : path.head? = some 47) (h : IsPlainTarget path)
    {kvs : List (Bytes × Bytes)} (hkvs : ∀ kv ∈ kvs, IsBodiless kv) :
    (parsedGet (path ++ [47]) kvs).1 = true ∧ (parsedGet (path ++ [47]) kvs).2.2.isValid = true ∧
      (parsedGet (path ++ [47]) kvs).2.2.path = path ++ [47] := by
  have hget : isValidMethod (bytes "GET") = true := by decide
  have hversion : IsVersion (bytes "HTTP/1.1") := .inl rfl
  have hblank : ∀ b ∈ path ++ [47], isSpace b = false := by
    intro b hb
    rcases List.mem_append.mp hb with hb | hb
    · exact h.noBlank b hb
    · rw [List.mem_singleton.mp hb]
      decide
  have hmark : (63 : UInt8) ∉ path ++ [47] := by simpa using h.noMark
  have hdecode : urlDecode (path ++ [47]) = path ++ [47] :=
    (urlDecode_slash_eq_self_iff path).mpr ⟨h.noPlus, h.noEscape⟩
  have hhead : (urlDecode (path ++ [47])).head? = some 47 := by
    rw [hdecode, List.head?_append, hslash]
    rfl
  have hline : parseRequestLine (bytes "GET" ++ 32 :: (path ++ [47] ++ 32 :: bytes "HTTP/1.1")) {} =
      (true, { method := bytes "GET", version := bytes "HTTP/1.1", path := path ++ [47] }) := by
    rw [parseRequestLine_written hget (by simp) hblank hversion, setUri_of_not_mem hhead hmark,
      hdecode]
  -- no CRLF fits into the line
  have hstart : ¬ crlf <:+: bytes "GET" ++ 32 :: (path ++ [47] ++ 32 :: bytes "HTTP/1.1") := by
    intro hin
    have hreturn : (13 : UInt8) ∈ bytes "GET" ++ 32 :: (path ++ [47] ++ 32 :: bytes "HTTP/1.1") :=
      hin.subset (by decide)
    have hno : (13 : UInt8) ∉ bytes "GET" ++ [32] ∧ (13 : UInt8) ∉ 32 :: bytes "HTTP/1.1" := by decide
    rcases List.mem_append.mp hreturn with hmem | hmem
    · exact hno.1 (List.mem_append_left _ hmem)
    · rcases List.mem_cons.mp hmem with hmem | hmem
      · exact absurd hmem (by decide)
      · rcases List.mem_append.mp hmem with hmem | hmem
        · exact absurd (hblank 13 hmem) (by decide)
        · exact hno.2 hmem
  -- and no header announces a body
  have hlength : HttpParser.headerContentLength
      { method := bytes "GET", version := bytes "HTTP/1.1", path := path ++ [47]
        headers := UnorderedMap.setAll (kvs.map readHeader) ∅ } = 0 := by
    have hnone : bytes "content-length" ∉ (kvs.map readHeader).map Prod.fst := by
      intro hmem
      obtain ⟨kv', hkv', hname⟩ := List.mem_map.mp hmem
      obtain ⟨kv, hkv, rfl⟩ := List.mem_map.mp hkv'
      exact (hkvs kv hkv).noLength hname
    unfold HttpParser.headerContentLength
    rw [UnorderedMap.lookup_setAll_of_not_mem hnone]
    rfl
  have hparse := parse_writeRequest hstart hline (fun kv hkv => (hkvs kv hkv).toIsWritable) []
  unfold parsedGet getRequest
  rw [hparse]
  unfold HttpParser.parseBody
  rw [if_neg (Nat.not_lt.mpr (Nat.le_of_eq hlength))]
  exact ⟨rfl, rfl, rfl⟩

namespace StaticHandler

/-! ## Where a Redirect Leads -/

section

variable {fs : FileSystem} {getTime putTime : Time} {request : HttpRequest}
  {rootDir indexFile : Bytes} {cache : Option LRUCache}

theorem serveFile_statusCode (fsPath : Bytes) :
    (serveFile fs getTime putTime fsPath cache).response.statusCode ≠ 301 := by
  have hdisk : ∀ cache, (serveFromDisk fs putTime fsPath cache).response.statusCode ≠ 301 := by
    intro cache
    unfold serveFromDisk
    split
    · exact (by decide : (404 : Int) ≠ 301)
    · split
      · exact (by decide : (500 : Int) ≠ 301)
      · exact (by decide : (200 : Int) ≠ 301)
  unfold serveFile
  split
  · exact hdisk none
  · split
    · exact (by decide : (200 : Int) ≠ 301)
    · exact hdisk _

/-- A redirect is recognised by its status. -/
theorem handle_statusCode_iff :
    (handle fs getTime putTime request rootDir indexFile cache).response.statusCode = 301 ↔
      Redirects fs rootDir request.path := by
  constructor
  · intro hstatus
    unfold handle at hstatus
    dsimp only at hstatus
    split at hstatus
    · exact absurd hstatus (by decide : (403 : Int) ≠ 301)
    · next hsafe =>
      split at hstatus
      · next hdir =>
        split at hstatus
        · next hlast => exact ⟨hsafe, hdir, hlast⟩
        · exact absurd hstatus (serveFile_statusCode _)
      · exact absurd hstatus (serveFile_statusCode _)
  · intro h
    rw [handle_redirect h]
    rfl

end

/-- A slash at the end leads to the same place. -/
theorem sanitizePath_concat_slash {path : Bytes} (hne : path ≠ [])
    (hlast : path.getLast? ≠ some 47) : sanitizePath (path ++ [47]) = sanitizePath path := by
  rw [sanitizePath_eq, sanitizePath_eq, components_concat_slash hne hlast]

/-- **Following a location leads to the directory that was asked for.** -/
structure LeadsBack (fs : FileSystem) (rootDir path location : Bytes)
    (kvs : List (Bytes × Bytes)) : Prop where
  /-- The location names no other host. -/
  oneSlash : location.head? = some 47 ∧ ¬ [47, 47] <+: location
  accepted : (parsedGet location kvs).1 = true ∧ (parsedGet location kvs).2.2.isValid = true
  samePath : (parsedGet location kvs).2.2.path = path ++ [47]
  sameDirectory : sanitizePath (parsedGet location kvs).2.2.path = sanitizePath path
  /-- There is no second redirect. -/
  settled : ∀ getTime putTime indexFile cache,
    (handle fs getTime putTime (parsedGet location kvs).2.2 rootDir indexFile
      cache).response.statusCode ≠ 301

theorem not_prefix_slash {path : Bytes} (hslash : path.head? = some 47)
    (hlast : path.getLast? ≠ some 47) : [47, 47] <+: path ++ [47] ↔ [47, 47] <+: path := by
  obtain ⟨rest, rfl⟩ := List.head?_eq_some_iff.mp hslash
  cases rest with
  | nil => exact absurd rfl hlast
  | cons b rest => simp [List.cons_prefix_cons]

/-- **A redirect leads back to the directory that was asked for exactly when the
    path of the request can stand as a target as it is.** -/
theorem redirect_leadsBack_iff (fs : FileSystem) (getTime putTime : Time) {request : HttpRequest}
    (rootDir indexFile : Bytes) (cache : Option LRUCache) {kvs : List (Bytes × Bytes)}
    (haccepted : Accepted request) (hkvs : ∀ kv ∈ kvs, IsBodiless kv)
    (hstatus : (handle fs getTime putTime request rootDir indexFile cache).response.statusCode = 301) :
    ∃ location,
      (handle fs getTime putTime request rootDir indexFile cache).response.headers.lookup
        (bytes "Location") = some location ∧
      (LeadsBack fs rootDir request.path location kvs ↔ IsPlainTarget request.path) := by
  have hredirects := handle_statusCode_iff.mp hstatus
  have hslash := haccepted.wellFormed.path
  have hlast := hredirects.2.2
  have hsuffix : bytes "/" = [47] := by decide
  have hne : request.path ≠ [] := by
    intro hnil
    rw [hnil] at hslash
    cases hslash
  have hhead : (request.path ++ [47]).head? = some 47 := by
    rw [List.head?_append, hslash]
    rfl
  refine ⟨request.path ++ [47], ?_, ?_⟩
  · rw [handle_redirect hredirects, hsuffix]
    exact UnorderedMap.lookup_set_self _ _ _
  · constructor
    · intro h
      have hread := parsedGet_path hhead h.accepted.1 h.accepted.2
      rw [h.samePath] at hread
      obtain ⟨hblank, hmark, hplus, hescape⟩ := (targetPath_eq_self_iff request.path).mp hread.symm
      have hone : ¬ [47, 47] <+: request.path := fun hpre =>
        h.oneSlash.2 ((not_prefix_slash hslash hlast).mpr hpre)
      exact ⟨hone, hblank, hmark, hplus, hescape⟩
    · intro h
      obtain ⟨hdone, hvalid, hpath⟩ := parsedGet_plain hslash h hkvs
      have hone : ¬ [47, 47] <+: request.path ++ [47] := fun hpre =>
        h.oneSlash ((not_prefix_slash hslash hlast).mp hpre)
      refine ⟨⟨hhead, hone⟩, ⟨hdone, hvalid⟩, hpath, ?_, ?_⟩
      · rw [hpath]
        exact sanitizePath_concat_slash hne hlast
      · -- the new path ends in a slash
        intro getTime putTime indexFile cache hagain
        have hagain' := (handle_statusCode_iff.mp hagain).2.2
        rw [hpath] at hagain'
        simp at hagain'

/-- The directory `docs`. -/
theorem redirect_leadsBack_docs :
    ∃ location,
      (handle ⟨fun _ => some .directory, fun _ => none⟩ 0 0
        (({} : HttpParser).parse (bytes "GET /docs HTTP/1.1\r\n\r\n") {}).2.2 (bytes "./www")
        (bytes "index.html") none).response.headers.lookup (bytes "Location") = some location ∧
      (LeadsBack ⟨fun _ => some .directory, fun _ => none⟩ (bytes "./www")
        (({} : HttpParser).parse (bytes "GET /docs HTTP/1.1\r\n\r\n") {}).2.2.path location
        [(bytes "Host", bytes "localhost")] ↔
        IsPlainTarget (({} : HttpParser).parse (bytes "GET /docs HTTP/1.1\r\n\r\n") {}).2.2.path) := by
  refine redirect_leadsBack_iff _ 0 0 _ _ none (Accepted.of_parse ?_ ?_) ?_ ?_
  · decide +kernel
  · decide +kernel
  · intro kv hkv
    rw [List.mem_singleton.mp hkv]
    exact ⟨⟨by decide, by decide, by decide, by decide⟩, by decide⟩
  · decide +kernel

/-- The target `//docs` is redirected to a host of that name. -/
theorem redirect_elsewhere :
    ¬ ∀ (fs : FileSystem) (getTime putTime : Time) (request : HttpRequest) (rootDir indexFile : Bytes)
      (cache : Option LRUCache) (location : Bytes), Accepted request →
      (handle fs getTime putTime request rootDir indexFile cache).response.statusCode = 301 →
      (handle fs getTime putTime request rootDir indexFile cache).response.headers.lookup
        (bytes "Location") = some location →
      LeadsBack fs rootDir request.path location [] := by
  intro h
  have haccepted : Accepted (({} : HttpParser).parse (bytes "GET //docs HTTP/1.1\r\n\r\n") {}).2.2 :=
    Accepted.of_parse (by decide +kernel) (by decide +kernel)
  have hleads := h ⟨fun _ => some .directory, fun _ => none⟩ 0 0 _ (bytes "./www")
    (bytes "index.html") none (bytes "//docs/") haccepted (by decide +kernel) (by decide +kernel)
  exact hleads.oneSlash.2 (by decide)

end StaticHandler

end VeloxServe
