import VeloxServe.Http.WrittenRequest
import VeloxServe.Modules.ProxyHandler

/-! # What the Backend Reads

    `build_backend_request` writes a parsed request out again, with the path it
    has decoded. A backend that parses like the server itself gets the same
    request back exactly when the path survives a second parse.
-/

namespace VeloxServe

open StdString Message HttpResponse

namespace ProxyHandler

/-! ## The Written Request -/

/-- Path and query, as they are written. -/
def writtenTarget (req : HttpRequest) : Bytes :=
  req.path ++ if req.queryString = [] then [] else bytes "?" ++ req.queryString

def writtenLine (req : HttpRequest) : Bytes :=
  req.method ++ bytes " " ++ writtenTarget req ++ bytes " HTTP/1.1"

/-- The headers the proxy sets itself. -/
def ownHeaders (backendHost clientIp : Bytes) : List (Bytes × Bytes) :=
  [(bytes "Host", backendHost), (bytes "X-Forwarded-For", clientIp), (bytes "X-Real-IP", clientIp),
    (bytes "X-Forwarded-Proto", bytes "http"), (bytes "Connection", bytes "close")]

/-- Their names, as a parser stores them. -/
def ownNames : List Bytes :=
  [bytes "host", bytes "x-forwarded-for", bytes "x-real-ip", bytes "x-forwarded-proto",
    bytes "connection"]

theorem buildBackendRequest_eq (ord : HeaderOrder) (req : HttpRequest)
    (backendHost clientIp : Bytes) :
    buildBackendRequest ord req backendHost clientIp =
      writeRequest (writtenLine req) (ownHeaders backendHost clientIp ++ relayed ord req) req.body := by
  have hrelayed : (relayed ord req).flatMap (fun kv => kv.1 ++ bytes ": " ++ kv.2 ++ crlf) =
      writeLines ((relayed ord req).map fieldLine) := by
    simp [writeLines, fieldLine, List.flatMap_map]
  have hhost : bytes "Host: " = bytes "Host" ++ bytes ": " := by decide
  have hfor : bytes "X-Forwarded-For: " = bytes "X-Forwarded-For" ++ bytes ": " := by decide
  have hreal : bytes "X-Real-IP: " = bytes "X-Real-IP" ++ bytes ": " := by decide
  have hproto : bytes "X-Forwarded-Proto: http" =
      bytes "X-Forwarded-Proto" ++ bytes ": " ++ bytes "http" := by decide
  have hconn : bytes "Connection: close" = bytes "Connection" ++ bytes ": " ++ bytes "close" := by
    decide
  unfold buildBackendRequest
  rw [hrelayed, hhost, hfor, hreal, hproto, hconn]
  simp [writeRequest, writeLines, writtenLine, writtenTarget, ownHeaders, fieldLine]

/-- No carriage return and no newline. -/
def IsLine (s : Bytes) : Prop := (13 : UInt8) ∉ s ∧ (10 : UInt8) ∉ s

instance (s : Bytes) : Decidable (IsLine s) := inferInstanceAs (Decidable (_ ∧ _))

theorem IsLine.getLast? {s : Bytes} (h : IsLine s) : s.getLast? ≠ some 13 :=
  fun hlast => h.1 (List.mem_of_getLast? hlast)

theorem ownHeaders_spec {backendHost clientIp : Bytes} (hhost : IsLine backendHost)
    (hip : IsLine clientIp) :
    ∀ kv ∈ ownHeaders backendHost clientIp, IsWritable kv ∧ (readHeader kv).1 ∈ ownNames := by
  have hnames : ∀ k ∈ [bytes "Host", bytes "X-Forwarded-For", bytes "X-Real-IP",
      bytes "X-Forwarded-Proto", bytes "Connection"],
      (58 : UInt8) ∉ k ∧ (10 : UInt8) ∉ k ∧ toLower (trim k) ∈ ownNames := by decide
  have hhttp : IsLine (bytes "http") := by decide
  have hclose : IsLine (bytes "close") := by decide
  have hkv : ∀ k v, k ∈ [bytes "Host", bytes "X-Forwarded-For", bytes "X-Real-IP",
      bytes "X-Forwarded-Proto", bytes "Connection"] → IsLine v →
      IsWritable (k, v) ∧ (readHeader (k, v)).1 ∈ ownNames := by
    intro k v hk hv
    obtain ⟨hcolon, hline, hname⟩ := hnames k hk
    exact ⟨⟨hcolon, hline, hv.2, hv.getLast?⟩, hname⟩
  intro kv hmem
  simp only [ownHeaders, List.mem_cons, List.not_mem_nil, or_false] at hmem
  rcases hmem with rfl | rfl | rfl | rfl | rfl
  · exact hkv _ _ (by simp) hhost
  · exact hkv _ _ (by simp) hip
  · exact hkv _ _ (by simp) hip
  · exact hkv _ _ (by simp) hhttp
  · exact hkv _ _ (by simp) hclose

theorem mem_relayed {ord : HeaderOrder} {req : HttpRequest} {kv : Bytes × Bytes} :
    kv ∈ relayed ord req ↔
      req.headers.lookup kv.1 = some kv.2 ∧ kv.1 ≠ bytes "host" ∧ kv.1 ≠ bytes "connection" := by
  unfold relayed
  rw [List.mem_filter, ← ord.mem_order]
  simp

/-! ## The Headers Read Back -/

theorem map_readHeader_relayed {ord : HeaderOrder} {req : HttpRequest}
    (h : StoredHeaders req.headers) : (relayed ord req).map readHeader = relayed ord req := by
  have hread : ∀ kv ∈ relayed ord req, readHeader kv = id kv := by
    intro kv hkv
    have hstored : IsStored kv.1 kv.2 := h _ _ (mem_relayed.mp hkv).1
    exact hstored.writable.2
  rw [List.map_congr_left hread, List.map_id]

/-- The proxy's headers and the client's fit on lines of their own. -/
theorem writable_headers (ord : HeaderOrder) {req : HttpRequest} (hreq : WellFormed req)
    {backendHost clientIp : Bytes} (hhost : IsLine backendHost) (hip : IsLine clientIp) :
    ∀ kv ∈ ownHeaders backendHost clientIp ++ relayed ord req, IsWritable kv := by
  intro kv hkv
  rcases List.mem_append.mp hkv with hkv | hkv
  · exact (ownHeaders_spec hhost hip kv hkv).1
  · have hstored : IsStored kv.1 kv.2 := hreq.headers _ _ (mem_relayed.mp hkv).1
    exact hstored.writable.1

/-- **All headers but the proxy's own are read back as they were.** -/
theorem lookup_readBack {ord : HeaderOrder} {req : HttpRequest} (h : StoredHeaders req.headers)
    {backendHost clientIp : Bytes} (hhost : IsLine backendHost) (hip : IsLine clientIp) {k : Bytes}
    (hk : k ∉ ownNames) :
    (UnorderedMap.setAll ((ownHeaders backendHost clientIp ++ relayed ord req).map readHeader)
      ∅).lookup k = req.headers.lookup k := by
  have hown : ∀ kv ∈ (ownHeaders backendHost clientIp).map readHeader, kv.1 ≠ k := by
    intro kv hkv heq
    obtain ⟨kv', hkv', rfl⟩ := List.mem_map.mp hkv
    exact hk (heq ▸ (ownHeaders_spec hhost hip kv' hkv').2)
  rw [List.map_append, map_readHeader_relayed h]
  cases hlook : req.headers.lookup k with
  | none =>
    rw [UnorderedMap.lookup_setAll_of_not_mem]
    · rfl
    · intro hmem
      obtain ⟨kv, hkv, hkey⟩ := List.mem_map.mp hmem
      rcases List.mem_append.mp hkv with hkv | hkv
      · exact hown kv hkv hkey
      · rw [← hkey, (mem_relayed.mp hkv).1] at hlook
        cases hlook
  -- what the client sent comes after the proxy's headers, under another name
  | some v =>
    have hneither : k ≠ bytes "host" ∧ k ≠ bytes "connection" := by
      constructor
      · intro heq
        exact hk (heq ▸ by decide)
      · intro heq
        exact hk (heq ▸ by decide)
    apply UnorderedMap.lookup_setAll
    · have hmem : (k, v) ∈ relayed ord req := mem_relayed.mpr ⟨hlook, hneither⟩
      exact List.mem_map.mpr ⟨(k, v), List.mem_append_right _ hmem, rfl⟩
    · intro kv hkv hkey
      rcases List.mem_append.mp hkv with hkv | hkv
      · exact absurd hkey (hown kv hkv)
      · have hlook' := (mem_relayed.mp hkv).1
        rw [hkey, hlook] at hlook'
        exact (Option.some.inj hlook').symm

/-! ## The Path Read Back -/

/-- A byte that stays where it is in a request target. -/
def isPlain (b : UInt8) : Bool := !isSpace b && b != 63

/-- A path that reads back as itself: no blank and no question mark in it, and
    nothing to decode. -/
def ReadsBack (path : Bytes) : Prop :=
  (∀ b ∈ path, isPlain b = true) ∧ urlDecode path = path

theorem isPlain_iff {b : UInt8} : isPlain b = true ↔ isSpace b = false ∧ b ≠ 63 := by
  simp [isPlain]

/-- Cutting the written target at a blank and at a question mark cuts the path at the
    first byte that is not plain. -/
theorem takeWhile_writtenTarget (req : HttpRequest) :
    ((writtenTarget req).takeWhile fun b => !isSpace b).takeWhile (· ≠ 63) =
      req.path.takeWhile isPlain := by
  have hboth : ∀ s : Bytes, (s.takeWhile fun b => !isSpace b).takeWhile (· ≠ 63) =
      s.takeWhile isPlain := by
    intro s
    rw [List.takeWhile_takeWhile]
    congr 1
    funext b
    by_cases hspace : isSpace b = true <;> by_cases hmark : b = 63 <;> simp [isPlain, hspace, hmark]
  -- the query begins with a question mark, so it is cut off
  have hquery : (if req.queryString = [] then [] else bytes "?" ++ req.queryString).takeWhile
      isPlain = [] := by
    have hmark : bytes "?" = [63] := by decide
    split
    · rfl
    · rw [hmark]
      exact List.takeWhile_cons_of_neg (by decide)
  rw [hboth, writtenTarget, List.takeWhile_append, hquery]
  split
  · next hall =>
    rw [List.append_nil]
    exact ((List.takeWhile_prefix isPlain).eq_of_length hall).symm
  · rfl

/-- **The path of a forwarded request**, when the backend accepts it: the plain
    beginning of the path, decoded. -/
theorem path_readBack {req : HttpRequest} (hreq : WellFormed req) {rest : Bytes}
    (hrest : ∀ b ∈ rest.head?, isSpace b = true)
    (hdone : (({} : HttpParser).parse (req.method ++ 32 :: (writtenTarget req ++ rest)) {}).1 = true)
    (hvalid : (({} : HttpParser).parse (req.method ++ 32 :: (writtenTarget req ++ rest)) {}).2.2.isValid
      = true) :
    (({} : HttpParser).parse (req.method ++ 32 :: (writtenTarget req ++ rest)) {}).2.2.path =
      urlDecode (req.path.takeWhile isPlain) := by
  obtain ⟨t, ht⟩ := List.head?_eq_some_iff.mp hreq.path
  -- the target splits into its first word and what follows the first blank
  have hsplit : writtenTarget req ++ rest = ((writtenTarget req).takeWhile fun b => !isSpace b) ++
      (((writtenTarget req).dropWhile fun b => !isSpace b) ++ rest) := by
    rw [← List.append_assoc, List.takeWhile_append_dropWhile]
  have hslash : ((writtenTarget req).takeWhile fun b => !isSpace b).head? = some 47 := by
    rw [writtenTarget, ht, List.cons_append, List.takeWhile_cons_of_pos (by decide)]
    rfl
  have hword : ∀ b ∈ (writtenTarget req).takeWhile (fun b => !isSpace b), isSpace b = false := by
    intro b hb
    simpa using List.mem_takeWhile_imp hb
  have hafter : ∀ b ∈ (((writtenTarget req).dropWhile fun b => !isSpace b) ++ rest).head?,
      isSpace b = true := by
    intro b hb
    rw [List.head?_append] at hb
    rcases hdrop : ((writtenTarget req).dropWhile fun b => !isSpace b).head? with _ | c
    · rw [hdrop] at hb
      exact hrest b hb
    · have hc := dropWhile_head (fun b => !isSpace b) (writtenTarget req) c hdrop
      rw [hdrop] at hb
      obtain rfl := Option.some.inj hb
      simpa using hc
  rw [hsplit] at hdone hvalid ⊢
  rw [path_of_valid hreq.method hslash hword hafter hdone hvalid, takeWhile_writtenTarget]

/-! ## The Request Read Back -/

/-- The same request, apart from the headers the proxy sets itself. -/
structure SameRequest (req req' : HttpRequest) : Prop where
  method : req'.method = req.method
  path : req'.path = req.path
  queryString : req'.queryString = req.queryString
  body : req'.body = req.body
  headers : ∀ k ∉ ownNames, req'.headers.lookup k = req.headers.lookup k

/-- A fresh parser takes the forwarded text as one complete valid request, the same
    as the original one. -/
structure ForwardedAs (req : HttpRequest) (text : Bytes) : Prop where
  done : (({} : HttpParser).parse text {}).1 = true
  isValid : (({} : HttpParser).parse text {}).2.2.isValid = true
  isComplete : (({} : HttpParser).parse text {}).2.2.isComplete = true
  nothingLeft : (({} : HttpParser).parse text {}).2.1.buffer = []
  same : SameRequest req (({} : HttpParser).parse text {}).2.2

theorem writtenLine_eq (req : HttpRequest) :
    writtenLine req = req.method ++ 32 :: (writtenTarget req ++ bytes " HTTP/1.1") := by
  have hspace : bytes " " = [32] := by decide
  simp [writtenLine, hspace]

/-- A target with a plain path is one word. -/
theorem isSpace_writtenTarget {req : HttpRequest} (hreq : WellFormed req)
    (hplain : ∀ b ∈ req.path, isPlain b = true) : ∀ b ∈ writtenTarget req, isSpace b = false := by
  intro b hb
  rcases List.mem_append.mp hb with hb | hb
  · exact (isPlain_iff.mp (hplain b hb)).1
  · split at hb
    · cases hb
    · rcases List.mem_append.mp hb with hb | hb
      · have hmark : ∀ b ∈ bytes "?", isSpace b = false := by decide +kernel
        exact hmark b hb
      · exact hreq.query b hb

/-- A request line with a plain path is one line. -/
theorem not_infix_writtenLine {req : HttpRequest} (hreq : WellFormed req)
    (hplain : ∀ b ∈ req.path, isPlain b = true) : ¬ crlf <:+: writtenLine req := by
  apply not_infix_of_not_mem
  intro hmem
  rw [writtenLine_eq] at hmem
  rcases List.mem_append.mp hmem with hmem | hmem
  · exact absurd ((isValidMethod_word hreq.method).2 13 hmem) (by decide)
  · rcases List.mem_cons.mp hmem with hmem | hmem
    · exact absurd hmem (by decide)
    · rcases List.mem_append.mp hmem with hmem | hmem
      · exact absurd (isSpace_writtenTarget hreq hplain 13 hmem) (by decide)
      · exact absurd hmem (by decide)

theorem parseRequestLine_writtenLine {req : HttpRequest} (hreq : WellFormed req)
    (hpath : ReadsBack req.path) :
    parseRequestLine (writtenLine req) {} = (true,
      { method := req.method
        path := req.path
        queryString := req.queryString
        version := bytes "HTTP/1.1" }) := by
  obtain ⟨hplain, hdecoded⟩ := hpath
  have hmark : (63 : UInt8) ∉ req.path := fun hmem => (isPlain_iff.mp (hplain 63 hmem)).2 rfl
  have hne : writtenTarget req ≠ [] := by
    intro hnil
    have hpathnil : req.path = [] := (List.append_eq_nil_iff.mp hnil).1
    have hslash := hreq.path
    simp [hpathnil] at hslash
  have hversion : bytes " HTTP/1.1" = 32 :: bytes "HTTP/1.1" := by decide
  rw [writtenLine_eq, hversion, parseRequestLine_written hreq.method hne
    (isSpace_writtenTarget hreq hplain) (.inl rfl)]
  unfold writtenTarget
  split
  · next hquery =>
    rw [List.append_nil, setUri_of_not_mem (urlDecode_head hreq.path) hmark, hdecoded, hquery]
  · have hquestion : bytes "?" ++ req.queryString = 63 :: req.queryString := rfl
    rw [hquestion, setUri_append (urlDecode_head hreq.path) hmark, hdecoded]

/-- The request a backend reads when the path reads back as itself. -/
theorem forwarded_of_readsBack (ord : HeaderOrder) {req : HttpRequest} (hreq : WellFormed req)
    {backendHost clientIp : Bytes} (hhost : IsLine backendHost) (hip : IsLine clientIp)
    (hpath : ReadsBack req.path) :
    ForwardedAs req (buildBackendRequest ord req backendHost clientIp) := by
  have hstart := not_infix_writtenLine hreq hpath.1
  have hwritable := writable_headers ord hreq hhost hip
  have hlookup : ∀ k ∉ ownNames, (UnorderedMap.setAll ((ownHeaders backendHost clientIp ++
      relayed ord req).map readHeader) ∅).lookup k = req.headers.lookup k :=
    fun k hk => lookup_readBack hreq.headers hhost hip hk
  have hparse := parse_writeRequest hstart (parseRequestLine_writtenLine hreq hpath) hwritable
    req.body
  rw [← buildBackendRequest_eq] at hparse
  dsimp only at hparse
  have hempty : (∅ : HeaderMap) = ({} : HttpRequest).headers := rfl
  rw [hempty] at hlookup
  generalize UnorderedMap.setAll ((ownHeaders backendHost clientIp ++ relayed ord req).map
    readHeader) ({} : HttpRequest).headers = headers at hparse hlookup
  -- the content length read back is the one of the original request
  have hlength : HttpParser.headerContentLength
      { method := req.method, path := req.path, queryString := req.queryString,
        version := bytes "HTTP/1.1", headers := headers } = req.body.length := by
    rw [hreq.body]
    unfold HttpParser.headerContentLength
    rw [hlookup _ (by decide)]
  rw [hlength] at hparse
  unfold HttpParser.parseBody at hparse
  dsimp only at hparse
  by_cases hpos : req.body.length > 0
  · rw [if_pos hpos, if_pos (Nat.le_refl _), List.drop_length, List.take_length] at hparse
    constructor <;> rw [hparse]
    exact ⟨rfl, rfl, rfl, rfl, hlookup⟩
  · have hnil : req.body = [] := List.eq_nil_of_length_eq_zero (by omega)
    rw [if_neg hpos, hnil] at hparse
    constructor <;> rw [hparse]
    exact ⟨rfl, rfl, rfl, hnil.symm, hlookup⟩

/-- **The backend reads the request the client sent exactly when the decoded path
    reads back as itself.** -/
theorem forwarded_iff (ord : HeaderOrder) {req : HttpRequest} (hreq : Accepted req)
    {backendHost clientIp : Bytes} (hhost : IsLine backendHost) (hip : IsLine clientIp) :
    ForwardedAs req (buildBackendRequest ord req backendHost clientIp) ↔ ReadsBack req.path := by
  have hformed := hreq.wellFormed
  constructor
  · intro h
    -- the target stands between method and version, whatever is in it
    obtain ⟨rest, hrest, hbegin⟩ : ∃ rest, (∀ b ∈ rest.head?, isSpace b = true) ∧
        buildBackendRequest ord req backendHost clientIp =
          req.method ++ 32 :: (writtenTarget req ++ rest) := by
      refine ⟨bytes " HTTP/1.1" ++ (crlf ++ writeLines ((ownHeaders backendHost clientIp ++
        relayed ord req).map fieldLine) ++ crlf ++ req.body), fun b hb => ?_, ?_⟩
      · obtain rfl : 32 = b := Option.some.inj hb
        decide
      · rw [buildBackendRequest_eq, writeRequest, writtenLine_eq]
        simp [writeLines]
    have hpath := h.same.path
    have hdone := h.done
    have hvalid := h.isValid
    rw [hbegin] at hpath hdone hvalid
    rw [path_readBack hformed hrest hdone hvalid] at hpath
    -- a path cut short cannot decode to the whole one
    have hlong := length_urlDecode_le (req.path.takeWhile isPlain)
    rw [hpath] at hlong
    have hwhole : req.path.takeWhile isPlain = req.path :=
      (List.takeWhile_prefix isPlain).eq_of_length_le hlong
    rw [hwhole] at hpath
    exact ⟨List.takeWhile_eq_self_iff.mp hwhole, hpath⟩
  · exact forwarded_of_readsBack ord hformed hhost hip

/-- A request whose path is read back as it is. -/
theorem forwarded_query :
    ForwardedAs (({} : HttpParser).parse (bytes "GET /a?b=c HTTP/1.1\r\nX: y\r\n\r\n") {}).2.2
      (buildBackendRequest UnorderedMap.IterOrder.listed
        (({} : HttpParser).parse (bytes "GET /a?b=c HTTP/1.1\r\nX: y\r\n\r\n") {}).2.2
        (bytes "127.0.0.1:3000") (bytes "10.0.0.1")) ↔
    ReadsBack (({} : HttpParser).parse (bytes "GET /a?b=c HTTP/1.1\r\nX: y\r\n\r\n") {}).2.2.path :=
  forwarded_iff _ (Accepted.of_parse (by decide +kernel) (by decide +kernel)) (by decide) (by decide)

/-- The target `/a%20b` reaches the backend with a blank in its path. -/
theorem forwarded_blank :
    ¬ ∀ (ord : HeaderOrder) (req : HttpRequest) (backendHost clientIp : Bytes), Accepted req →
      IsLine backendHost → IsLine clientIp →
      ForwardedAs req (buildBackendRequest ord req backendHost clientIp) := by
  intro h
  have hforwarded := h UnorderedMap.IterOrder.listed
    (({} : HttpParser).parse (bytes "GET /a%20b HTTP/1.1\r\n\r\n") {}).2.2
    (bytes "127.0.0.1:3000") (bytes "10.0.0.1")
    (Accepted.of_parse (by decide +kernel) (by decide +kernel)) (by decide) (by decide)
  have hvalid := hforwarded.isValid
  revert hvalid
  decide +kernel

end ProxyHandler

end VeloxServe
