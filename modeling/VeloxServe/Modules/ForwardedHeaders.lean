import VeloxServe.Http.HeaderBlock
import VeloxServe.Modules.ProxyForwarding

/-! # Whose Headers a Backend Reads

    `build_backend_request` writes the decoded path, then its own headers, then the
    client's except `host` and `connection`, the values as the client sent them. So a
    client reaches the header block in two ways: with a header the proxy does not
    withhold, and with a CRLF in the path.
-/

namespace VeloxServe

open StdString Message HttpResponse

namespace ProxyHandler

/-! ## The Written Block -/

/-- The headers that the CRLFs of a decoded path open in the request line. -/
def openedEntries (req : HttpRequest) : List (Bytes × Bytes) := blockEntries (writtenLine req)

theorem writtenLine_getLast? (req : HttpRequest) : (writtenLine req).getLast? ≠ some 13 := by
  have hversion : (bytes " HTTP/1.1").getLast? = some 49 := by decide
  rw [writtenLine, List.getLast?_append, hversion]
  simp

/-- Only the path can put a blank line into the request line. -/
theorem blankLine_writtenLine {req : HttpRequest} (hreq : WellFormed req) :
    blankLine <:+: writtenLine req ++ crlf ↔ blankLine <:+: req.path := by
  have hblank : (32 : UInt8) ∉ blankLine := by decide
  have hmark : (63 : UInt8) ∉ blankLine := by decide
  have hreturn : (13 : UInt8) ∈ blankLine := by decide
  have hline : writtenLine req ++ crlf =
      req.method ++ 32 :: (writtenTarget req ++ 32 :: (bytes "HTTP/1.1" ++ crlf)) := by
    have hversion : bytes " HTTP/1.1" = 32 :: bytes "HTTP/1.1" := by decide
    rw [writtenLine_eq, hversion]
    simp
  constructor
  · intro hin
    rw [hline] at hin
    have hmethod : ¬ blankLine <:+: req.method := fun hin =>
      absurd ((isValidMethod_word hreq.method).2 13 (hin.subset hreturn)) (by decide)
    have hversion : ¬ blankLine <:+: bytes "HTTP/1.1" ++ crlf := by decide
    have hquery : ¬ blankLine <:+: req.queryString := fun hin =>
      absurd (hreq.query 13 (hin.subset hreturn)) (by decide)
    -- the blanks around the target separate it from method and version
    rcases infix_append_cons hblank hin with hin | hin
    · exact absurd hin hmethod
    rcases infix_append_cons hblank hin with hin | hin
    · unfold writtenTarget at hin
      split at hin
      · rwa [List.append_nil] at hin
      · have hquestion : bytes "?" ++ req.queryString = 63 :: req.queryString := rfl
        rw [hquestion] at hin
        rcases infix_append_cons hmark hin with hin | hin
        · exact hin
        · exact absurd hin hquery
    · exact absurd hin hversion
  · intro hin
    have hpath : req.path <:+: writtenLine req ++ crlf := by
      rw [hline, writtenTarget]
      refine ⟨req.method ++ [32], (if req.queryString = [] then [] else
        bytes "?" ++ req.queryString) ++ 32 :: (bytes "HTTP/1.1" ++ crlf), ?_⟩
      simp
    exact hin.trans hpath

/-- **What a backend reads of a forwarded request**: the headers the path opens, the
    proxy's own, the client's. -/
theorem readAs_buildBackendRequest (ord : HeaderOrder) {req : HttpRequest} (hreq : WellFormed req)
    {backendHost clientIp : Bytes} (hhost : IsLine backendHost) (hip : IsLine clientIp)
    (entries : List (Bytes × Bytes)) :
    ReadAs (buildBackendRequest ord req backendHost clientIp) entries req.body ↔
      ¬ blankLine <:+: req.path ∧ entries = openedEntries req ++
        ((ownHeaders backendHost clientIp).map readHeader ++ relayed ord req) := by
  have hwritable := writable_headers ord hreq hhost hip
  have hne : ownHeaders backendHost clientIp ++ relayed ord req ≠ [] := by simp [ownHeaders]
  rw [buildBackendRequest_eq, readAs_writeRequest (writtenLine_getLast? req) hwritable hne,
    blankLine_writtenLine hreq, List.map_append, map_readHeader_relayed hreq.headers]
  rfl

/-! ## The Proxy's Own Headers -/

/-- Each of the proxy's headers is there once, and says what the proxy says. -/
def OwnHeadersOnce (text body : Bytes) (own : List (Bytes × Bytes)) : Prop :=
  ∃ entries, ReadAs text entries body ∧ ∀ kv ∈ own, SaysOnce entries (readHeader kv)

/-- The names the relay loop does not withhold. -/
def forwardingNames : List Bytes :=
  [bytes "x-forwarded-for", bytes "x-real-ip", bytes "x-forwarded-proto"]

/-- The client has not spoken in the proxy's name. -/
structure SpeaksForItself (req : HttpRequest) : Prop where
  block : ¬ blankLine <:+: req.path
  path : ∀ e ∈ openedEntries req, e.1 ∉ ownNames
  headers : ∀ name ∈ forwardingNames, req.headers.lookup name = none

theorem ownHeaders_names (backendHost clientIp : Bytes) :
    ((ownHeaders backendHost clientIp).map readHeader).map Prod.fst = ownNames := by
  have hnames : [bytes "Host", bytes "X-Forwarded-For", bytes "X-Real-IP",
      bytes "X-Forwarded-Proto", bytes "Connection"].map (fun k => toLower (trim k)) = ownNames := by
    decide
  exact hnames

theorem filter_ownHeaders {backendHost clientIp : Bytes} {kv : Bytes × Bytes}
    (hkv : kv ∈ (ownHeaders backendHost clientIp).map readHeader) :
    ((ownHeaders backendHost clientIp).map readHeader).filter (fun e => e.1 = kv.1) = [kv] := by
  apply filter_of_nodup _ hkv
  rw [ownHeaders_names]
  decide

/-- A header occurs once exactly when nothing in front of it or behind it has its name. -/
theorem saysOnce_append {before own after : List (Bytes × Bytes)} {kv : Bytes × Bytes}
    (hown : own.filter (fun e => e.1 = kv.1) = [kv]) :
    SaysOnce (before ++ (own ++ after)) kv ↔
      (∀ e ∈ before, e.1 ≠ kv.1) ∧ ∀ e ∈ after, e.1 ≠ kv.1 := by
  have hnone : ∀ es : List (Bytes × Bytes),
      es.filter (fun e => e.1 = kv.1) = [] ↔ ∀ e ∈ es, e.1 ≠ kv.1 := by simp
  rw [saysOnce_iff, List.filter_append, List.filter_append, hown, ← hnone, ← hnone]
  constructor
  · intro h
    have hlength := congrArg List.length h
    simp only [List.length_append, List.length_cons, List.length_nil] at hlength
    exact ⟨List.eq_nil_of_length_eq_zero (by omega), List.eq_nil_of_length_eq_zero (by omega)⟩
  · rintro ⟨hbefore, hafter⟩
    rw [hbefore, hafter]
    rfl

/-- The client's headers reach one of the proxy's names only under a name the loop relays. -/
theorem relayed_names {ord : HeaderOrder} {req : HttpRequest} :
    (∀ e ∈ relayed ord req, e.1 ∉ ownNames) ↔
      ∀ name ∈ forwardingNames, req.headers.lookup name = none := by
  -- of the five names `host` and `connection` are withheld
  have hnames : ∀ name, name ∈ ownNames ↔
      name = bytes "host" ∨ name ∈ forwardingNames ∨ name = bytes "connection" := by
    intro name
    simp [ownNames, forwardingNames, or_assoc]
  have hkept : ∀ name ∈ forwardingNames, name ≠ bytes "host" ∧ name ≠ bytes "connection" := by
    decide
  constructor
  · intro h name hname
    rw [Option.eq_none_iff_forall_ne_some]
    intro v hlook
    exact h (name, v) (mem_relayed.mpr ⟨hlook, hkept name hname⟩)
      ((hnames name).mpr (.inr (.inl hname)))
  · intro h e he hown
    obtain ⟨hlook, hhost, hconnection⟩ := mem_relayed.mp he
    rcases (hnames e.1).mp hown with heq | hname | heq
    · exact hhost heq
    · rw [h e.1 hname] at hlook
      cases hlook
    · exact hconnection heq

/-- A name is the proxy's when one of its headers has it. -/
theorem mem_ownNames (backendHost clientIp name : Bytes) :
    name ∈ ownNames ↔ ∃ kv ∈ ownHeaders backendHost clientIp, (readHeader kv).1 = name := by
  rw [← ownHeaders_names backendHost clientIp, List.map_map, List.mem_map]
  rfl

section

variable {ord : HeaderOrder} {req : HttpRequest} {backendHost clientIp : Bytes}

theorem saysOnce_own {kv : Bytes × Bytes} (hkv : kv ∈ ownHeaders backendHost clientIp) :
    SaysOnce (openedEntries req ++ ((ownHeaders backendHost clientIp).map readHeader ++
        relayed ord req)) (readHeader kv) ↔
      (∀ e ∈ openedEntries req, e.1 ≠ (readHeader kv).1) ∧
        ∀ e ∈ relayed ord req, e.1 ≠ (readHeader kv).1 :=
  saysOnce_append (filter_ownHeaders (List.mem_map_of_mem hkv))

/-- Whoever reads the proxy's headers once has a client that speaks for itself. -/
theorem OwnHeadersOnce.speaksForItself (hreq : WellFormed req) (hhost : IsLine backendHost)
    (hip : IsLine clientIp)
    (h : OwnHeadersOnce (buildBackendRequest ord req backendHost clientIp) req.body
      (ownHeaders backendHost clientIp)) : SpeaksForItself req := by
  obtain ⟨entries, hentries, honce⟩ := h
  obtain ⟨hblock, rfl⟩ := (readAs_buildBackendRequest ord hreq hhost hip entries).mp hentries
  constructor
  · exact hblock
  · intro e he hown
    obtain ⟨kv, hkv, heq⟩ := (mem_ownNames backendHost clientIp e.1).mp hown
    exact ((saysOnce_own hkv).mp (honce kv hkv)).1 e he heq.symm
  · apply relayed_names.mp
    intro e he hown
    obtain ⟨kv, hkv, heq⟩ := (mem_ownNames backendHost clientIp e.1).mp hown
    exact ((saysOnce_own hkv).mp (honce kv hkv)).2 e he heq.symm

theorem SpeaksForItself.ownHeadersOnce (hreq : WellFormed req) (hhost : IsLine backendHost)
    (hip : IsLine clientIp) (h : SpeaksForItself req) :
    OwnHeadersOnce (buildBackendRequest ord req backendHost clientIp) req.body
      (ownHeaders backendHost clientIp) := by
  have hread := (readAs_buildBackendRequest ord hreq hhost hip _).mpr ⟨h.block, rfl⟩
  refine ⟨_, hread, fun kv hkv => (saysOnce_own hkv).mpr ⟨?_, ?_⟩⟩
  · intro e he heq
    exact h.path e he ((mem_ownNames backendHost clientIp e.1).mpr ⟨kv, hkv, heq.symm⟩)
  · intro e he heq
    exact relayed_names.mpr h.headers e he
      ((mem_ownNames backendHost clientIp e.1).mpr ⟨kv, hkv, heq.symm⟩)

/-- **The backend reads the proxy's headers, each once, exactly when the client has not
    sent a forwarding header and has not written one into the path.** -/
theorem ownHeadersOnce_iff (ord : HeaderOrder) (hreq : Accepted req) (hhost : IsLine backendHost)
    (hip : IsLine clientIp) :
    OwnHeadersOnce (buildBackendRequest ord req backendHost clientIp) req.body
      (ownHeaders backendHost clientIp) ↔ SpeaksForItself req :=
  ⟨fun h => h.speaksForItself hreq.wellFormed hhost hip,
    fun h => h.ownHeadersOnce hreq.wellFormed hhost hip⟩

end

/-- A request with an ordinary header. -/
theorem ownHeadersOnce_plain :
    OwnHeadersOnce
      (buildBackendRequest UnorderedMap.IterOrder.listed
        (({} : HttpParser).parse (bytes "GET /a HTTP/1.1\r\nX: y\r\n\r\n") {}).2.2
        (bytes "127.0.0.1:3000") (bytes "10.0.0.1"))
      (({} : HttpParser).parse (bytes "GET /a HTTP/1.1\r\nX: y\r\n\r\n") {}).2.2.body
      (ownHeaders (bytes "127.0.0.1:3000") (bytes "10.0.0.1")) ↔
    SpeaksForItself (({} : HttpParser).parse (bytes "GET /a HTTP/1.1\r\nX: y\r\n\r\n") {}).2.2 :=
  ownHeadersOnce_iff _ (Accepted.of_parse (by decide +kernel) (by decide +kernel)) (by decide)
    (by decide)

/-- A client that names another client. -/
theorem ownHeadersOnce_spoofed :
    ¬ ∀ (ord : HeaderOrder) (req : HttpRequest) (backendHost clientIp : Bytes), Accepted req →
      IsLine backendHost → IsLine clientIp →
      OwnHeadersOnce (buildBackendRequest ord req backendHost clientIp) req.body
        (ownHeaders backendHost clientIp) := by
  intro h
  have haccepted : Accepted (({} : HttpParser).parse
      (bytes "GET / HTTP/1.1\r\nX-Forwarded-For: 1.2.3.4\r\n\r\n") {}).2.2 :=
    Accepted.of_parse (by decide +kernel) (by decide +kernel)
  have honce := h UnorderedMap.IterOrder.listed _ (bytes "127.0.0.1:3000") (bytes "10.0.0.1")
    haccepted (by decide) (by decide)
  have hheaders := (honce.speaksForItself haccepted.wellFormed (by decide) (by decide)).headers
    (bytes "x-forwarded-for") (by decide)
  revert hheaders
  decide +kernel

/-! ## The Length of the Body -/

/-- The text says unambiguously where its body ends: it is not sent in chunks, a body
    has a length, and every length is the number of bytes behind the blank line. -/
structure FramesBody (text body : Bytes) (entries : List (Bytes × Bytes)) : Prop where
  read : ReadAs text entries body
  coding : ∀ e ∈ entries, e.1 ≠ bytes "transfer-encoding"
  announced : body ≠ [] → ∃ e ∈ entries, e.1 = bytes "content-length"
  length : ∀ e ∈ entries, e.1 = bytes "content-length" → IsNumeral e.2 body.length

/-- The number `stoul` reads is all there is to the value. -/
def PlainLength (v : Bytes) : Prop := ∃ n < 2 ^ 64, IsNumeral v n

/-- The request has one plain length at most, and its path opens no header that says
    anything else about the body. -/
structure PlainFraming (req : HttpRequest) : Prop where
  block : ¬ blankLine <:+: req.path
  coding : req.headers.lookup (bytes "transfer-encoding") = none
  length : ∀ v, req.headers.lookup (bytes "content-length") = some v → PlainLength v
  path : ∀ e ∈ openedEntries req, e.1 ≠ bytes "transfer-encoding" ∧
    (e.1 = bytes "content-length" → IsNumeral e.2 req.body.length)

/-- The parser takes a plain length for what it says, and only that. -/
theorem plainLength_iff {req : HttpRequest} (hreq : WellFormed req) {v : Bytes}
    (hlook : req.headers.lookup (bytes "content-length") = some v) :
    PlainLength v ↔ IsNumeral v req.body.length := by
  have hbody := hreq.body
  unfold HttpParser.headerContentLength at hbody
  rw [hlook] at hbody
  dsimp only at hbody
  constructor
  · rintro ⟨n, hn, hv⟩
    rw [hv.stoul hn] at hbody
    dsimp only at hbody
    rw [hbody]
    exact hv
  · intro hv
    refine ⟨req.body.length, ?_, hv⟩
    -- a number `stoul` has no room for would count as 0
    by_contra hbig
    have hrange : stoul v = .error .outOfRange := by
      unfold stoul
      rw [hv.scanInteger]
      exact if_pos (by omega)
    rw [hrange] at hbody
    dsimp only at hbody
    omega

section

variable {ord : HeaderOrder} {req : HttpRequest} {backendHost clientIp : Bytes}

/-- What is said about the body is said by the path or by the client's headers. -/
theorem mem_entries {name : Bytes} (hname : name ∉ ownNames) {v : Bytes} :
    (name, v) ∈ openedEntries req ++ ((ownHeaders backendHost clientIp).map readHeader ++
        relayed ord req) ↔
      (name, v) ∈ openedEntries req ∨ req.headers.lookup name = some v := by
  have hkept : name ≠ bytes "host" ∧ name ≠ bytes "connection" := by
    constructor
    · rintro rfl
      exact hname (by decide)
    · rintro rfl
      exact hname (by decide)
  -- the proxy says nothing about the body
  have hown : (name, v) ∉ (ownHeaders backendHost clientIp).map readHeader := by
    intro hmem
    obtain ⟨kv, hkv, heq⟩ := List.mem_map.mp hmem
    exact hname ((mem_ownNames backendHost clientIp name).mpr ⟨kv, hkv, by rw [heq]⟩)
  rw [List.mem_append, List.mem_append, mem_relayed]
  simp [hown, hkept]

theorem FramesBody.plainFraming (hreq : WellFormed req) (hhost : IsLine backendHost)
    (hip : IsLine clientIp) {entries : List (Bytes × Bytes)}
    (h : FramesBody (buildBackendRequest ord req backendHost clientIp) req.body entries) :
    PlainFraming req := by
  obtain ⟨hblock, rfl⟩ := (readAs_buildBackendRequest ord hreq hhost hip entries).mp h.read
  constructor
  · exact hblock
  · rw [Option.eq_none_iff_forall_ne_some]
    intro v hlook
    exact h.coding _ ((mem_entries (by decide)).mpr (.inr hlook)) rfl
  · intro v hlook
    rw [plainLength_iff hreq hlook]
    exact h.length _ ((mem_entries (by decide)).mpr (.inr hlook)) rfl
  · intro e he
    have hmem := List.mem_append_left
      ((ownHeaders backendHost clientIp).map readHeader ++ relayed ord req) he
    exact ⟨h.coding e hmem, h.length e hmem⟩

theorem PlainFraming.framesBody (hreq : WellFormed req) (hhost : IsLine backendHost)
    (hip : IsLine clientIp) (h : PlainFraming req) :
    FramesBody (buildBackendRequest ord req backendHost clientIp) req.body
      (openedEntries req ++ ((ownHeaders backendHost clientIp).map readHeader ++
        relayed ord req)) := by
  constructor
  · exact (readAs_buildBackendRequest ord hreq hhost hip _).mpr ⟨h.block, rfl⟩
  · rintro ⟨name, v⟩ he rfl
    rcases (mem_entries (by decide)).mp he with he | hlook
    · exact (h.path _ he).1 rfl
    · rw [h.coding] at hlook
      cases hlook
  · intro hbody
    cases hlook : req.headers.lookup (bytes "content-length") with
    | some v => exact ⟨_, (mem_entries (by decide)).mpr (.inr hlook), rfl⟩
    | none =>
      -- without a length the parser reads no body
      have hzero : req.body.length = 0 := by
        rw [hreq.body, HttpParser.headerContentLength, hlook]
      exact absurd (List.eq_nil_of_length_eq_zero hzero) hbody
  · rintro ⟨name, v⟩ he rfl
    rcases (mem_entries (by decide)).mp he with he | hlook
    · exact (h.path _ he).2 rfl
    · exact (plainLength_iff hreq hlook).mp (h.length v hlook)

/-- **A forwarded request says where its body ends exactly when the length of the
    original one is a plain numeral, its body has no transfer coding and its path says
    nothing about it.** -/
theorem framesBody_iff (ord : HeaderOrder) (hreq : Accepted req) (hhost : IsLine backendHost)
    (hip : IsLine clientIp) :
    (∃ entries, FramesBody (buildBackendRequest ord req backendHost clientIp) req.body entries) ↔
      PlainFraming req :=
  ⟨fun ⟨_, h⟩ => h.plainFraming hreq.wellFormed hhost hip,
    fun h => ⟨_, h.framesBody hreq.wellFormed hhost hip⟩⟩

end

/-- A request with a body of two bytes. -/
theorem framesBody_plain :
    (∃ entries, FramesBody
      (buildBackendRequest UnorderedMap.IterOrder.listed
        (({} : HttpParser).parse (bytes "POST /a HTTP/1.1\r\nContent-Length: 2\r\n\r\nhi") {}).2.2
        (bytes "127.0.0.1:3000") (bytes "10.0.0.1"))
      (({} : HttpParser).parse (bytes "POST /a HTTP/1.1\r\nContent-Length: 2\r\n\r\nhi") {}).2.2.body
      entries) ↔
    PlainFraming
      (({} : HttpParser).parse (bytes "POST /a HTTP/1.1\r\nContent-Length: 2\r\n\r\nhi") {}).2.2 :=
  framesBody_iff _ (Accepted.of_parse (by decide +kernel) (by decide +kernel)) (by decide)
    (by decide)

/-- A transfer coding reaches the backend, without the chunks it announces. -/
theorem framesBody_chunked :
    ¬ ∀ (ord : HeaderOrder) (req : HttpRequest) (backendHost clientIp : Bytes), Accepted req →
      IsLine backendHost → IsLine clientIp →
      ∃ entries, FramesBody (buildBackendRequest ord req backendHost clientIp) req.body entries := by
  intro h
  have haccepted : Accepted (({} : HttpParser).parse
      (bytes "POST / HTTP/1.1\r\nTransfer-Encoding: chunked\r\n\r\n") {}).2.2 :=
    Accepted.of_parse (by decide +kernel) (by decide +kernel)
  obtain ⟨entries, hframes⟩ := h UnorderedMap.IterOrder.listed _ (bytes "127.0.0.1:3000")
    (bytes "10.0.0.1") haccepted (by decide) (by decide)
  have hcoding := (hframes.plainFraming haccepted.wellFormed (by decide) (by decide)).coding
  revert hcoding
  decide +kernel

end ProxyHandler

end VeloxServe
