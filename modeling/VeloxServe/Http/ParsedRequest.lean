import VeloxServe.Http.RequestFraming

/-! # Parsed Requests

    What is known of a request the parser has accepted, however its bytes were
    cut into pieces: its method is one of the supported ones, its path starts
    with a slash, its query contains no blanks, its header names and values are
    trimmed lines, and its body has the length its headers announce.
-/

namespace VeloxServe

open StdString Message

/-! ## Accepted Requests -/

/-- The parser has been fed, from scratch, and asks for more. -/
inductive Feeding (clientIp : Bytes) : HttpParser → HttpRequest → Prop where
  | start : Feeding clientIp {} { clientIp := clientIp }
  | more : ∀ {p p' : HttpParser} {req req' : HttpRequest} (data : Bytes),
      Feeding clientIp p req → p.parse data req = (false, p', req') → Feeding clientIp p' req'

/-- A call of `parse` completes the request as valid. -/
def Accepted (req : HttpRequest) : Prop :=
  ∃ clientIp p p' req₀ data, Feeding clientIp p req₀ ∧ p.parse data req₀ = (true, p', req) ∧
    req.isValid = true

/-- The request an accepted header section gives, before its body. -/
def SectionGives (clientIp : Bytes) (req : HttpRequest) : Prop :=
  ∃ headerSection,
    HttpParser.parseHeaderSection headerSection { clientIp := clientIp } = (true, req)

/-- What the parser and the request are between two calls. -/
inductive BetweenCalls (clientIp : Bytes) (p : HttpParser) (req : HttpRequest) : Prop where
  | headers (hparsed : p.headersParsed = false) (hreq : req = { clientIp := clientIp })
  | body (hparsed : p.headersParsed = true) (hgives : SectionGives clientIp req)
      (hlength : p.contentLength = HttpParser.headerContentLength req)

/-- What one `parse` call returns. -/
inductive ParseCase (clientIp : Bytes) : Bool × HttpParser × HttpRequest → Prop where
  | pending {p : HttpParser} {req : HttpRequest} (h : BetweenCalls clientIp p req) :
      ParseCase clientIp (false, p, req)
  | invalid {p : HttpParser} {req : HttpRequest} (h : req.isValid = false) :
      ParseCase clientIp (true, p, req)
  | complete {p : HttpParser} {req : HttpRequest} (h : SectionGives clientIp req) (body : Bytes)
      (hbody : if HttpParser.headerContentLength req = 0 then body = req.body
        else body.length = HttpParser.headerContentLength req) :
      ParseCase clientIp
        (true, p, { req with body := body, isComplete := true, isValid := true })

/-! ## The Header Section -/

/-- A header as the parser stores it. -/
structure IsStored (k v : Bytes) : Prop where
  lower : toLower k = k
  keyTrimmed : Stripped isTrimmed k
  keyColon : (58 : UInt8) ∉ k
  keyLine : (10 : UInt8) ∉ k
  valueTrimmed : Stripped isTrimmed v
  valueLine : (10 : UInt8) ∉ v

def StoredHeaders (m : HeaderMap) : Prop := ∀ k v, m.lookup k = some v → IsStored k v

/-- What an accepted request is like. -/
structure WellFormed (req : HttpRequest) : Prop where
  method : isValidMethod req.method = true
  path : req.path.head? = some 47
  query : ∀ b ∈ req.queryString, isSpace b = false
  headers : StoredHeaders req.headers
  body : req.body.length = HttpParser.headerContentLength req

theorem toLowerByte_isTrimmed (b : UInt8) : isTrimmed (toLowerByte b) = isTrimmed b := by
  revert b
  decide +kernel

theorem toLowerByte_eq_iff {c : UInt8} (hc : c = 10 ∨ c = 58) (b : UInt8) :
    toLowerByte b = c ↔ b = c := by
  revert b
  rcases hc with rfl | rfl <;> decide +kernel

theorem not_mem_toLower {c : UInt8} (hc : c = 10 ∨ c = 58) {s : Bytes} (h : c ∉ s) :
    c ∉ toLower s := by
  intro hmem
  obtain ⟨b, hb, hbc⟩ := List.mem_map.mp hmem
  exact h ((toLowerByte_eq_iff hc b).mp hbc ▸ hb)

/-- One line keeps the headers stored as they should be. -/
theorem StoredHeaders.parseHeaderLine {req : HttpRequest} {line : Bytes}
    (h : StoredHeaders req.headers) (hline : (10 : UInt8) ∉ line) :
    StoredHeaders (parseHeaderLine req line).headers := by
  unfold VeloxServe.parseHeaderLine
  dsimp only
  -- a carriage return at the end is dropped first
  have hsub : (if line.getLast? = some 13 then line.dropLast else line).Sublist line := by
    split
    · exact List.dropLast_sublist line
    · exact List.Sublist.refl line
  generalize (if line.getLast? = some 13 then line.dropLast else line) = line' at hsub
  have hline' : (10 : UInt8) ∉ line' := fun hmem => hline (hsub.subset hmem)
  split
  · exact h
  · split
    · exact h
    · next colon hcolon =>
      have hc : bytes ":" = [58] := by decide
      rw [hc] at hcolon
      -- the name has no colon, as the first one ends it
      obtain ⟨name, value, rfl, hname, rfl⟩ := find_singleton_split hcolon
      intro k v hlook
      rw [UnorderedMap.lookup_set] at hlook
      split at hlook
      · next hk =>
        obtain rfl := Option.some.inj hlook
        have htake : (name ++ 58 :: value).take name.length = name := by simp
        have hdrop : (name ++ 58 :: value).drop (name.length + 1) = value := by simp
        have hkey := (strip_sublist isTrimmed name).subset
        have hval := (strip_sublist isTrimmed value).subset
        rw [hk, htake, hdrop]
        constructor
        · exact toLower_toLower _
        · exact (strip_stripped isTrimmed name).map toLowerByte_isTrimmed
        · exact not_mem_toLower (.inr rfl) fun hmem => hname (hkey hmem)
        · exact not_mem_toLower (.inl rfl) fun hmem => hline' (by simp [hkey hmem])
        · exact strip_stripped isTrimmed value
        · exact fun hmem => hline' (by simp [hval hmem])
      · exact h k v hlook

theorem parseHeaderLine_frame (req : HttpRequest) (line : Bytes) :
    ∃ headers, parseHeaderLine req line = { req with headers := headers } := by
  unfold parseHeaderLine
  dsimp only
  generalize (if line.getLast? = some 13 then line.dropLast else line) = line'
  split
  · exact ⟨_, rfl⟩
  · split
    · exact ⟨_, rfl⟩
    · exact ⟨_, rfl⟩

/-- The header lines change nothing but the headers. -/
theorem foldl_parseHeaderLine {lines : List Bytes} (hlines : ∀ line ∈ lines, (10 : UInt8) ∉ line)
    (req : HttpRequest) (h : StoredHeaders req.headers) :
    ∃ headers, lines.foldl parseHeaderLine req = { req with headers := headers } ∧
      StoredHeaders headers := by
  induction lines generalizing req with
  | nil => exact ⟨req.headers, rfl, h⟩
  | cons line lines ih =>
    obtain ⟨headers, hstep⟩ := parseHeaderLine_frame req line
    have hstored := h.parseHeaderLine (hlines line List.mem_cons_self)
    rw [hstep] at hstored
    obtain ⟨headers', hrest, hstored'⟩ :=
      ih (fun l hl => hlines l (List.mem_cons_of_mem _ hl)) _ hstored
    exact ⟨headers', by rw [List.foldl_cons, hstep, hrest], hstored'⟩

theorem setUri_spec {uri : Bytes} (huri : ∀ b ∈ uri, isSpace b = false) (req : HttpRequest)
    (hquery : req.queryString = []) :
    ∃ path query, setUri uri req = { req with path := path, queryString := query } ∧
      path.head? = some 47 ∧ ∀ b ∈ query, isSpace b = false := by
  -- a path without a slash in front gets one
  have hslash : ∀ req : HttpRequest, ∃ path,
      (if req.path.head? = some 47 then req else { req with path := 47 :: req.path }) =
        { req with path := path } ∧ path.head? = some 47 := by
    intro req
    split
    · next hhead => exact ⟨req.path, rfl, hhead⟩
    · exact ⟨47 :: req.path, rfl, rfl⟩
  unfold setUri
  dsimp only
  split
  · next queryPos _ =>
    obtain ⟨path, heq, hhead⟩ := hslash { req with
      path := urlDecode (uri.take queryPos)
      queryString := uri.drop (queryPos + 1) }
    exact ⟨path, uri.drop (queryPos + 1), heq, hhead, fun b hb => huri b (List.mem_of_mem_drop hb)⟩
  · obtain ⟨path, heq, hhead⟩ := hslash { req with path := urlDecode uri }
    refine ⟨path, [], ?_, hhead, by simp⟩
    rw [heq, ← hquery]

/-- An accepted request line. -/
theorem parseRequestLine_spec {line : Bytes} {req req' : HttpRequest}
    (hquery : req.queryString = []) (h : parseRequestLine line req = (true, req')) :
    ∃ method path query version, req' = { req with
        method := method, path := path, queryString := query, version := version } ∧
      isValidMethod method = true ∧ path.head? = some 47 ∧ ∀ b ∈ query, isSpace b = false := by
  unfold parseRequestLine at h
  split at h
  · cases h
  next method stream _ =>
  dsimp only at h
  split at h
  · cases h
  next uri stream' huri =>
  split at h
  · cases h
  next version rest _ =>
  split at h
  · cases h
  · next hmethod =>
    split at h
    · cases h
    · obtain ⟨path, query, hset, hpath, hq⟩ :=
        setUri_spec (extractWord_word huri).2 { req with method := method, version := version }
          hquery
      obtain ⟨-, rfl⟩ := Prod.mk.inj h
      exact ⟨method, path, query, version, hset, by simpa using hmethod, hpath, hq⟩

/-- An accepted header section gives a request without a body. -/
theorem SectionGives.spec {clientIp : Bytes} {req : HttpRequest} (h : SectionGives clientIp req) :
    isValidMethod req.method = true ∧ req.path.head? = some 47 ∧
      (∀ b ∈ req.queryString, isSpace b = false) ∧ StoredHeaders req.headers ∧ req.body = [] := by
  obtain ⟨headerSection, h⟩ := h
  unfold HttpParser.parseHeaderSection at h
  generalize HttpParser.splitRequestLine headerSection = lines at h
  obtain ⟨requestLine, remainingHeaders⟩ := lines
  have hlines : ∀ line ∈ getlines 10 remainingHeaders, (10 : UInt8) ∉ line :=
    fun line hl => not_mem_of_mem_getlines hl
  dsimp only at h
  rcases hline : parseRequestLine requestLine { clientIp := clientIp } with ⟨_ | _, req₁⟩
  · rw [hline] at h
    cases h
  rw [hline] at h
  obtain ⟨method, path, query, version, rfl, hmethod, hpath, hquery⟩ :=
    parseRequestLine_spec rfl hline
  dsimp only at h
  have hempty : StoredHeaders (∅ : HeaderMap) := by
    intro k v hlook
    cases hlook
  -- without header lines the header map stays empty
  split at h
  · obtain ⟨-, rfl⟩ := Prod.mk.inj h
    exact ⟨hmethod, hpath, hquery, hempty, rfl⟩
  · obtain ⟨headers, hfold, hstored⟩ :=
      foldl_parseHeaderLine hlines { ({ clientIp := clientIp } : HttpRequest) with
        method := method, path := path, queryString := query, version := version } hempty
    unfold parseHeaders at h
    rw [hfold] at h
    obtain ⟨-, rfl⟩ := Prod.mk.inj h
    exact ⟨hmethod, hpath, hquery, hstored, rfl⟩

/-! ## Feeding the Parser -/

/-- Stage 2, once the headers have been read. -/
theorem parseBody_case {clientIp : Bytes} {p : HttpParser} {req : HttpRequest}
    (hparsed : p.headersParsed = true) (hgives : SectionGives clientIp req)
    (hlength : p.contentLength = HttpParser.headerContentLength req) :
    ParseCase clientIp (p.parseBody req) := by
  unfold HttpParser.parseBody
  split
  · next hpos =>
    have hne : HttpParser.headerContentLength req ≠ 0 := by omega
    split
    · next henough =>
      apply ParseCase.complete hgives _
      rw [if_neg hne, List.length_take]
      omega
    · exact .pending (.body hparsed hgives hlength)
  · next hzero =>
    have heq : HttpParser.headerContentLength req = 0 := by omega
    exact ParseCase.complete hgives req.body (by rw [if_pos heq])

/-- **Step lemma**: one call keeps parser and request as they should be, or ends
    the request. -/
theorem parse_case {clientIp : Bytes} {p : HttpParser} {req : HttpRequest}
    (h : BetweenCalls clientIp p req) (data : Bytes) : ParseCase clientIp (p.parse data req) := by
  unfold HttpParser.parse
  dsimp only
  cases h with
  | headers hparsed hreq =>
    rw [if_neg (by simp [hparsed]), hreq]
    -- the blank line has not come yet, or stage 1 runs
    split
    · exact .pending (.headers hparsed rfl)
    · next headerEnd _ =>
      rcases hsection : HttpParser.parseHeaderSection ((p.buffer ++ data).take headerEnd)
        { clientIp := clientIp } with ⟨_ | _, req'⟩
      · exact .invalid (parseHeaderSection_isValid hsection)
      · exact parseBody_case rfl ⟨_, hsection⟩ rfl
  | body hparsed hgives hlength =>
    rw [if_pos hparsed]
    exact parseBody_case hparsed hgives hlength

/-- **Run lemma**: between two calls. -/
theorem Feeding.between {clientIp : Bytes} {p : HttpParser} {req : HttpRequest}
    (h : Feeding clientIp p req) : BetweenCalls clientIp p req := by
  induction h with
  | start => exact .headers rfl rfl
  | more data _ hstep ih =>
    have hcase := parse_case ih data
    rw [hstep] at hcase
    cases hcase with
    | pending h => exact h

/-- What an accepted request comes from. -/
theorem Accepted.exists_section {req : HttpRequest} (h : Accepted req) :
    ∃ clientIp req₁ body, SectionGives clientIp req₁ ∧
      (if HttpParser.headerContentLength req₁ = 0 then body = req₁.body
        else body.length = HttpParser.headerContentLength req₁) ∧
      req = { req₁ with body := body, isComplete := true, isValid := true } := by
  obtain ⟨clientIp, p, p', req₀, data, hfeeding, hparse, hvalid⟩ := h
  have hcase := parse_case hfeeding.between data
  rw [hparse] at hcase
  cases hcase with
  | invalid h =>
    rw [h] at hvalid
    cases hvalid
  | complete hgives body hbody => exact ⟨clientIp, _, body, hgives, hbody, rfl⟩

/-- **Every accepted request is well formed.** -/
theorem Accepted.wellFormed {req : HttpRequest} (h : Accepted req) : WellFormed req := by
  obtain ⟨clientIp, req₁, body, hgives, hbody, rfl⟩ := h.exists_section
  obtain ⟨hmethod, hpath, hquery, hheaders, hempty⟩ := hgives.spec
  refine ⟨hmethod, hpath, hquery, hheaders, ?_⟩
  show body.length = HttpParser.headerContentLength req₁
  -- a request without a length keeps the empty body it began with
  split at hbody
  · next hzero => rw [hbody, hempty, hzero]; rfl
  · exact hbody

/-- A request that one call on a fresh parser accepts. -/
theorem Accepted.of_parse {clientIp w : Bytes}
    (hdone : (({} : HttpParser).parse w { clientIp := clientIp }).1 = true)
    (hvalid : (({} : HttpParser).parse w { clientIp := clientIp }).2.2.isValid = true) :
    Accepted (({} : HttpParser).parse w { clientIp := clientIp }).2.2 :=
  ⟨clientIp, {}, _, _, w, .start, Prod.ext hdone rfl, hvalid⟩

end VeloxServe
