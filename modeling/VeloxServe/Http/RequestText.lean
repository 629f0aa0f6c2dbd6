import VeloxServe.Http.Chunking
import VeloxServe.Http.WrittenRequest

/-! # Requests as Text

    The HTTP/1.x text of a request, in any spelling the format allows: path
    bytes as they are or as escapes, header names in any capitalisation, blanks
    around header values, a length in any position among the headers. The
    parser reads all of them back.
-/

namespace VeloxServe

open StdString Message

/-! ## Spelling -/

/-- Space and tab, the blanks inside a line. -/
def isBlank (b : UInt8) : Bool := b == 32 || b == 9

/-- A byte that may stand for itself in a path. -/
structure StandsForItself (b : UInt8) : Prop where
  space : isSpace b = false
  printable : 32 < b ∧ b ≠ 127
  unreserved : b ≠ 37 ∧ b ≠ 43 ∧ b ≠ 63

/-- A path and a way to write it. -/
inductive Escaped : Bytes → Bytes → Prop where
  | nil : Escaped [] []
  | literal {b : UInt8} {path text : Bytes} (hb : StandsForItself b) (h : Escaped path text) :
      Escaped (b :: path) (b :: text)
  | escape {high low : UInt8} {path text : Bytes} (hhigh : isXDigit high = true)
      (hlow : isXDigit low = true) (h : Escaped path text) :
      Escaped ((16 * hexValue high + hexValue low) :: path) (37 :: high :: low :: text)

/-- A header as it is written, `name:value` with the blanks that go with the value. -/
structure IsFieldText (kv : Bytes × Bytes) : Prop where
  name_ne_nil : kv.1 ≠ []
  name_plain : (58 : UInt8) ∉ kv.1 ∧ (13 : UInt8) ∉ kv.1 ∧ (10 : UInt8) ∉ kv.1
  name_stripped : Stripped isBlank kv.1
  value_plain : (13 : UInt8) ∉ kv.2 ∧ (10 : UInt8) ∉ kv.2

def fieldText (kv : Bytes × Bytes) : Bytes := kv.1 ++ 58 :: kv.2

/-- The header it stands for. -/
def fieldMeaning (kv : Bytes × Bytes) : Bytes × Bytes := (toLower kv.1, strip isBlank kv.2)

/-- A request and how it is written. -/
structure RequestText where
  method : Bytes
  path : Bytes
  writtenPath : Bytes
  /-- Whether `?` is written. -/
  mark : Bool
  query : Bytes
  version : Bytes
  headers : List (Bytes × Bytes)
  body : Bytes
  method_valid : isValidMethod method = true
  version_valid : IsVersion version
  path_slash : path.head? = some 47
  path_escaped : Escaped path writtenPath
  query_plain : ∀ b ∈ query, isSpace b = false
  query_marked : mark = false → query = []
  headers_text : ∀ kv ∈ headers, IsFieldText kv
  headers_distinct : (headers.map fun kv => toLower kv.1).Nodup
  length_announced : ∀ kv ∈ headers, toLower kv.1 = bytes "content-length" →
    IsNumeral (strip isBlank kv.2) body.length
  length_absent : (∀ kv ∈ headers, toLower kv.1 ≠ bytes "content-length") → body = []
  /-- A length is a `size_t`. -/
  length_fits : body.length < 2 ^ 64

namespace RequestText

def target (r : RequestText) : Bytes := r.writtenPath ++ if r.mark then 63 :: r.query else []

def requestLine (r : RequestText) : Bytes := r.method ++ 32 :: (r.target ++ 32 :: r.version)

/-- The whole text. -/
def text (r : RequestText) : Bytes :=
  writeLines (r.requestLine :: r.headers.map fieldText) ++ crlf ++ r.body

/-- The parser has read the request, with `rest` left over. -/
structure ReadFrom (r : RequestText) (rest : Bytes) (result : Bool × HttpParser × HttpRequest) :
    Prop where
  done : result.1 = true
  isValid : result.2.2.isValid = true
  isComplete : result.2.2.isComplete = true
  method : result.2.2.method = r.method
  path : result.2.2.path = r.path
  query : result.2.2.queryString = r.query
  version : result.2.2.version = r.version
  headers : ∀ k v, result.2.2.headers.lookup k = some v ↔ (k, v) ∈ r.headers.map fieldMeaning
  body : result.2.2.body = r.body
  rest : result.2.1.buffer = rest

end RequestText

/-! ## The Target -/

theorem urlDecode_cons {b : UInt8} (h : b ≠ 37) (s : Bytes) :
    urlDecode (b :: s) = decodeByte b :: urlDecode s := by
  rcases s with _ | ⟨c, _ | ⟨d, s⟩⟩
  · rfl
  · rfl
  · exact if_neg fun hescape => h hescape.1

/-- **Decoding undoes every way to write a path.** -/
theorem Escaped.urlDecode_eq {path text : Bytes} (h : Escaped path text) : urlDecode text = path := by
  induction h with
  | nil => rfl
  | literal hb _ ih =>
    have hplus : ∀ b, StandsForItself b → decodeByte b = b := fun b hb => if_neg hb.unreserved.2.1
    rw [urlDecode_cons hb.unreserved.1, ih, hplus _ hb]
  | escape hhigh hlow _ ih =>
    have hescape : ∀ high low, isXDigit high = true → isXDigit low = true → ∀ s,
        urlDecode (37 :: high :: low :: s) = (16 * hexValue high + hexValue low) :: urlDecode s :=
      fun high low hhigh hlow s => if_pos ⟨rfl, hhigh, hlow⟩
    rw [hescape _ _ hhigh hlow, ih]

/-- No blank and no `?` is written for a path. -/
theorem Escaped.plain {path text : Bytes} (h : Escaped path text) :
    ∀ b ∈ text, isSpace b = false ∧ b ≠ 63 := by
  have hdigit : ∀ b, isXDigit b = true → isSpace b = false ∧ b ≠ 63 := by decide +kernel
  have hpercent : isSpace 37 = false ∧ (37 : UInt8) ≠ 63 := by decide
  -- a literal stands for itself, an escape is made of `%` and digits
  induction h with
  | nil => simp
  | literal hb _ ih =>
    intro c hc
    rcases List.mem_cons.mp hc with rfl | hc
    · exact ⟨hb.space, hb.unreserved.2.2⟩
    · exact ih c hc
  | @escape high low _ _ hhigh hlow _ ih =>
    intro c hc
    rcases List.mem_cons.mp hc with rfl | hc
    · exact hpercent
    · rcases List.mem_cons.mp hc with rfl | hc
      · exact hdigit c hhigh
      · rcases List.mem_cons.mp hc with rfl | hc
        · exact hdigit c hlow
        · exact ih c hc

namespace RequestText

variable (r : RequestText)

theorem writtenPath_slash : (urlDecode r.writtenPath).head? = some 47 := by
  rw [r.path_escaped.urlDecode_eq]
  exact r.path_slash

theorem target_plain : r.target ≠ [] ∧ ∀ b ∈ r.target, isSpace b = false := by
  have hmark : isSpace 63 = false := by decide
  constructor
  · intro hnil
    have hslash := r.writtenPath_slash
    rw [(List.append_eq_nil_iff.mp hnil).1] at hslash
    cases hslash
  · intro b hb
    rcases List.mem_append.mp hb with hb | hb
    · exact (r.path_escaped.plain b hb).1
    · split at hb
      · rcases List.mem_cons.mp hb with rfl | hb
        · exact hmark
        · exact r.query_plain b hb
      · cases hb

/-- The request line gives method, path, query and version. -/
theorem parseRequestLine_eq :
    parseRequestLine r.requestLine {} = (true,
      { method := r.method, path := r.path, queryString := r.query, version := r.version }) := by
  obtain ⟨hne, hplain⟩ := r.target_plain
  have hmark : (63 : UInt8) ∉ r.writtenPath := fun hmem => (r.path_escaped.plain 63 hmem).2 rfl
  unfold requestLine
  rw [parseRequestLine_written r.method_valid hne hplain r.version_valid]
  unfold target
  -- with a `?` the query is cut off at it, without one it is empty
  split
  · rw [setUri_append r.writtenPath_slash hmark, r.path_escaped.urlDecode_eq]
  · next hno =>
    have hquery := r.query_marked (by simpa using hno)
    rw [List.append_nil, setUri_of_not_mem r.writtenPath_slash hmark, r.path_escaped.urlDecode_eq,
      hquery]

theorem not_infix_requestLine : ¬ crlf <:+: r.requestLine := by
  apply not_infix_of_not_mem
  have hversion : (13 : UInt8) ∉ r.version := by
    rcases r.version_valid with h | h <;> rw [h] <;> decide
  intro hmem
  rcases List.mem_append.mp hmem with hmem | hmem
  · exact absurd ((isValidMethod_word r.method_valid).2 13 hmem) (by decide)
  · rcases List.mem_cons.mp hmem with hmem | hmem
    · exact absurd hmem (by decide)
    · rcases List.mem_append.mp hmem with hmem | hmem
      · exact absurd (r.target_plain.2 13 hmem) (by decide)
      · rcases List.mem_cons.mp hmem with hmem | hmem
        · exact absurd hmem (by decide)
        · exact hversion hmem

end RequestText

/-! ## The Headers -/

theorem IsFieldText.line {kv : Bytes × Bytes} (h : IsFieldText kv) :
    fieldText kv ≠ [] ∧ (10 : UInt8) ∉ fieldText kv ∧ (fieldText kv).getLast? ≠ some 13 := by
  have hreturn : (13 : UInt8) ∉ fieldText kv := by
    simp [fieldText, h.name_plain.2.1, h.value_plain.1]
  refine ⟨by simp [fieldText], by simp [fieldText, h.name_plain.2.2, h.value_plain.2], ?_⟩
  exact fun hlast => hreturn (List.mem_of_getLast? hlast)

/-- Without line breaks, `trim` strips blanks. -/
theorem trim_eq_strip {s : Bytes} (h : (13 : UInt8) ∉ s ∧ (10 : UInt8) ∉ s) :
    trim s = strip isBlank s := by
  apply strip_congr
  intro b hb
  have hreturn : (b == 13) = false := beq_eq_false_iff_ne.mpr fun heq => h.1 (heq ▸ hb)
  have hfeed : (b == 10) = false := beq_eq_false_iff_ne.mpr fun heq => h.2 (heq ▸ hb)
  simp [isTrimmed, isBlank, hreturn, hfeed]

/-- A header is read in whatever way it is written. -/
theorem headerEntry_fieldText {kv : Bytes × Bytes} (h : IsFieldText kv) :
    headerEntry (fieldText kv) = some (fieldMeaning kv) := by
  obtain ⟨hne, -, hlast⟩ := h.line
  have hcolon : bytes ":" = [58] := by decide
  have hfind : find (bytes ":") (fieldText kv) = some kv.1.length := by
    rw [hcolon]
    exact find_singleton _ h.name_plain.1
  have htake : (fieldText kv).take kv.1.length = kv.1 := List.take_left
  have hdrop : (fieldText kv).drop (kv.1.length + 1) = kv.2 := by simp [fieldText]
  have hname : trim kv.1 = kv.1 := by
    rw [trim_eq_strip h.name_plain.2]
    exact h.name_stripped.strip_eq
  unfold headerEntry
  rw [if_neg hlast, if_neg hne, hfind]
  dsimp only [Option.map_some]
  rw [htake, hdrop, readHeader, hname, trim_eq_strip h.value_plain]
  rfl

theorem filterMap_fieldText {kvs : List (Bytes × Bytes)} (h : ∀ kv ∈ kvs, IsFieldText kv) :
    (kvs.map fieldText).filterMap headerEntry = kvs.map fieldMeaning := by
  rw [List.filterMap_map, ← List.filterMap_eq_map]
  exact List.filterMap_congr fun kv hkv => headerEntry_fieldText (h kv hkv)

namespace RequestText

variable (r : RequestText)

theorem lookup_headers (k v : Bytes) :
    (UnorderedMap.setAll (r.headers.map fieldMeaning) ∅).lookup k = some v ↔
      (k, v) ∈ r.headers.map fieldMeaning := by
  apply UnorderedMap.lookup_setAll_nodup
  rw [List.map_map]
  exact r.headers_distinct

/-- The parser takes the length of the body from the headers. -/
theorem headerContentLength_eq (req : HttpRequest) :
    HttpParser.headerContentLength
      { req with headers := UnorderedMap.setAll (r.headers.map fieldMeaning) ∅ } =
        r.body.length := by
  unfold HttpParser.headerContentLength
  dsimp only
  -- a length that is announced is the right one; otherwise the body is empty
  cases hlook : (UnorderedMap.setAll (r.headers.map fieldMeaning) ∅).lookup
      (bytes "content-length") with
  | some v =>
    obtain ⟨kv, hkv, hmeaning⟩ := List.mem_map.mp ((r.lookup_headers _ v).mp hlook)
    obtain ⟨hname, rfl⟩ := Prod.mk.inj hmeaning
    have hnumeral := r.length_announced kv hkv hname
    dsimp only
    rw [hnumeral.stoul r.length_fits]
  | none =>
    have hbody := r.length_absent fun kv hkv hname => by
      have hmem : (bytes "content-length", strip isBlank kv.2) ∈ r.headers.map fieldMeaning :=
        List.mem_map.mpr ⟨kv, hkv, by rw [fieldMeaning, hname]⟩
      rw [(r.lookup_headers _ _).mpr hmem] at hlook
      cases hlook
    rw [hbody]
    rfl

/-- **The parser undoes every way to write a request**, whatever follows it. -/
theorem parse_text (rest : Bytes) :
    r.ReadFrom rest (({} : HttpParser).parse (r.text ++ rest) {}) := by
  have hlines : ∀ line ∈ r.headers.map fieldText,
      line ≠ [] ∧ (10 : UInt8) ∉ line ∧ line.getLast? ≠ some 13 := by
    intro line hline
    obtain ⟨kv, hkv, rfl⟩ := List.mem_map.mp hline
    exact (r.headers_text kv hkv).line
  have hparse := parse_writeLines r.not_infix_requestLine r.parseRequestLine_eq hlines
    (r.body ++ rest)
  have htext : r.text ++ rest =
      writeLines (r.requestLine :: r.headers.map fieldText) ++ crlf ++ (r.body ++ rest) := by
    simp [text]
  have hlength := r.headerContentLength_eq
    { method := r.method, path := r.path, queryString := r.query, version := r.version }
  rw [filterMap_fieldText r.headers_text] at hparse
  dsimp only at hparse hlength
  rw [hlength] at hparse
  rw [htext, hparse, HttpParser.parseBody_enough _ (by rw [List.length_append]; omega)]
  refine ⟨rfl, rfl, rfl, rfl, rfl, rfl, rfl, r.lookup_headers, ?_, List.drop_left⟩
  show (if r.body.length = 0 then [] else (r.body ++ rest).take r.body.length) = r.body
  split
  · next hzero => exact (List.length_eq_zero_iff.mp hzero).symm
  · exact List.take_left

/-- An escaped slash, a query and a length in front of another header. -/
def searchRequest : RequestText where
  method := bytes "POST"
  path := bytes "/a b"
  writtenPath := bytes "%2Fa%20b"
  mark := true
  query := bytes "q=1"
  version := bytes "HTTP/1.0"
  headers := [(bytes "CONTENT-length", bytes "\t2 "), (bytes "Host", bytes "x")]
  body := bytes "hi"
  method_valid := by decide
  version_valid := .inr rfl
  path_slash := rfl
  path_escaped := by
    have hletter : ∀ b : UInt8, b = 97 ∨ b = 98 → StandsForItself b := by
      rintro b (rfl | rfl)
      · exact ⟨by decide, by decide, by decide⟩
      · exact ⟨by decide, by decide, by decide⟩
    have hspelt : Escaped [47, 97, 32, 98] [37, 50, 70, 97, 37, 50, 48, 98] :=
      @Escaped.escape 50 70 _ _ rfl rfl <| .literal (hletter 97 (.inl rfl)) <|
        @Escaped.escape 50 48 _ _ rfl rfl <| .literal (hletter 98 (.inr rfl)) .nil
    exact hspelt
  query_plain := by decide +kernel
  query_marked := by decide
  headers_text := by
    intro kv hkv
    rcases List.mem_pair.mp hkv with rfl | rfl <;>
      exact ⟨by decide, by decide, ⟨by decide +kernel, by decide +kernel⟩, by decide⟩
  headers_distinct := by decide
  length_announced := by
    intro kv hkv hname
    rcases List.mem_pair.mp hkv with rfl | rfl
    · exact ⟨by decide, by decide +kernel, by decide⟩
    · exact absurd hname (by decide)
  length_absent := fun h => absurd rfl (h _ List.mem_cons_self)
  length_fits := by decide

example : searchRequest.text =
    bytes "POST %2Fa%20b?q=1 HTTP/1.0\r\nCONTENT-length:\t2 \r\nHost:x\r\n\r\nhi" := by
  decide +kernel

end RequestText

end VeloxServe
