import VeloxServe.Http.HttpResponse
import VeloxServe.Http.ParsedRequest

/-! # Reading Written Requests

    How the parser reads a request that was written out line by line: a request
    line, header lines `"Name: value"`, a blank line and a body.
-/

namespace VeloxServe

open StdString Message HttpResponse

/-! ## Header Lines -/

/-- A header that can be written as one line. -/
structure IsWritable (kv : Bytes × Bytes) : Prop where
  colon : (58 : UInt8) ∉ kv.1
  keyLine : (10 : UInt8) ∉ kv.1
  valueLine : (10 : UInt8) ∉ kv.2
  valueEnd : kv.2.getLast? ≠ some 13

/-- The header the parser makes of a written one. -/
def readHeader (kv : Bytes × Bytes) : Bytes × Bytes := (toLower (trim kv.1), trim kv.2)

theorem IsWritable.not_mem {kv : Bytes × Bytes} (h : IsWritable kv) :
    (10 : UInt8) ∉ fieldLine kv := by
  have hsep : bytes ": " = [58, 32] := by decide
  unfold fieldLine
  rw [hsep]
  simp [h.keyLine, h.valueLine]

theorem IsWritable.getLast? {kv : Bytes × Bytes} (h : IsWritable kv) :
    (fieldLine kv).getLast? ≠ some 13 := by
  have hsep : bytes ": " = [58, 32] := by decide
  unfold fieldLine
  rw [hsep, List.getLast?_append]
  cases hv : kv.2.getLast? with
  | none => simp
  | some b =>
    have hb := h.valueEnd
    rw [hv] at hb
    exact hb

/-- A stored header is written in one line and read back as it is. -/
theorem IsStored.writable {kv : Bytes × Bytes} (h : IsStored kv.1 kv.2) :
    IsWritable kv ∧ readHeader kv = kv := by
  have hend : kv.2.getLast? ≠ some 13 := by
    intro hlast
    exact absurd (h.valueTrimmed.last 13 hlast) (by decide)
  refine ⟨⟨h.keyColon, h.keyLine, h.valueLine, hend⟩, ?_⟩
  unfold readHeader trim
  rw [h.keyTrimmed.strip_eq, h.valueTrimmed.strip_eq, h.lower]

/-- The header one line of a header section holds, as `parse_headers` reads it. -/
def headerEntry (line : Bytes) : Option (Bytes × Bytes) :=
  let line := if line.getLast? = some 13 then line.dropLast else line
  if line = [] then none
  else (find (bytes ":") line).map fun colon => readHeader (line.take colon, line.drop (colon + 1))

/-- The headers of a section, every occurrence of them. -/
def headerEntries (headerSection : Bytes) : List (Bytes × Bytes) :=
  (getlines 10 headerSection).filterMap headerEntry

theorem parseHeaderLine_eq (req : HttpRequest) (line : Bytes) :
    parseHeaderLine req line =
      { req with headers := UnorderedMap.setAll (headerEntry line).toList req.headers } := by
  unfold parseHeaderLine headerEntry
  dsimp only
  generalize (if line.getLast? = some 13 then line.dropLast else line) = line'
  by_cases hnil : line' = []
  · rw [if_pos hnil, if_pos hnil]
    rfl
  · rw [if_neg hnil, if_neg hnil]
    cases find (bytes ":") line' <;> rfl

/-- Of several occurrences of a header, the parser keeps the last one. -/
theorem foldl_parseHeaderLine_eq (lines : List Bytes) (req : HttpRequest) :
    lines.foldl parseHeaderLine req =
      { req with headers := UnorderedMap.setAll (lines.filterMap headerEntry) req.headers } := by
  induction lines generalizing req with
  | nil => rfl
  | cons line lines ih =>
    have hsplit : (line :: lines).filterMap headerEntry =
        (headerEntry line).toList ++ lines.filterMap headerEntry := by
      rw [List.filterMap_cons]
      cases headerEntry line <;> rfl
    rw [List.foldl_cons, ih, parseHeaderLine_eq, hsplit, UnorderedMap.setAll_append]

theorem parseHeaders_eq (headerSection : Bytes) (req : HttpRequest) :
    parseHeaders headerSection req = (true,
      { req with headers := UnorderedMap.setAll (headerEntries headerSection) req.headers }) := by
  unfold parseHeaders headerEntries
  rw [foldl_parseHeaderLine_eq]

/-- The carriage return that a cut at newlines leaves is ignored. -/
theorem headerEntry_return {line : Bytes} (h : line.getLast? ≠ some 13) :
    headerEntry (line ++ [13]) = headerEntry line := by
  unfold headerEntry
  rw [List.getLast?_concat, if_pos rfl, List.dropLast_concat, if_neg h]

theorem headerEntry_fieldLine {kv : Bytes × Bytes} (h : IsWritable kv) :
    headerEntry (fieldLine kv) = some (readHeader kv) := by
  have hcut : fieldLine kv = kv.1 ++ 58 :: (32 :: kv.2) := by
    have hsep : bytes ": " = [58, 32] := by decide
    simp [fieldLine, hsep]
  have hfind : find (bytes ":") (fieldLine kv) = some kv.1.length := by
    have hcolon : bytes ":" = [58] := by decide
    rw [hcut, hcolon]
    exact find_singleton _ h.colon
  have hdrop : (kv.1 ++ 58 :: (32 :: kv.2)).drop (kv.1.length + 1) = 32 :: kv.2 := by simp
  have hblank : trim (32 :: kv.2) = trim kv.2 := strip_cons (by decide) kv.2
  unfold headerEntry
  rw [if_neg h.getLast?, if_neg (fieldLine_ne_nil kv), hfind]
  dsimp only [Option.map_some]
  rw [hcut, List.take_left, hdrop, readHeader, hblank]
  rfl

theorem headerEntries_of_not_mem {line : Bytes} (h : (10 : UInt8) ∉ line) :
    headerEntries line = (headerEntry line).toList := by
  unfold headerEntries
  rw [getlines_of_not_mem h]
  split
  · next hnil =>
    rw [hnil]
    rfl
  · rw [List.filterMap_cons]
    cases headerEntry line <;> rfl

/-- Cutting a section at a CRLF cuts its headers. -/
theorem headerEntries_append {x : Bytes} (hx : x.getLast? ≠ some 13) (y : Bytes) :
    headerEntries (x ++ crlf ++ y) = headerEntries x ++ headerEntries y := by
  -- by induction on the length of `x`, one line of it at a time
  induction hlen : x.length using Nat.strongRecOn generalizing x with
  | ind n ih =>
    by_cases hline : (10 : UInt8) ∈ x
    · obtain ⟨line, x', rfl, hline'⟩ := List.eq_append_cons_of_mem hline
      have hx' : x'.getLast? ≠ some 13 := by
        intro hlast
        apply hx
        rw [List.getLast?_append, List.getLast?_cons, hlast]
        rfl
      have hshorter : x'.length < n := by
        rw [← hlen, List.length_append, List.length_cons]
        omega
      have hrest := ih x'.length hshorter hx' rfl
      unfold headerEntries at hrest ⊢
      have hcut : line ++ 10 :: x' ++ crlf ++ y = line ++ 10 :: (x' ++ crlf ++ y) := by simp
      rw [hcut, getlines_append hline', getlines_append hline', List.filterMap_cons,
        List.filterMap_cons, hrest]
      cases headerEntry line <;> rfl
    · have hreturn : (10 : UInt8) ∉ x ++ [13] := by simpa using hline
      have hcut : x ++ crlf ++ y = (x ++ [13]) ++ 10 :: y := by simp [crlf]
      rw [headerEntries_of_not_mem hline, hcut]
      unfold headerEntries
      rw [getlines_append hreturn, List.filterMap_cons, headerEntry_return hx]
      cases headerEntry x <;> rfl

/-- Cutting joined lines at newlines gives the same headers as the lines. -/
theorem headerEntries_joinLines {lines : List Bytes}
    (h : ∀ line ∈ lines, (10 : UInt8) ∉ line ∧ line.getLast? ≠ some 13) :
    headerEntries (joinLines lines) = lines.filterMap headerEntry := by
  induction lines with
  | nil => rfl
  | cons line lines ih =>
    obtain ⟨hline, hlast⟩ := h line List.mem_cons_self
    have hrest := ih fun l hl => h l (List.mem_cons_of_mem _ hl)
    have hone := headerEntries_of_not_mem hline
    rw [List.filterMap_cons]
    by_cases hnil : lines = []
    · rw [hnil]
      show headerEntries line = _
      rw [hone]
      cases headerEntry line <;> rfl
    · rw [joinLines_cons _ hnil, headerEntries_append hlast, hrest, hone]
      cases headerEntry line <;> rfl

theorem filterMap_fieldLine {kvs : List (Bytes × Bytes)} (h : ∀ kv ∈ kvs, IsWritable kv) :
    (kvs.map fieldLine).filterMap headerEntry = kvs.map readHeader := by
  rw [List.filterMap_map, ← List.filterMap_eq_map]
  exact List.filterMap_congr fun kv hkv => headerEntry_fieldLine (h kv hkv)

/-! ## The Request Line -/

theorem length_urlDecode_le (s : Bytes) : (urlDecode s).length ≤ s.length := by
  fun_induction urlDecode s with
  | case1 => exact Nat.le_refl _
  | case2 b => exact Nat.le_refl _
  | case3 b c ih => exact Nat.succ_le_succ ih
  | case4 b high low str h ih =>
    simp only [List.length_cons]
    omega
  | case5 b high low str h ih => exact Nat.succ_le_succ ih

theorem urlDecode_slash (s : Bytes) : (urlDecode (47 :: s)).head? = some 47 := by
  rcases s with _ | ⟨b, _ | ⟨c, s⟩⟩
  · rfl
  · rfl
  · have hescape : ¬ ((47 : UInt8) = 37 ∧ isXDigit b = true ∧ isXDigit c = true) := by simp
    unfold urlDecode
    rw [if_neg hescape]
    rfl

theorem urlDecode_head {s : Bytes} (h : s.head? = some 47) : (urlDecode s).head? = some 47 := by
  obtain ⟨t, rfl⟩ := List.head?_eq_some_iff.mp h
  exact urlDecode_slash t

theorem setUri_of_not_mem {path : Bytes} (hslash : (urlDecode path).head? = some 47)
    (hmark : (63 : UInt8) ∉ path) (req : HttpRequest) :
    setUri path req = { req with path := urlDecode path } := by
  have hquestion : bytes "?" = [63] := by decide
  unfold setUri
  rw [hquestion, find_singleton_eq_none.mpr hmark]
  dsimp only
  rw [if_pos hslash]

theorem setUri_append {path : Bytes} (hslash : (urlDecode path).head? = some 47)
    (hmark : (63 : UInt8) ∉ path) (query : Bytes) (req : HttpRequest) :
    setUri (path ++ 63 :: query) req =
      { req with path := urlDecode path, queryString := query } := by
  have hquestion : bytes "?" = [63] := by decide
  have htake : (path ++ 63 :: query).take path.length = path := List.take_left
  have hdrop : (path ++ 63 :: query).drop (path.length + 1) = query := by simp
  unfold setUri
  rw [hquestion, find_singleton query hmark]
  dsimp only
  rw [if_pos (by rw [htake]; exact hslash), htake, hdrop]

/-- What the parser takes for the path of a target that begins with a slash. -/
theorem setUri_path {uri : Bytes} (h : uri.head? = some 47) (req : HttpRequest) :
    (setUri uri req).path = urlDecode (uri.takeWhile (· ≠ 63)) := by
  by_cases hmark : (63 : UInt8) ∈ uri
  · obtain ⟨path, query, rfl, hpath⟩ := List.eq_append_cons_of_mem hmark
    have hslash : path.head? = some 47 := by
      cases path with
      | nil => simp at h
      | cons b path => exact h
    have hplain : ∀ b ∈ path, decide (b ≠ 63) = true := by
      intro b hb
      have hne : b ≠ 63 := fun heq => hpath (heq ▸ hb)
      simpa using hne
    rw [setUri_append (urlDecode_head hslash) hpath, List.takeWhile_append_of_pos hplain]
    simp
  · have hall : uri.takeWhile (· ≠ 63) = uri := by
      rw [List.takeWhile_eq_self_iff]
      intro b hb
      have hne : b ≠ 63 := fun heq => hmark (heq ▸ hb)
      simpa using hne
    rw [setUri_of_not_mem (urlDecode_head h) hmark, hall]

theorem isValidMethod_word {method : Bytes} (h : isValidMethod method = true) :
    method ≠ [] ∧ ∀ b ∈ method, isSpace b = false := by
  have hall : ∀ m ∈ [bytes "GET", bytes "POST", bytes "PUT", bytes "DELETE", bytes "HEAD",
      bytes "OPTIONS"], m ≠ [] ∧ ∀ b ∈ m, isSpace b = false := by decide +kernel
  apply hall
  simpa [isValidMethod, or_assoc] using h

/-- The first two words of a line. -/
theorem extractWord_two {method word rest : Bytes} (hmethod : isValidMethod method = true)
    (hne : word ≠ []) (hword : ∀ b ∈ word, isSpace b = false)
    (hrest : ∀ b ∈ rest.head?, isSpace b = true) :
    extractWord (method ++ 32 :: (word ++ rest)) = some (method, 32 :: (word ++ rest)) ∧
      extractWord (32 :: (word ++ rest)) = some (word, rest) := by
  obtain ⟨hmne, hletters⟩ := isValidMethod_word hmethod
  have hblank : isSpace 32 = true := by decide
  constructor
  · exact extractWord_append hmne hletters fun b hb => Option.some.inj hb ▸ hblank
  · rw [extractWord_space hblank]
    exact extractWord_append hne hword hrest

/-- A supported version. -/
def IsVersion (version : Bytes) : Prop := version = bytes "HTTP/1.1" ∨ version = bytes "HTTP/1.0"

theorem extractWord_version {version : Bytes} (h : IsVersion version) :
    extractWord (32 :: version) = some (version, []) := by
  rcases h with rfl | rfl <;> decide

theorem setUri_version (uri : Bytes) (req : HttpRequest) :
    (setUri uri req).version = req.version := by
  unfold setUri
  dsimp only
  split
  · split <;> rfl
  · split <;> rfl

theorem parseRequestLine_version {line : Bytes} {req req' : HttpRequest}
    (h : parseRequestLine line req = (true, req')) : IsVersion req'.version := by
  unfold parseRequestLine at h
  split at h
  · cases h
  dsimp only at h
  split at h
  · cases h
  split at h
  · cases h
  split at h
  · cases h
  split at h
  · cases h
  · next hversion =>
    obtain ⟨-, rfl⟩ := Prod.mk.inj h
    rw [setUri_version]
    by_contra hno
    exact hversion (not_or.mp hno)

theorem SectionGives.version {clientIp : Bytes} {req : HttpRequest} (h : SectionGives clientIp req) :
    IsVersion req.version := by
  obtain ⟨headerSection, h⟩ := h
  unfold HttpParser.parseHeaderSection at h
  generalize HttpParser.splitRequestLine headerSection = lines at h
  obtain ⟨requestLine, remainingHeaders⟩ := lines
  dsimp only at h
  rcases hline : parseRequestLine requestLine { clientIp := clientIp } with ⟨_ | _, req₁⟩
  · rw [hline] at h
    cases h
  rw [hline] at h
  have hversion := parseRequestLine_version hline
  dsimp only at h
  split at h
  · obtain ⟨-, rfl⟩ := Prod.mk.inj h
    exact hversion
  · rw [parseHeaders_eq] at h
    obtain ⟨-, rfl⟩ := Prod.mk.inj h
    exact hversion

theorem Accepted.version {req : HttpRequest} (h : Accepted req) : IsVersion req.version := by
  obtain ⟨_, req₁, body, hgives, -, rfl⟩ := h.exists_section
  exact hgives.version

/-- A request line as it is written. -/
theorem parseRequestLine_written {method target version : Bytes}
    (hmethod : isValidMethod method = true) (hne : target ≠ [])
    (htarget : ∀ b ∈ target, isSpace b = false) (hversion : IsVersion version) (req : HttpRequest) :
    parseRequestLine (method ++ 32 :: (target ++ 32 :: version)) req =
      (true, setUri target { req with method := method, version := version }) := by
  have hblank : isSpace 32 = true := by decide
  have hrest : ∀ b ∈ (32 :: version).head?, isSpace b = true := fun b hb =>
    Option.some.inj hb ▸ hblank
  have hno : ¬ (version ≠ bytes "HTTP/1.1" ∧ version ≠ bytes "HTTP/1.0") := by
    rintro ⟨hnew, hold⟩
    exact hversion.elim hnew hold
  obtain ⟨hfirst, hsecond⟩ := extractWord_two hmethod hne htarget hrest
  unfold parseRequestLine
  rw [hfirst]
  dsimp only
  rw [hsecond]
  dsimp only
  rw [extractWord_version hversion]
  dsimp only
  rw [if_neg (by simp [hmethod]), if_neg hno]

/-- An accepted text begins with an accepted request line. -/
theorem requestLine_of_valid {text : Bytes} (hdone : (({} : HttpParser).parse text {}).1 = true)
    (hvalid : (({} : HttpParser).parse text {}).2.2.isValid = true) :
    ∃ line req, line ++ crlf <+: text ∧ parseRequestLine line {} = (true, req) ∧
      (({} : HttpParser).parse text {}).2.2.path = req.path := by
  -- without a blank line the parser would wait for more
  rcases he : find blankLine text with _ | e
  · have hfalse : (({} : HttpParser).parse text {}).1 = false := by
      unfold HttpParser.parse
      simp [he]
    rw [hfalse] at hdone
    cases hdone
  -- a refused header section leaves the request invalid
  rcases hsection : HttpParser.parseHeaderSection (text.take e) {} with ⟨_ | _, req⟩
  · have hparse : (({} : HttpParser).parse text {}).2.2 = req := by
      unfold HttpParser.parse
      simp [he, hsection]
    rw [hparse, parseHeaderSection_isValid hsection] at hvalid
    cases hvalid
  have hpath : (({} : HttpParser).parse text {}).2.2.path = req.path := by
    rw [parse_fresh he hsection]
    unfold HttpParser.parseBody
    split
    · split <;> rfl
    · rfl
  -- the line ends at the first CRLF, or at the blank line when there are no headers
  have hline : (HttpParser.splitRequestLine (text.take e)).1 ++ crlf <+: text := by
    unfold HttpParser.splitRequestLine
    split
    · next i hi =>
      obtain ⟨t, ht⟩ := find_spec hi
      have hcut : (text.take e).take i ++ crlf <+: text.take e := by
        refine ⟨t, ?_⟩
        rw [List.append_assoc, ht, List.take_append_drop]
      exact hcut.trans (List.take_prefix _ _)
    · obtain ⟨t, ht⟩ := find_spec he
      refine ⟨crlf ++ t, ?_⟩
      have hblank : crlf ++ (crlf ++ t) = blankLine ++ t := by simp [blankLine]
      rw [List.append_assoc, hblank, ht, List.take_append_drop]
  unfold HttpParser.parseHeaderSection at hsection
  generalize HttpParser.splitRequestLine (text.take e) = lines at hsection hline
  obtain ⟨line, remainingHeaders⟩ := lines
  dsimp only at hsection hline
  rcases hparse : parseRequestLine line {} with ⟨_ | _, req₁⟩
  · rw [hparse] at hsection
    cases hsection
  rw [hparse] at hsection
  dsimp only at hsection
  refine ⟨line, req₁, hline, hparse, hpath.trans ?_⟩
  split at hsection
  · obtain ⟨-, rfl⟩ := Prod.mk.inj hsection
    rfl
  · rw [parseHeaders_eq] at hsection
    obtain ⟨-, rfl⟩ := Prod.mk.inj hsection
    rfl

/-- **The path of an accepted text** is decoded from its second word, however the
    text goes on. -/
theorem path_of_valid {method word rest : Bytes} (hmethod : isValidMethod method = true)
    (hslash : word.head? = some 47) (hword : ∀ b ∈ word, isSpace b = false)
    (hrest : ∀ b ∈ rest.head?, isSpace b = true)
    (hdone : (({} : HttpParser).parse (method ++ 32 :: (word ++ rest)) {}).1 = true)
    (hvalid : (({} : HttpParser).parse (method ++ 32 :: (word ++ rest)) {}).2.2.isValid = true) :
    (({} : HttpParser).parse (method ++ 32 :: (word ++ rest)) {}).2.2.path =
      urlDecode (word.takeWhile (· ≠ 63)) := by
  obtain ⟨line, req, ⟨t, ht⟩, hline, hpath⟩ := requestLine_of_valid hdone hvalid
  obtain ⟨hne, hletters⟩ := isValidMethod_word hmethod
  have hwordne : word ≠ [] := by
    intro hnil
    simp [hnil] at hslash
  -- the line goes at least as far as the second word, where no CRLF can begin
  have hclean : (13 : UInt8) ∉ method ++ 32 :: word := by
    intro hmem
    rcases List.mem_append.mp hmem with hmem | hmem
    · exact absurd (hletters 13 hmem) (by decide)
    · rcases List.mem_cons.mp hmem with hmem | hmem
      · exact absurd hmem (by decide)
      · exact absurd (hword 13 hmem) (by decide)
  obtain ⟨rest', hcut, hrest'⟩ : ∃ rest', line = method ++ 32 :: word ++ rest' ∧
      ∀ b ∈ rest'.head?, isSpace b = true := by
    have heq : line ++ (crlf ++ t) = (method ++ 32 :: word) ++ rest := by
      rw [← List.append_assoc, ht]
      simp
    -- either the line ends within the text, or the text within the line
    rcases List.append_eq_append_iff.mp heq with ⟨u, hu, hu'⟩ | ⟨u, hu, hu'⟩
    · cases u with
      | nil => exact ⟨[], by simpa using hu.symm, by simp⟩
      | cons b u =>
        obtain rfl : 13 = b := (List.cons.inj hu').1
        exact absurd (hu ▸ List.mem_append_right _ List.mem_cons_self) hclean
    · refine ⟨u, hu, fun b hb => ?_⟩
      apply hrest
      rw [hu', List.head?_append, hb]
      rfl
  obtain ⟨hfirst, hsecond⟩ := extractWord_two hmethod hwordne hword hrest'
  have hcut' : line = method ++ 32 :: (word ++ rest') := by simp [hcut]
  unfold parseRequestLine at hline
  rw [hcut', hfirst] at hline
  dsimp only at hline
  rw [hsecond] at hline
  dsimp only at hline
  split at hline
  · cases hline
  · split at hline
    · cases hline
    · split at hline
      · cases hline
      · obtain ⟨-, rfl⟩ := Prod.mk.inj hline
        rw [hpath, setUri_path hslash]

/-! ## Whole Requests -/

/-- A request of lines: the start line, a line for each header, the body. -/
def writeRequest (start : Bytes) (kvs : List (Bytes × Bytes)) (body : Bytes) : Bytes :=
  writeLines (start :: kvs.map fieldLine) ++ crlf ++ body

theorem splitRequestLine_oneLine {start : Bytes} (hstart : ¬ crlf <:+: start) :
    HttpParser.splitRequestLine start = (start, []) := by
  unfold HttpParser.splitRequestLine
  rw [find_eq_none_iff.mpr hstart]

theorem splitRequestLine_append {start : Bytes} (hstart : ¬ crlf <:+: start) (rest : Bytes) :
    HttpParser.splitRequestLine (start ++ crlf ++ rest) = (start, rest) := by
  have hcut : (start ++ crlf ++ rest).drop (start.length + 2) = rest := by
    have hlen : (start ++ crlf).length = start.length + 2 := by simp [crlf]
    rw [← hlen, List.drop_left]
  unfold HttpParser.splitRequestLine
  rw [find_crlf hstart]
  dsimp only
  rw [hcut, List.append_assoc, List.take_left]

theorem joinLines_ne_nil {lines : List Bytes} (hne : lines ≠ []) (h : ∀ line ∈ lines, line ≠ []) :
    joinLines lines ≠ [] := by
  obtain ⟨line, lines, rfl⟩ := List.exists_cons_of_ne_nil hne
  have hline : line ≠ [] := h line List.mem_cons_self
  cases lines with
  | nil => exact hline
  | cons line' lines =>
    rw [joinLines_cons _ (List.cons_ne_nil _ _), List.append_assoc]
    exact fun hempty => hline (List.append_eq_nil_iff.mp hempty).1

/-- A header section of lines is read line by line. -/
theorem parseHeaderSection_lines {start : Bytes} {lines : List Bytes} {req : HttpRequest}
    (hstart : ¬ crlf <:+: start) (hline : parseRequestLine start {} = (true, req))
    (hlines : ∀ line ∈ lines, line ≠ [] ∧ (10 : UInt8) ∉ line ∧ line.getLast? ≠ some 13) :
    HttpParser.parseHeaderSection (joinLines (start :: lines)) {} =
      (true, { req with
        headers := UnorderedMap.setAll (lines.filterMap headerEntry) req.headers }) := by
  unfold HttpParser.parseHeaderSection
  by_cases hnil : lines = []
  · -- the request line is all there is
    subst hnil
    have hjoin : joinLines [start] = start := rfl
    rw [hjoin, splitRequestLine_oneLine hstart]
    dsimp only
    rw [hline]
    rfl
  · have hrest := joinLines_ne_nil hnil fun line hl => (hlines line hl).1
    rw [joinLines_cons _ hnil, splitRequestLine_append hstart]
    dsimp only
    rw [hline]
    dsimp only
    rw [if_neg hrest, parseHeaders_eq, headerEntries_joinLines fun line hl => (hlines line hl).2]

/-- The header section ends where it was written to end. -/
theorem parse_writeLines {start : Bytes} {lines : List Bytes} {req : HttpRequest}
    (hstart : ¬ crlf <:+: start) (hline : parseRequestLine start {} = (true, req))
    (hlines : ∀ line ∈ lines, line ≠ [] ∧ (10 : UInt8) ∉ line ∧ line.getLast? ≠ some 13)
    (body : Bytes) :
    ({} : HttpParser).parse (writeLines (start :: lines) ++ crlf ++ body) {} =
      HttpParser.parseBody
        { buffer := body
          headersParsed := true
          contentLength := HttpParser.headerContentLength { req with
            headers := UnorderedMap.setAll (lines.filterMap headerEntry) req.headers } }
        { req with headers := UnorderedMap.setAll (lines.filterMap headerEntry) req.headers } := by
  have hblock : ∀ line ∈ lines, line ≠ [] ∧ ¬ crlf <:+: line := by
    intro line hline
    obtain ⟨hnil, hlf, -⟩ := hlines line hline
    exact ⟨hnil, fun hin => hlf (hin.subset (by decide))⟩
  have htext : writeLines (start :: lines) ++ crlf ++ body =
      joinLines (start :: lines) ++ blankLine ++ body := by
    rw [writeLines_eq_joinLines (by simp)]
    simp [blankLine]
  have hfind : find blankLine (writeLines (start :: lines) ++ crlf ++ body) =
      some (joinLines (start :: lines)).length := find_blankLine body hstart hblock
  -- in front of the blank line stands the header section, behind it the body
  have htake : (writeLines (start :: lines) ++ crlf ++ body).take
      (joinLines (start :: lines)).length = joinLines (start :: lines) := by
    rw [htext, List.append_assoc, List.take_left]
  have hdrop : (writeLines (start :: lines) ++ crlf ++ body).drop
      ((joinLines (start :: lines)).length + 4) = body := by
    have hlen : (joinLines (start :: lines) ++ blankLine).length =
        (joinLines (start :: lines)).length + 4 := by simp [blankLine, crlf]
    rw [htext, ← hlen, List.drop_left]
  have hsection := parseHeaderSection_lines hstart hline hlines
  rw [← htake] at hsection
  rw [parse_fresh hfind hsection, hdrop]

/-- The headers of a written request are read back. -/
theorem parse_writeRequest {start : Bytes} {kvs : List (Bytes × Bytes)} {req : HttpRequest}
    (hstart : ¬ crlf <:+: start) (hline : parseRequestLine start {} = (true, req))
    (hkvs : ∀ kv ∈ kvs, IsWritable kv) (body : Bytes) :
    ({} : HttpParser).parse (writeRequest start kvs body) {} =
      HttpParser.parseBody
        { buffer := body
          headersParsed := true
          contentLength := HttpParser.headerContentLength
            { req with headers := UnorderedMap.setAll (kvs.map readHeader) req.headers } }
        { req with headers := UnorderedMap.setAll (kvs.map readHeader) req.headers } := by
  have hlines : ∀ line ∈ kvs.map fieldLine,
      line ≠ [] ∧ (10 : UInt8) ∉ line ∧ line.getLast? ≠ some 13 := by
    intro line hline
    obtain ⟨kv, hkv, rfl⟩ := List.mem_map.mp hline
    exact ⟨fieldLine_ne_nil kv, (hkvs kv hkv).not_mem, (hkvs kv hkv).getLast?⟩
  unfold writeRequest
  rw [parse_writeLines hstart hline hlines body, filterMap_fieldLine hkvs]

end VeloxServe
