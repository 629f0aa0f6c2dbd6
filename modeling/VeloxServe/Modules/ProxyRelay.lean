import VeloxServe.Http.ResponseFraming
import VeloxServe.Modules.ProxyHandler

/-! # What the Proxy Relays

    `parse_backend_response` by lines: the response has the header lines of the
    reply, the last one of each name, names spelt as the backend spelt them,
    and the content of the reply as its body.
-/

namespace VeloxServe

open StdString Message HttpResponse

namespace ProxyHandler

/-! ## The Header Loop -/

/-- The value that is stored for a header line. -/
def storedValue (line : Bytes) : Bytes := trimLeading (line.dropWhile (· ≠ 58)).tail

theorem relayHeaderLine_eq (resp : HttpResponse) (line : Bytes) :
    relayHeaderLine resp line =
      if (58 : UInt8) ∈ line then
        resp.setHeader (fieldName line) (storedValue line)
      else resp := by
  have hcolon : bytes ":" = [58] := by decide
  unfold relayHeaderLine
  rw [hcolon]
  by_cases hmem : (58 : UInt8) ∈ line
  · obtain ⟨key, val, rfl, hkey⟩ := List.eq_append_cons_of_mem hmem
    rw [find_singleton val hkey, if_pos hmem, fieldName, storedValue,
      List.takeWhile_append_of_pos (ne_colon hkey), List.dropWhile_append_of_pos (ne_colon hkey)]
    simp
  · rw [find_singleton_eq_none.mpr hmem, if_neg hmem]

/-- The loop goes through the lines of the text. -/
theorem headerLoop_eq (headers : Bytes) (fuel pos : Nat) (hfuel : headers.length ≤ pos + fuel)
    (resp : HttpResponse) :
    headerLoop headers fuel pos resp = (splitLines (headers.drop pos)).foldl relayHeaderLine resp := by
  -- the empty line behind the last CRLF is skipped
  have hend : ∀ (pos : Nat) (resp : HttpResponse), headers.length ≤ pos →
      (splitLines (headers.drop pos)).foldl relayHeaderLine resp = resp := by
    intro pos resp hpos
    rw [List.drop_of_length_le hpos]
    rfl
  induction fuel generalizing pos resp with
  | zero => exact (hend pos resp (by omega)).symm
  | succ fuel ih =>
    unfold headerLoop
    split
    · next hlt =>
      unfold findFrom
      cases hfind : find crlf (headers.drop pos) with
      | none =>
        have hline : (headers.drop pos).take (headers.length - pos) = headers.drop pos := by
          rw [← List.length_drop, List.take_length]
        have hone : splitLines (headers.drop pos) = [headers.drop pos] :=
          splitLines_oneLine (find_eq_none_iff.mp hfind)
        dsimp only [Option.map_none, Option.getD_none]
        rw [ih _ (by omega), hend _ _ (by omega), hline, hone]
        rfl
      | some i =>
        have hnext : (headers.drop pos).drop (i + 2) = headers.drop (i + pos + 2) := by
          rw [List.drop_drop]
          congr 1
          omega
        have htake : i + pos - pos = i := by omega
        dsimp only [Option.map_some, Option.getD_some]
        rw [ih _ (by omega), splitLines_of_find_crlf hfind, hnext, htake]
        rfl
    · exact (hend pos resp (by omega)).symm

/-! ## The Parsed Reply -/

/-- Status line and headers of a reply with a header terminator. -/
theorem parseBackendResponse_eq {raw : Bytes} {e : Nat} (h : find blankLine raw = some e) :
    ∃ statusLine, ¬ crlf <:+: statusLine ∧ (splitLines raw).head? = some statusLine ∧
      parseBackendResponse raw =
        ((headerLines raw).foldl relayHeaderLine (parseStatusLine statusLine {})).setBody
          (content raw) := by
  obtain ⟨hheaders, hcontent⟩ := read_of_find h
  unfold parseBackendResponse
  rw [h, (splitLines_of_find h).1]
  dsimp only
  cases hfind : find crlf (raw.take e) with
  | none =>
    have hone := splitLines_oneLine (find_eq_none_iff.mp hfind)
    dsimp only [Option.getD_none]
    rw [hone] at hheaders
    rw [if_neg (Nat.lt_irrefl _), List.take_length, hheaders, hcontent, hone]
    exact ⟨raw.take e, find_eq_none_iff.mp hfind, rfl, rfl⟩
  | some i =>
    have hle := find_add_length_le hfind (by decide)
    have hlen : crlf.length = 2 := rfl
    have hlt : i < (raw.take e).length := by omega
    dsimp only [Option.getD_some]
    rw [splitLines_of_find_crlf hfind] at hheaders
    rw [if_pos hlt, headerLoop_eq _ _ _ (by omega), hheaders, hcontent,
      splitLines_of_find_crlf hfind]
    exact ⟨(raw.take e).take i, not_infix_take_of_find hfind (by decide), rfl, rfl⟩

theorem parseStatusLine_spec {statusLine : Bytes} (h : ¬ crlf <:+: statusLine)
    (resp : HttpResponse) :
    ∃ code reason, parseStatusLine statusLine resp = resp.setStatus code reason ∧
      ¬ crlf <:+: reason := by
  have hbad : ¬ crlf <:+: bytes "Bad Gateway" := by decide
  unfold parseStatusLine
  split
  · exact ⟨502, _, rfl, hbad⟩
  · split
    · exact ⟨502, _, rfl, hbad⟩
    · next space2 _ =>
      split
      · exact ⟨502, _, rfl, hbad⟩
      · next code _ =>
        exact ⟨code, _, rfl, fun hin => h (hin.trans (List.drop_suffix _ _).isInfix)⟩

/-! ## The Headers Kept -/

/-- Whether a header line has exactly this name. -/
def isNamed (k line : Bytes) : Bool := line.contains 58 && fieldName line == k

theorem lookup_relayHeaderLine (resp : HttpResponse) (line k : Bytes) :
    (relayHeaderLine resp line).headers.lookup k =
      if isNamed k line then some (storedValue line) else resp.headers.lookup k := by
  rw [relayHeaderLine_eq]
  unfold isNamed
  by_cases hmem : (58 : UInt8) ∈ line
  · rw [if_pos hmem, setHeader_headers, UnorderedMap.lookup_set]
    by_cases hk : k = fieldName line
    · simp [hk, hmem]
    · have hk' : ¬ fieldName line = k := fun heq => hk heq.symm
      simp [hk, hk', hmem]
  · simp [hmem]

/-- The header lines leave the status line alone. -/
theorem relayed_status (lines : List Bytes) (resp : HttpResponse) :
    (lines.foldl relayHeaderLine resp).statusCode = resp.statusCode ∧
      (lines.foldl relayHeaderLine resp).statusText = resp.statusText := by
  induction lines generalizing resp with
  | nil => exact ⟨rfl, rfl⟩
  | cons line lines ih =>
    obtain ⟨hcode, htext⟩ := ih (relayHeaderLine resp line)
    rw [List.foldl_cons, hcode, htext, relayHeaderLine_eq]
    split <;> exact ⟨rfl, rfl⟩

/-- The last line of each name counts. -/
theorem lookup_relayed (lines : List Bytes) (resp : HttpResponse) (k : Bytes) :
    (lines.foldl relayHeaderLine resp).headers.lookup k =
      match (lines.filter (isNamed k)).getLast? with
      | some line => some (storedValue line)
      | none => resp.headers.lookup k := by
  induction lines generalizing resp with
  | nil => rfl
  | cons line lines ih =>
    rw [List.foldl_cons, ih, lookup_relayHeaderLine]
    by_cases hnamed : isNamed k line = true
    · rw [List.filter_cons_of_pos hnamed, List.getLast?_cons]
      cases (lines.filter (isNamed k)).getLast? <;> simp [hnamed]
    · rw [List.filter_cons_of_neg hnamed]
      simp [hnamed]

/-- A text without CRLF adds neither a CRLF nor a colon in a name. -/
theorem relayHeaderLine_plain {resp : HttpResponse} {line : Bytes} (hline : ¬ crlf <:+: line)
    (h : resp.Plain) : (relayHeaderLine resp line).Plain := by
  rw [relayHeaderLine_eq]
  split
  · have hname : fieldName line <+: line := List.takeWhile_prefix _
    have hkey : ¬ crlf <:+: fieldName line := fun hin => hline (hin.trans hname.isInfix)
    have hcolon : (58 : UInt8) ∉ fieldName line := by
      intro hmem
      simpa using List.mem_takeWhile_imp hmem
    have hval : ¬ crlf <:+: storedValue line := by
      intro hin
      apply hline
      have htail : (line.dropWhile (· ≠ 58)).tail <:+ line :=
        (List.tail_suffix _).trans (List.dropWhile_suffix _)
      unfold storedValue trimLeading at hin
      dsimp only at hin
      split at hin
      · exact hin.trans htail.isInfix
      · exact hin.trans ((List.dropWhile_suffix _).trans htail).isInfix
    exact h.setHeader ⟨hkey, hcolon⟩ hval
  · exact h

theorem relayed_plain {lines : List Bytes} (hlines : ∀ line ∈ lines, ¬ crlf <:+: line)
    {resp : HttpResponse} (h : resp.Plain) : (lines.foldl relayHeaderLine resp).Plain := by
  induction lines generalizing resp with
  | nil => exact h
  | cons line lines ih =>
    have h' := relayHeaderLine_plain (hlines line List.mem_cons_self) h
    exact ih (fun l hl => hlines l (List.mem_cons_of_mem _ hl)) h'

/-! ## The Framing of a Reply -/

/-- The header lines of a reply that give a response with a content of `n` bytes
    one Content-Length field: all of them in the spelling `build` looks for, the
    last one right, and no Transfer-Encoding. -/
structure RelaysFraming (raw : Bytes) (n : Nat) : Prop where
  spelling : ∀ line ∈ fields (bytes "content-length") raw,
    fieldName line = bytes "Content-Length"
  value : ∀ line ∈ (fields (bytes "content-length") raw).getLast?, fieldValue line = decimal n
  noTransferEncoding : fields (bytes "transfer-encoding") raw = []

theorem strip_trimLeading (s : Bytes) :
    strip (fun b => b == 32 || b == 9) (trimLeading s) = strip (fun b => b == 32 || b == 9) s := by
  unfold trimLeading
  dsimp only
  split
  · rfl
  · unfold strip
    rw [dropWhile_eq_self (dropWhile_head (fun b => b == 32 || b == 9) s)]

theorem strip_storedValue (line : Bytes) :
    strip (fun b => b == 32 || b == 9) (storedValue line) = fieldValue line :=
  strip_trimLeading _

theorem isNamed_iff {k line : Bytes} : isNamed k line = true ↔ 58 ∈ line ∧ fieldName line = k := by
  simp [isNamed]

theorem isField_iff {name line : Bytes} :
    isField name line = true ↔ 58 ∈ line ∧ toLower (fieldName line) = name := by
  simp [isField]

/-! ### Names and Spellings -/

section

variable (raw : Bytes) {resp : HttpResponse} (hempty : resp.headers = ∅)

include hempty

theorem lookup_relayedLines (k : Bytes) :
    ((headerLines raw).foldl relayHeaderLine resp).headers.lookup k =
      (((headerLines raw).filter (isNamed k)).getLast?).map storedValue := by
  rw [lookup_relayed, hempty]
  cases ((headerLines raw).filter (isNamed k)).getLast? <;> rfl

theorem mem_relayedLines {k : Bytes} :
    k ∈ ((headerLines raw).foldl relayHeaderLine resp).headers ↔
      ∃ line ∈ fields (toLower k) raw, fieldName line = k := by
  rw [← AList.lookup_isSome, lookup_relayedLines raw hempty, Option.isSome_map,
    List.getLast?_isSome]
  constructor
  · intro hne
    obtain ⟨line, hline⟩ := List.exists_mem_of_ne_nil _ hne
    obtain ⟨hin, hnamed⟩ := List.mem_filter.mp hline
    obtain ⟨hcolon, hname⟩ := isNamed_iff.mp hnamed
    have hfield : isField (toLower k) line = true := isField_iff.mpr ⟨hcolon, by rw [hname]⟩
    exact ⟨line, List.mem_filter.mpr ⟨hin, hfield⟩, hname⟩
  · rintro ⟨line, hline, hname⟩
    obtain ⟨hin, hfield⟩ := List.mem_filter.mp hline
    have hnamed : isNamed k line = true := isNamed_iff.mpr ⟨(isField_iff.mp hfield).1, hname⟩
    exact List.ne_nil_of_mem (List.mem_filter.mpr ⟨hin, hnamed⟩)

/-- The header map has one spelling of a name when the reply has. -/
theorem speltAs_relayed (k : Bytes) :
    ((headerLines raw).foldl relayHeaderLine resp).SpeltAs k ↔
      ∀ line ∈ fields (toLower k) raw, fieldName line = k := by
  constructor
  · intro h line hline
    have hname : toLower (fieldName line) = toLower k :=
      (isField_iff.mp (List.mem_filter.mp hline).2).2
    apply h _ _ hname
    rw [mem_relayedLines raw hempty, hname]
    exact ⟨line, hline, rfl⟩
  · intro h k' hk' hname
    obtain ⟨line, hline, rfl⟩ := (mem_relayedLines raw hempty).mp hk'
    rw [hname] at hline
    exact h line hline

/-- Of several lines with one spelling the last one is relayed. -/
theorem lookup_speltAs {k : Bytes} (h : ∀ line ∈ fields (toLower k) raw, fieldName line = k) :
    ((headerLines raw).foldl relayHeaderLine resp).headers.lookup k =
      (fields (toLower k) raw).getLast?.map storedValue := by
  have hsame : (headerLines raw).filter (isNamed k) = fields (toLower k) raw := by
    apply List.filter_congr
    intro line hline
    rw [Bool.eq_iff_iff, isNamed_iff, isField_iff]
    constructor
    · rintro ⟨hcolon, rfl⟩
      exact ⟨hcolon, rfl⟩
    · intro hfield
      exact ⟨hfield.1, h line (List.mem_filter.mpr ⟨hline, isField_iff.mpr hfield⟩)⟩
  rw [lookup_relayedLines raw hempty, hsame]

/-- **The header map of a relayed reply fits a body exactly when the reply's own
    header lines do.** -/
theorem lengthFits_relayed (body : Bytes) :
    (((headerLines raw).foldl relayHeaderLine resp).setBody body).LengthFits ↔
      RelaysFraming raw body.length := by
  have hlower : toLower (bytes "Content-Length") = bytes "content-length" := by decide
  have hspelt := speltAs_relayed raw hempty (bytes "Content-Length")
  have hlook : (∀ line ∈ fields (toLower (bytes "Content-Length")) raw,
      fieldName line = bytes "Content-Length") → _ := lookup_speltAs raw hempty
  unfold SpeltAs at hspelt
  rw [hlower] at hspelt hlook
  constructor
  · intro hfits
    have hspelling := hspelt.mp hfits.spelling
    refine ⟨hspelling, ?_, ?_⟩
    · intro line hline
      have hvalue := hlook hspelling
      rw [hline] at hvalue
      rw [← strip_storedValue]
      exact hfits.value _ hvalue
    · apply List.eq_nil_iff_forall_not_mem.mpr
      intro line hline
      have hname : toLower (fieldName line) = bytes "transfer-encoding" :=
        (isField_iff.mp (List.mem_filter.mp hline).2).2
      refine hfits.noTransferEncoding (fieldName line) ?_ hname
      exact (mem_relayedLines raw hempty).mpr ⟨line, hname ▸ hline, rfl⟩
  · intro hrelays
    refine ⟨hspelt.mpr hrelays.spelling, ?_, ?_⟩
    · intro v hset
      obtain ⟨line, hline, rfl⟩ :=
        Option.map_eq_some_iff.mp ((hlook hrelays.spelling).symm.trans hset)
      rw [strip_storedValue]
      exact hrelays.value line hline
    · intro k hk hcoding
      obtain ⟨line, hline, -⟩ := (mem_relayedLines raw hempty).mp hk
      rw [hcoding, hrelays.noTransferEncoding] at hline
      cases hline

end

/-- A reply without a header terminator counts as a bad gateway. -/
theorem parseBackendResponse_broken {raw : Bytes} (h : ¬ blankLine <:+: raw) :
    parseBackendResponse raw =
      ({ statusCode := 502, statusText := bytes "Bad Gateway",
         body := bytes "Invalid response from upstream" } : HttpResponse) := by
  unfold parseBackendResponse
  rw [find_eq_none_iff.mpr h]
  rfl

theorem parseBackendResponse_body {raw : Bytes} (h : blankLine <:+: raw) :
    (parseBackendResponse raw).body = content raw := by
  obtain ⟨e, he⟩ := Option.isSome_iff_exists.mp (find_isSome_iff.mpr h)
  obtain ⟨statusLine, -, -, hparsed⟩ := parseBackendResponse_eq he
  rw [hparsed]
  rfl

/-- The lines of the reply are taken apart at every CRLF, so none is left. -/
theorem parseBackendResponse_plain (raw : Bytes) : (parseBackendResponse raw).Plain := by
  have hbad : ¬ crlf <:+: bytes "Bad Gateway" := by decide
  by_cases h : blankLine <:+: raw
  · obtain ⟨e, he⟩ := Option.isSome_iff_exists.mp (find_isSome_iff.mpr h)
    obtain ⟨statusLine, hstatus, -, hparsed⟩ := parseBackendResponse_eq he
    obtain ⟨code, reason, hline, hreason⟩ := parseStatusLine_spec hstatus {}
    have hlines : ∀ line ∈ headerLines raw, ¬ crlf <:+: line := by
      intro line hmem
      exact not_infix_of_mem_splitLines
        (List.mem_of_mem_tail ((List.takeWhile_prefix _).subset hmem))
    have hfresh : (parseStatusLine statusLine {}).Plain := by
      rw [hline]
      exact Plain.fresh hreason
    rw [hparsed]
    exact (relayed_plain hlines hfresh).setBody _
  · rw [parseBackendResponse_broken h]
    exact Plain.fresh hbad

/-- **Whether a parsed reply fits a body** is decided by its own header lines. -/
theorem lengthFits_parsed (raw body : Bytes) :
    ((parseBackendResponse raw).setBody body).LengthFits ↔
      (blankLine <:+: raw → RelaysFraming raw body.length) := by
  by_cases h : blankLine <:+: raw
  · obtain ⟨e, he⟩ := Option.isSome_iff_exists.mp (find_isSome_iff.mpr h)
    obtain ⟨statusLine, hstatus, -, hparsed⟩ := parseBackendResponse_eq he
    obtain ⟨code, reason, hline, -⟩ := parseStatusLine_spec hstatus {}
    have hempty : (parseStatusLine statusLine {}).headers = ∅ := by rw [hline]; rfl
    have hfits := lengthFits_relayed raw hempty body
    rw [hparsed]
    constructor
    · exact fun hset _ => hfits.mp hset
    · exact fun hrelays => hfits.mpr (hrelays h)
  · rw [parseBackendResponse_broken h]
    constructor
    · exact fun _ hin => absurd hin h
    · exact fun _ => (Unframed.fresh 502 _ body).lengthFits

/-! ## The Reply of a Backend -/

/-- What the backend sends back, unless it is not reached or sends nothing. -/
def reply (ord : HeaderOrder) (socket : BackendSocket) (clientRequest : HttpRequest)
    (proxyPassUrl clientIp : Bytes) : Option Bytes :=
  let backend := BackendAddr.parse proxyPassUrl
  if !connectToBackend socket backend.host backend.port then none
  else
    let hostHeader := backend.host ++ bytes ":" ++ intDecimal backend.port
    let rawResponse :=
      sendAndReceive socket (buildBackendRequest ord clientRequest hostHeader clientIp)
    if rawResponse = [] then none else some rawResponse

/-- `handle` relays the reply, or else makes a response of its own. -/
theorem handle_cases (ord : HeaderOrder) (socket : BackendSocket) (clientRequest : HttpRequest)
    (proxyPassUrl clientIp : Bytes) :
    (∃ raw, reply ord socket clientRequest proxyPassUrl clientIp = some raw ∧
      handle ord socket clientRequest proxyPassUrl clientIp =
        (parseBackendResponse raw).setHeader (bytes "X-Proxy") (bytes "VeloxServe")) ∨
    (∃ text, reply ord socket clientRequest proxyPassUrl clientIp = none ∧
      handle ord socket clientRequest proxyPassUrl clientIp = HttpResponse.internalError text) := by
  unfold reply handle
  dsimp only
  split
  · exact .inr ⟨_, rfl, rfl⟩
  · split
    · exact .inr ⟨_, rfl, rfl⟩
    · exact .inl ⟨_, rfl, rfl⟩

end ProxyHandler

end VeloxServe
