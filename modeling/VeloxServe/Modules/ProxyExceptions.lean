import VeloxServe.Modules.ProxyHandler

/-! # What the Proxy Does Not Throw

    The functions of `src/modules/proxy_handler.cpp` once more, with
    `std::string::substr` and `std::stoi` throwing as they do. Only the two
    `try` blocks catch anything; the rest must keep its positions inside the
    strings, whatever a backend sends.
-/

namespace VeloxServe

open StdString Message

namespace ProxyHandler

namespace Throwing

/-! ## The Functions -/

/-- `s.substr(pos, count)`. -/
def substr (s : Bytes) (pos count : Nat) : Except ConversionError Bytes :=
  if s.length < pos then .error .outOfRange else .ok ((s.drop pos).take count)

/-- `s.substr(pos)`. -/
def substrFrom (s : Bytes) (pos : Nat) : Except ConversionError Bytes :=
  if s.length < pos then .error .outOfRange else .ok (s.drop pos)

/-- The port of `BackendAddr::parse`, with its `catch (...)`. -/
def parsePort (urlNoScheme : Bytes) (colon : Nat) : Int :=
  match (substrFrom urlNoScheme (colon + 1)).bind stoi with
  | .ok port => port
  | .error _ => 80

def stripScheme (url : Bytes) : Except ConversionError Bytes :=
  if find (bytes "http://") url = some 0 then substrFrom url 7 else .ok url

def splitPort (urlNoScheme : Bytes) : Except ConversionError BackendAddr :=
  match find (bytes ":") urlNoScheme with
  | some colon => do
    let host ← substr urlNoScheme 0 colon
    return { host := host, port := parsePort urlNoScheme colon }
  | none => .ok { host := urlNoScheme, port := 80 }

/-- `BackendAddr::parse`. -/
def parse (url : Bytes) : Except ConversionError BackendAddr := do
  let urlNoScheme ← stripScheme url
  let addr ← splitPort urlNoScheme
  return if addr.host = bytes "localhost" then { addr with host := bytes "127.0.0.1" } else addr

/-- The `try` block of `parse_backend_response`. -/
def parseCode (statusLine : Bytes) (space1 space2 : Nat) : Except ConversionError (Int × Bytes) := do
  let text ← substr statusLine (space1 + 1) (space2 - space1 - 1)
  let code ← stoi text
  let reason ← substrFrom statusLine (space2 + 1)
  pure (code, reason)

def parseStatusLine (statusLine : Bytes) (resp : HttpResponse) : HttpResponse :=
  match find (bytes " ") statusLine with
  | none => resp.setStatus 502 (bytes "Bad Gateway")
  | some space1 =>
    match findFrom (bytes " ") statusLine (space1 + 1) with
    | none => resp.setStatus 502 (bytes "Bad Gateway")
    | some space2 =>
      match parseCode statusLine space1 space2 with
      | .ok (code, reason) => resp.setStatus code reason
      | .error _ => resp.setStatus 502 (bytes "Bad Gateway")

def trimLeading (val : Bytes) : Except ConversionError Bytes :=
  let valStart := (val.takeWhile fun b => b == 32 || b == 9).length
  if valStart < val.length then substrFrom val valStart else pure val

def relayHeaderLine (resp : HttpResponse) (line : Bytes) : Except ConversionError HttpResponse :=
  match find (bytes ":") line with
  | none => pure resp
  | some colon => do
    let key ← substr line 0 colon
    let val ← substrFrom line (colon + 1)
    let val ← trimLeading val
    pure (resp.setHeader key val)

def headerLoop (headers : Bytes) : Nat → Nat → HttpResponse → Except ConversionError HttpResponse
  | 0, _, resp => pure resp
  | fuel + 1, pos, resp =>
    if pos < headers.length then do
      let lineEnd := (findFrom crlf headers pos).getD headers.length
      let line ← substr headers pos (lineEnd - pos)
      let resp ← relayHeaderLine resp line
      headerLoop headers fuel (lineEnd + 2) resp
    else pure resp

/-- The headers behind the status line. -/
def relayHeaders (headerSection : Bytes) (firstLineEnd : Nat) (resp : HttpResponse) :
    Except ConversionError HttpResponse :=
  if firstLineEnd < headerSection.length then do
    let headers ← substrFrom headerSection (firstLineEnd + 2)
    headerLoop headers headers.length 0 resp
  else .ok resp

def parseBackendResponse (rawResponse : Bytes) : Except ConversionError HttpResponse :=
  let resp : HttpResponse := {}
  match find blankLine rawResponse with
  | none =>
    .ok ((resp.setStatus 502 (bytes "Bad Gateway")).setBody
      (bytes "Invalid response from upstream"))
  | some headerEnd => do
    let headerSection ← substr rawResponse 0 headerEnd
    let bodySection ← substrFrom rawResponse (headerEnd + 4)
    let firstLineEnd := (find crlf headerSection).getD headerSection.length
    let statusLine ← substr headerSection 0 firstLineEnd
    let resp ← relayHeaders headerSection firstLineEnd (parseStatusLine statusLine resp)
    return resp.setBody bodySection

def handle (ord : HeaderOrder) (socket : BackendSocket) (clientRequest : HttpRequest)
    (proxyPassUrl clientIp : Bytes) : Except ConversionError HttpResponse := do
  let backend ← parse proxyPassUrl
  if !connectToBackend socket backend.host backend.port then
    pure (HttpResponse.internalError (bytes "502 Bad Gateway: Failed to connect to backend"))
  else
    let hostHeader := backend.host ++ bytes ":" ++ intDecimal backend.port
    let proxyReqStr := buildBackendRequest ord clientRequest hostHeader clientIp
    let rawResponse := sendAndReceive socket proxyReqStr
    if rawResponse = [] then
      pure (HttpResponse.internalError (bytes "502 Bad Gateway: Backend closed connection"))
    else do
      let response ← parseBackendResponse rawResponse
      pure (response.setHeader (bytes "X-Proxy") (bytes "VeloxServe"))

/-! ## Their Results -/

theorem substr_ok {s : Bytes} {pos : Nat} (h : pos ≤ s.length) (count : Nat) :
    substr s pos count = .ok ((s.drop pos).take count) :=
  if_neg (by omega)

theorem substrFrom_ok {s : Bytes} {pos : Nat} (h : pos ≤ s.length) :
    substrFrom s pos = .ok (s.drop pos) :=
  if_neg (by omega)

theorem stripScheme_ok (url : Bytes) :
    stripScheme url = .ok (if find (bytes "http://") url = some 0 then url.drop 7 else url) := by
  unfold stripScheme
  split
  · next hscheme =>
    have hle : 0 + 7 ≤ url.length := find_add_length_le hscheme (by decide)
    exact substrFrom_ok (by omega)
  · rfl

theorem parsePort_ok {urlNoScheme : Bytes} {colon : Nat} (h : colon + 1 ≤ urlNoScheme.length) :
    parsePort urlNoScheme colon =
      match stoi (urlNoScheme.drop (colon + 1)) with
      | .ok port => port
      | .error _ => 80 := by
  unfold parsePort
  rw [substrFrom_ok h]
  rfl

theorem parse_ok (url : Bytes) : parse url = .ok (BackendAddr.parse url) := by
  unfold parse BackendAddr.parse
  rw [stripScheme_ok]
  generalize (if find (bytes "http://") url = some 0 then url.drop 7 else url) = urlNoScheme
  unfold splitPort
  simp only [bind, Except.bind]
  cases hcolon : find (bytes ":") urlNoScheme with
  | none => rfl
  | some colon =>
    have hle : colon + 1 ≤ urlNoScheme.length := find_add_length_le hcolon (by decide)
    dsimp only
    rw [substr_ok (Nat.zero_le _), parsePort_ok hle]
    rfl

theorem parseStatusLine_ok (statusLine : Bytes) (resp : HttpResponse) :
    parseStatusLine statusLine resp = ProxyHandler.parseStatusLine statusLine resp := by
  unfold parseStatusLine ProxyHandler.parseStatusLine
  cases hfirst : find (bytes " ") statusLine with
  | none => rfl
  | some space1 =>
    dsimp only
    have hle : space1 + 1 ≤ statusLine.length := find_add_length_le hfirst (by decide)
    cases hsecond : findFrom (bytes " ") statusLine (space1 + 1) with
    | none => rfl
    | some space2 =>
      have hle' : space2 + 1 ≤ statusLine.length := (findFrom_bounds hle hsecond (by decide)).2
      dsimp only
      unfold parseCode
      rw [substr_ok hle, substrFrom_ok hle']
      cases hcode : stoi ((statusLine.drop (space1 + 1)).take (space2 - space1 - 1)) with
      | error e => simp only [bind, Except.bind, hcode]
      | ok code => simp only [bind, Except.bind, hcode, pure, Except.pure]

theorem trimLeading_ok (val : Bytes) : trimLeading val = .ok (ProxyHandler.trimLeading val) := by
  rw [trimLeading_eq]
  unfold trimLeading
  have hstart : (val.takeWhile fun b => b == 32 || b == 9).length =
      val.findIdx fun b => !(b == 32 || b == 9) := by
    rw [List.takeWhile_eq_take_findIdx_not, List.length_take]
    exact Nat.min_eq_left List.findIdx_le_length
  dsimp only
  rw [hstart]
  split
  · next hlt => exact substrFrom_ok hlt.le
  · rfl

theorem relayHeaderLine_ok (resp : HttpResponse) (line : Bytes) :
    relayHeaderLine resp line = .ok (ProxyHandler.relayHeaderLine resp line) := by
  unfold relayHeaderLine ProxyHandler.relayHeaderLine
  cases hcolon : find (bytes ":") line with
  | none => rfl
  | some colon =>
    have hle : colon + 1 ≤ line.length := find_add_length_le hcolon (by decide)
    dsimp only
    rw [substr_ok (Nat.zero_le _), substrFrom_ok hle]
    simp only [bind, Except.bind, trimLeading_ok]
    rfl

theorem headerLoop_ok (headers : Bytes) (fuel pos : Nat) (resp : HttpResponse) :
    headerLoop headers fuel pos resp = .ok (ProxyHandler.headerLoop headers fuel pos resp) := by
  induction fuel generalizing pos resp with
  | zero => rfl
  | succ fuel ih =>
    unfold headerLoop ProxyHandler.headerLoop
    split
    · next hpos =>
      simp only [substr_ok hpos.le, bind, Except.bind, relayHeaderLine_ok, ih]
    · rfl

theorem relayHeaders_ok {headerSection : Bytes} (resp : HttpResponse) :
    relayHeaders headerSection ((find crlf headerSection).getD headerSection.length) resp =
      .ok (if (find crlf headerSection).getD headerSection.length < headerSection.length then
        let headers := headerSection.drop ((find crlf headerSection).getD headerSection.length + 2)
        ProxyHandler.headerLoop headers headers.length 0 resp
      else resp) := by
  unfold relayHeaders
  cases hfirst : find crlf headerSection with
  | none => rw [Option.getD_none, if_neg (Nat.lt_irrefl _), if_neg (Nat.lt_irrefl _)]
  | some firstLineEnd =>
    have hle : firstLineEnd + 2 ≤ headerSection.length := find_add_length_le hfirst (by decide)
    have hlt : firstLineEnd < headerSection.length := by omega
    rw [Option.getD_some, if_pos hlt, if_pos hlt, substrFrom_ok hle]
    simp only [bind, Except.bind, headerLoop_ok]

/-- Whatever a backend sends is parsed without an exception. -/
theorem parseBackendResponse_ok (rawResponse : Bytes) :
    parseBackendResponse rawResponse = .ok (ProxyHandler.parseBackendResponse rawResponse) := by
  unfold parseBackendResponse ProxyHandler.parseBackendResponse
  cases hend : find blankLine rawResponse with
  | none => rfl
  | some headerEnd =>
    have hle : headerEnd + 4 ≤ rawResponse.length := find_add_length_le hend (by decide)
    simp only [substr_ok (Nat.zero_le _), substrFrom_ok hle, bind, Except.bind, List.drop_zero,
      relayHeaders_ok, parseStatusLine_ok, pure, Except.pure]

theorem handle_ok (ord : HeaderOrder) (socket : BackendSocket) (clientRequest : HttpRequest)
    (proxyPassUrl clientIp : Bytes) :
    handle ord socket clientRequest proxyPassUrl clientIp =
      .ok (ProxyHandler.handle ord socket clientRequest proxyPassUrl clientIp) := by
  unfold handle ProxyHandler.handle
  rw [parse_ok]
  simp only [bind, Except.bind, parseBackendResponse_ok]
  split
  · rfl
  · split <;> rfl

end Throwing

end ProxyHandler

end VeloxServe
