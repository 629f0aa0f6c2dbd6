import VeloxServe.Framework.LexicalPath
import VeloxServe.Http.HttpResponse

/-! # Proxy Handler

    `src/modules/proxy_handler.cpp`: the request is written out for a backend,
    sent, and whatever the backend sends back is parsed into a response. What
    the socket calls return is an argument.
-/

namespace VeloxServe

open StdString Message LexicalPath

/-! ## Backend Addresses -/

structure BackendAddr where
  host : Bytes
  port : Int
  deriving DecidableEq

/-- `"http://127.0.0.1:3000"` or `"http://localhost"`; a port that is no number counts as 80. -/
def BackendAddr.parse (url : Bytes) : BackendAddr :=
  let urlNoScheme := if find (bytes "http://") url = some 0 then url.drop 7 else url
  let addr : BackendAddr := match find (bytes ":") urlNoScheme with
    | some colon =>
      { host := urlNoScheme.take colon
        port := match stoi (urlNoScheme.drop (colon + 1)) with
          | .ok port => port
          | .error _ => 80 }
    | none => { host := urlNoScheme, port := 80 }
  if addr.host = bytes "localhost" then { addr with host := bytes "127.0.0.1" } else addr

/-! ## Sockets -/

/-- What the socket calls for one backend connection return. -/
structure BackendSocket where
  /-- `socket` gives a descriptor. -/
  opened : Bool
  /-- `inet_pton` on a C string: an IPv4 address. -/
  inetPton : Bytes → Option (BitVec 32)
  /-- `connect` to an address and port. -/
  connects : BitVec 32 → BitVec 16 → Bool
  /-- The results of `send`. -/
  sends : List Int
  /-- The results of `recv`; `none` for an error or a timeout. -/
  recvs : List (Option Bytes)

/-- `htons(port)` on an `int`: the port is cut to 16 bits. -/
def htons (port : Int) : BitVec 16 := BitVec.ofInt 16 port

/-- The address and the port of a `sockaddr_in`, when `inet_pton` accepts the host. -/
def socketAddress (inetPton : Bytes → Option (BitVec 32)) (host : Bytes) (port : Int) :
    Option (BitVec 32 × BitVec 16) :=
  (inetPton (cString host)).map fun address => (address, htons port)

namespace ProxyHandler

/-- Whether `connect_to_backend` returns a connected descriptor. -/
def connectToBackend (socket : BackendSocket) (host : Bytes) (port : Int) : Bool :=
  socket.opened &&
    (socketAddress socket.inetPton host port).any fun addr => socket.connects addr.1 addr.2

/-- The `send` loop; `false` when the request could not be sent. -/
def sendAll : List Int → Nat → Bool
  | [], remaining => remaining = 0
  | sent :: results, remaining =>
    if remaining = 0 then true
    else if sent ≤ 0 then false
    else sendAll results (remaining - sent.toNat)

/-- The `recv` loop: it ends when the backend closes, on an error and on a timeout. -/
def receiveAll : List (Option Bytes) → Bytes
  | [] => []
  | none :: _ => []
  | some data :: results => if data = [] then [] else data ++ receiveAll results

def sendAndReceive (socket : BackendSocket) (request : Bytes) : Bytes :=
  if sendAll socket.sends request.length then receiveAll socket.recvs else []

/-! ## The Backend Request -/

/-- The headers of the original request that are relayed. -/
def relayed (ord : HeaderOrder) (req : HttpRequest) : List (Bytes × Bytes) :=
  (ord.order req.headers).filter fun kv => kv.1 ≠ bytes "host" ∧ kv.1 ≠ bytes "connection"

/-- Serialise a request with forwarding headers. -/
def buildBackendRequest (ord : HeaderOrder) (req : HttpRequest) (backendHost clientIp : Bytes) :
    Bytes :=
  req.method ++ bytes " " ++ req.path ++
  (if req.queryString = [] then [] else bytes "?" ++ req.queryString) ++
  bytes " HTTP/1.1" ++ crlf ++
  bytes "Host: " ++ backendHost ++ crlf ++
  bytes "X-Forwarded-For: " ++ clientIp ++ crlf ++
  bytes "X-Real-IP: " ++ clientIp ++ crlf ++
  bytes "X-Forwarded-Proto: http" ++ crlf ++
  bytes "Connection: close" ++ crlf ++
  (relayed ord req).flatMap (fun kv => kv.1 ++ bytes ": " ++ kv.2 ++ crlf) ++
  crlf ++ req.body

/-! ## The Backend Response -/

/-- `s.find(pat, pos)` for a position inside `s`. -/
def findFrom (pat s : Bytes) (pos : Nat) : Option Nat := (find pat (s.drop pos)).map (· + pos)

/-- `"HTTP/1.1 200 OK"`; without two spaces or a number between them it is a bad gateway. -/
def parseStatusLine (statusLine : Bytes) (resp : HttpResponse) : HttpResponse :=
  match find (bytes " ") statusLine with
  | none => resp.setStatus 502 (bytes "Bad Gateway")
  | some space1 =>
    match findFrom (bytes " ") statusLine (space1 + 1) with
    | none => resp.setStatus 502 (bytes "Bad Gateway")
    | some space2 =>
      match stoi ((statusLine.drop (space1 + 1)).take (space2 - space1 - 1)) with
      | .error _ => resp.setStatus 502 (bytes "Bad Gateway")
      | .ok code => resp.setStatus code (statusLine.drop (space2 + 1))

/-- Drop leading blanks, unless there is nothing else. -/
def trimLeading (val : Bytes) : Bytes :=
  let rest := val.dropWhile fun b => b == 32 || b == 9
  if rest = [] then val else rest

/-- One line of the header section; a line without a colon is skipped. -/
def relayHeaderLine (resp : HttpResponse) (line : Bytes) : HttpResponse :=
  match find (bytes ":") line with
  | none => resp
  | some colon => resp.setHeader (line.take colon) (trimLeading (line.drop (colon + 1)))

/-- The header loop from `pos` on. Each iteration moves `pos` up, so the length of
    the text is enough fuel. -/
def headerLoop (headers : Bytes) : Nat → Nat → HttpResponse → HttpResponse
  | 0, _, resp => resp
  | fuel + 1, pos, resp =>
    if pos < headers.length then
      let lineEnd := (findFrom crlf headers pos).getD headers.length
      let line := (headers.drop pos).take (lineEnd - pos)
      headerLoop headers fuel (lineEnd + 2) (relayHeaderLine resp line)
    else resp

def parseBackendResponse (rawResponse : Bytes) : HttpResponse :=
  let resp : HttpResponse := {}
  match find blankLine rawResponse with
  | none =>
    (resp.setStatus 502 (bytes "Bad Gateway")).setBody (bytes "Invalid response from upstream")
  | some headerEnd =>
    let headerSection := rawResponse.take headerEnd
    let bodySection := rawResponse.drop (headerEnd + 4)
    let firstLineEnd := (find crlf headerSection).getD headerSection.length
    let resp := parseStatusLine (headerSection.take firstLineEnd) resp
    let resp :=
      if firstLineEnd < headerSection.length then
        let headers := headerSection.drop (firstLineEnd + 2)
        headerLoop headers headers.length 0 resp
      else resp
    resp.setBody bodySection

/-! ### Positions -/

/-- What is found from a position on is behind it, inside the string. -/
theorem findFrom_bounds {pat s : Bytes} {pos i : Nat} (hpos : pos ≤ s.length)
    (h : findFrom pat s pos = some i) (hpat : pat ≠ []) : pos ≤ i ∧ i + pat.length ≤ s.length := by
  obtain ⟨j, hj, rfl⟩ := Option.map_eq_some_iff.mp h
  have hle := find_add_length_le hj hpat
  rw [List.length_drop] at hle
  omega

/-- Where a value starts, if it has more than blanks. -/
theorem trimLeading_eq (val : Bytes) :
    trimLeading val = if val.findIdx (fun b => !(b == 32 || b == 9)) < val.length then
      val.drop (val.findIdx fun b => !(b == 32 || b == 9)) else val := by
  unfold trimLeading
  dsimp only
  rw [List.dropWhile_eq_drop_findIdx_not]
  by_cases hlt : val.findIdx (fun b => !(b == 32 || b == 9)) < val.length
  · rw [if_pos hlt, if_neg]
    rw [List.drop_eq_nil_iff]
    omega
  · rw [if_neg hlt, if_pos]
    rw [List.drop_eq_nil_iff]
    omega

/-! ## Handling a Request -/

def handle (ord : HeaderOrder) (socket : BackendSocket) (clientRequest : HttpRequest)
    (proxyPassUrl clientIp : Bytes) : HttpResponse :=
  let backend := BackendAddr.parse proxyPassUrl
  if !connectToBackend socket backend.host backend.port then
    HttpResponse.internalError (bytes "502 Bad Gateway: Failed to connect to backend")
  else
    let hostHeader := backend.host ++ bytes ":" ++ intDecimal backend.port
    let proxyReqStr := buildBackendRequest ord clientRequest hostHeader clientIp
    let rawResponse := sendAndReceive socket proxyReqStr
    if rawResponse = [] then
      HttpResponse.internalError (bytes "502 Bad Gateway: Backend closed connection")
    else
      (parseBackendResponse rawResponse).setHeader (bytes "X-Proxy") (bytes "VeloxServe")

end ProxyHandler

end VeloxServe
