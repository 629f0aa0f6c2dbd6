import VeloxServe.Framework.Message
import VeloxServe.Framework.UnorderedMap

/-! # HTTP Request Parser

    `include/http/http_parser.h` and `src/http/http_parser.cpp`: the request
    record and the incremental parser. A parser keeps the bytes it has not
    consumed yet, whether the header block has been read, and the content
    length; each `parse` call appends data and may complete the request.
-/

namespace VeloxServe

open StdString Message

/-- Header fields, keys lowercased. -/
abbrev HeaderMap : Type := UnorderedMap Bytes Bytes

/-! ## Requests -/

/-- A fully parsed HTTP request. -/
structure HttpRequest where
  method : Bytes := []
  /-- Decoded, without the query string. -/
  path : Bytes := []
  /-- Raw, after `?`. -/
  queryString : Bytes := []
  version : Bytes := []
  clientIp : Bytes := []
  headers : HeaderMap := ∅
  body : Bytes := []
  isComplete : Bool := false
  isValid : Bool := false
  deriving DecidableEq

/-- Case-insensitive header lookup. -/
def HttpRequest.getHeader (req : HttpRequest) (key defaultVal : Bytes) : Bytes :=
  (req.headers.lookup (toLower key)).getD defaultVal

/-- HTTP/1.1 keeps the connection unless told to close it, HTTP/1.0 only when asked to. -/
def HttpRequest.wantsKeepAlive (req : HttpRequest) : Bool :=
  let lowerConn := toLower (req.getHeader (bytes "connection") [])
  if req.version = bytes "HTTP/1.1" then lowerConn ≠ bytes "close"
  else lowerConn = bytes "keep-alive"

/-! ## String Helpers -/

/-- The characters `trim` removes: `" \t\r\n"`. -/
def isTrimmed (b : UInt8) : Bool := b == 32 || b == 9 || b == 13 || b == 10

def trim (str : Bytes) : Bytes := strip isTrimmed str

/-- `+` stands for a space outside escapes. -/
def decodeByte (b : UInt8) : UInt8 := if b = 43 then 32 else b

/-- Percent decoding: `%XX` becomes the byte, `+` a space; an incomplete or
    malformed escape is kept as it is. -/
def urlDecode : Bytes → Bytes
  | [] => []
  | [b] => [decodeByte b]
  | [b, c] => decodeByte b :: urlDecode [c]
  | b :: high :: low :: str =>
    if b = 37 ∧ isXDigit high ∧ isXDigit low then
      (16 * hexValue high + hexValue low) :: urlDecode str
    else decodeByte b :: urlDecode (high :: low :: str)

def isValidMethod (method : Bytes) : Bool :=
  method == bytes "GET" || method == bytes "POST" || method == bytes "PUT" ||
    method == bytes "DELETE" || method == bytes "HEAD" || method == bytes "OPTIONS"

/-! ## Request Line and Header Lines -/

/-- Split the URI at `?` and decode the path. -/
def setUri (uri : Bytes) (req : HttpRequest) : HttpRequest :=
  let req := match find (bytes "?") uri with
    | some queryPos =>
      { req with
        path := urlDecode (uri.take queryPos)
        queryString := uri.drop (queryPos + 1) }
    | none => { req with path := urlDecode uri }
  -- ensure the path starts with /
  if req.path.head? = some 47 then req else { req with path := 47 :: req.path }

/-- `"GET /path?query HTTP/1.1"`. The fields read before a failure stay assigned. -/
def parseRequestLine (line : Bytes) (req : HttpRequest) : Bool × HttpRequest :=
  match extractWord line with
  | none => (false, req)
  | some (method, stream) =>
    let req := { req with method := method }
    match extractWord stream with
    | none => (false, req)
    | some (uri, stream) =>
      match extractWord stream with
      | none => (false, req)
      | some (version, _) =>
        let req := { req with version := version }
        if !isValidMethod method then (false, req)
        else if version ≠ bytes "HTTP/1.1" ∧ version ≠ bytes "HTTP/1.0" then (false, req)
        else (true, setUri uri req)

/-- One line of the header section; a line without a colon is skipped. -/
def parseHeaderLine (req : HttpRequest) (line : Bytes) : HttpRequest :=
  let line := if line.getLast? = some 13 then line.dropLast else line
  if line = [] then req
  else match find (bytes ":") line with
    | none => req
    | some colon =>
      let key := toLower (trim (line.take colon))
      let value := trim (line.drop (colon + 1))
      { req with headers := UnorderedMap.set key value req.headers }

/-- The header lines after the request line. -/
def parseHeaders (headerSection : Bytes) (req : HttpRequest) : Bool × HttpRequest :=
  (true, (getlines 10 headerSection).foldl parseHeaderLine req)

/-! ## The Parser -/

/-- The state kept between `parse` calls. -/
structure HttpParser where
  buffer : Bytes := []
  headersParsed : Bool := false
  contentLength : Nat := 0
  deriving DecidableEq

namespace HttpParser

/-- The first line of a header section and the rest of it. -/
def splitRequestLine (headerSection : Bytes) : Bytes × Bytes :=
  match find crlf headerSection with
  | some firstLineEnd => (headerSection.take firstLineEnd, headerSection.drop (firstLineEnd + 2))
  | none => (headerSection, [])

/-- The value `parse` takes for the content length: a header that `stoul` rejects counts as 0. -/
def headerContentLength (req : HttpRequest) : Nat :=
  match req.headers.lookup (bytes "content-length") with
  | some value =>
    match stoul value with
    | .ok n => n
    | .error _ => 0
  | none => 0

/-- Request line and headers of a header section; `false` for an invalid request. -/
def parseHeaderSection (headerSection : Bytes) (request : HttpRequest) : Bool × HttpRequest :=
  let (requestLine, remainingHeaders) := splitRequestLine headerSection
  match parseRequestLine requestLine request with
  | (false, request) => (false, { request with isValid := false })
  | (true, request) =>
    if remainingHeaders = [] then (true, request)
    else match parseHeaders remainingHeaders request with
      | (false, request) => (false, { request with isValid := false })
      | (true, request) => (true, request)

/-- Stage 2: the body, once `contentLength` bytes of it are there. -/
def parseBody (p : HttpParser) (request : HttpRequest) : Bool × HttpParser × HttpRequest :=
  if p.contentLength > 0 then
    if p.buffer.length ≥ p.contentLength then
      (true, { p with buffer := p.buffer.drop p.contentLength },
        { request with
          body := p.buffer.take p.contentLength
          isComplete := true
          isValid := true })
    else (false, p, request)
  else (true, p, { request with isComplete := true, isValid := true })

/-- Feed raw bytes; `true` when the request is complete or found invalid. -/
def parse (p : HttpParser) (data : Bytes) (request : HttpRequest) :
    Bool × HttpParser × HttpRequest :=
  let p := { p with buffer := p.buffer ++ data }
  if p.headersParsed then parseBody p request
  else match find blankLine p.buffer with
    | none => (false, p, request)
    | some headerEnd =>
      match parseHeaderSection (p.buffer.take headerEnd) request with
      | (false, request) => (true, p, request)
      | (true, request) =>
        parseBody
          { buffer := p.buffer.drop (headerEnd + 4)
            headersParsed := true
            contentLength := headerContentLength request }
          request

end HttpParser

end VeloxServe
