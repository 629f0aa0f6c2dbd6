import VeloxServe.Http.HttpParser

/-! # HTTP Responses

    `src/http/http_response.cpp`: the response record, its serialisation
    `build()` and the factory methods. `build` iterates over a hash map, so it
    takes the iteration order as a parameter.

    The main result is what a recipient reads in a built response whose status
    text and headers contain no CRLF: the status line, one line for each header
    and the lines `build` adds, then the body.
-/

namespace VeloxServe

open StdString Message UnorderedMap

/-- The iteration order of the header maps. -/
abbrev HeaderOrder : Type := IterOrder Bytes Bytes

structure HttpResponse where
  statusCode : Int := 200
  statusText : Bytes := bytes "OK"
  headers : HeaderMap := ∅
  body : Bytes := []
  deriving DecidableEq

namespace HttpResponse

def setStatus (code : Int) (reason : Bytes) (r : HttpResponse) : HttpResponse :=
  { r with statusCode := code, statusText := reason }

def setHeader (key value : Bytes) (r : HttpResponse) : HttpResponse :=
  { r with headers := UnorderedMap.set key value r.headers }

/-- Header lookup; unlike `HttpRequest.getHeader`, the key is taken as it is. -/
def getHeader (r : HttpResponse) (key defaultVal : Bytes) : Bytes :=
  (r.headers.lookup key).getD defaultVal

def setBody (body : Bytes) (r : HttpResponse) : HttpResponse :=
  { r with body := body }

@[simp] theorem setStatus_headers (code : Int) (reason : Bytes) (r : HttpResponse) :
    (r.setStatus code reason).headers = r.headers := rfl
@[simp] theorem setHeader_headers (key value : Bytes) (r : HttpResponse) :
    (r.setHeader key value).headers = UnorderedMap.set key value r.headers := rfl
@[simp] theorem setHeader_body (key value : Bytes) (r : HttpResponse) :
    (r.setHeader key value).body = r.body := rfl
@[simp] theorem setHeader_statusCode (key value : Bytes) (r : HttpResponse) :
    (r.setHeader key value).statusCode = r.statusCode := rfl
@[simp] theorem setHeader_statusText (key value : Bytes) (r : HttpResponse) :
    (r.setHeader key value).statusText = r.statusText := rfl
@[simp] theorem setBody_headers (body : Bytes) (r : HttpResponse) :
    (r.setBody body).headers = r.headers := rfl
@[simp] theorem setBody_body (body : Bytes) (r : HttpResponse) :
    (r.setBody body).body = body := rfl
@[simp] theorem setBody_statusCode (body : Bytes) (r : HttpResponse) :
    (r.setBody body).statusCode = r.statusCode := rfl
@[simp] theorem setBody_statusText (body : Bytes) (r : HttpResponse) :
    (r.setBody body).statusText = r.statusText := rfl

theorem setBody_setHeader (body key value : Bytes) (r : HttpResponse) :
    (r.setHeader key value).setBody body = (r.setBody body).setHeader key value := rfl

/-- The last body counts. -/
theorem setBody_setBody (body body' : Bytes) (r : HttpResponse) :
    (r.setBody body).setBody body' = r.setBody body' := rfl

/-! ## Serialisation -/

/-- `"HTTP/1.1 200 OK\r\nHeaders...\r\n\r\nBody"`, with Content-Length, Server
    and Connection added where they are not set. -/
def build (ord : HeaderOrder) (r : HttpResponse) : Bytes :=
  bytes "HTTP/1.1 " ++ intDecimal r.statusCode ++ bytes " " ++ r.statusText ++ crlf ++
  (ord.order r.headers).flatMap (fun kv => kv.1 ++ bytes ": " ++ kv.2 ++ crlf) ++
  (if bytes "Content-Length" ∈ r.headers then []
    else bytes "Content-Length: " ++ decimal r.body.length ++ crlf) ++
  (if bytes "Server" ∈ r.headers then [] else bytes "Server: VeloxServe/1.0" ++ crlf) ++
  (if bytes "Connection" ∈ r.headers then [] else bytes "Connection: close" ++ crlf) ++
  crlf ++ r.body

/-- The status line. -/
def statusLine (r : HttpResponse) : Bytes :=
  bytes "HTTP/1.1 " ++ intDecimal r.statusCode ++ bytes " " ++ r.statusText

/-- The headers `build` adds to those that are set. -/
def addedHeaders (r : HttpResponse) : List (Bytes × Bytes) :=
  (if bytes "Content-Length" ∈ r.headers then []
    else [(bytes "Content-Length", decimal r.body.length)]) ++
  (if bytes "Server" ∈ r.headers then [] else [(bytes "Server", bytes "VeloxServe/1.0")]) ++
  (if bytes "Connection" ∈ r.headers then [] else [(bytes "Connection", bytes "close")])

/-- The headers of the serialised response, in the order they are written. -/
def builtHeaders (ord : HeaderOrder) (r : HttpResponse) : List (Bytes × Bytes) :=
  ord.order r.headers ++ r.addedHeaders

/-- `"Name: value"`. -/
def fieldLine (kv : Bytes × Bytes) : Bytes := kv.1 ++ bytes ": " ++ kv.2

theorem build_eq (ord : HeaderOrder) (r : HttpResponse) :
    r.build ord = writeLines (r.statusLine :: (r.builtHeaders ord).map fieldLine) ++ crlf ++ r.body := by
  have hset : (ord.order r.headers).flatMap (fun kv => kv.1 ++ bytes ": " ++ kv.2 ++ crlf) =
      writeLines ((ord.order r.headers).map fieldLine) := by
    simp [writeLines, fieldLine, List.flatMap_map]
  have hlength : bytes "Content-Length: " = bytes "Content-Length" ++ bytes ": " := by decide
  have hserver : bytes "Server: VeloxServe/1.0" =
      bytes "Server" ++ bytes ": " ++ bytes "VeloxServe/1.0" := by decide
  have hconn : bytes "Connection: close" = bytes "Connection" ++ bytes ": " ++ bytes "close" := by
    decide
  unfold build
  rw [hset, hlength, hserver, hconn]
  by_cases h₁ : bytes "Content-Length" ∈ r.headers <;>
    by_cases h₂ : bytes "Server" ∈ r.headers <;>
    by_cases h₃ : bytes "Connection" ∈ r.headers <;>
    simp [h₁, h₂, h₃, builtHeaders, addedHeaders, writeLines, statusLine, fieldLine]

theorem build_ne_nil (ord : HeaderOrder) (r : HttpResponse) : r.build ord ≠ [] := by
  rw [build_eq]
  simp [crlf]

/-- No header name is written twice. -/
theorem builtHeaders_nodup (ord : HeaderOrder) (r : HttpResponse) :
    ((r.builtHeaders ord).map Prod.fst).Nodup := by
  have hset := ord.order_nodup r.headers
  have hlength : bytes "Content-Length" ≠ bytes "Server" := by decide
  have hlength' : bytes "Content-Length" ≠ bytes "Connection" := by decide
  have hserver : bytes "Server" ≠ bytes "Connection" := by decide
  have hmem : ∀ k, k ∈ (ord.order r.headers).map Prod.fst → k ∈ r.headers := by
    intro k hk
    obtain ⟨⟨k', v⟩, hkv, rfl⟩ := List.mem_map.mp hk
    exact AList.lookup_isSome.mp (ord.mem_order.mp hkv ▸ rfl)
  have hadded : (r.addedHeaders.map Prod.fst).Nodup ∧
      ∀ k ∈ r.addedHeaders.map Prod.fst, k ∉ r.headers := by
    unfold addedHeaders
    by_cases h₁ : bytes "Content-Length" ∈ r.headers <;>
      by_cases h₂ : bytes "Server" ∈ r.headers <;>
      by_cases h₃ : bytes "Connection" ∈ r.headers <;>
      simp [h₁, h₂, h₃, hlength, hlength', hserver]
  unfold builtHeaders
  rw [List.map_append, List.nodup_append]
  refine ⟨hset, hadded.1, ?_⟩
  intro k hk k' hk' heq
  exact hadded.2 k' hk' (heq ▸ hmem k hk)

/-! ## What a Recipient Reads -/

/-- No CRLF in the status text, in a header name or in a header value. -/
structure Clean (r : HttpResponse) : Prop where
  statusText : ¬ crlf <:+: r.statusText
  header : ∀ k v, r.headers.lookup k = some v → ¬ crlf <:+: k ∧ ¬ crlf <:+: v

theorem fieldLine_ne_nil (kv : Bytes × Bytes) : fieldLine kv ≠ [] := by
  have h : bytes ": " ≠ [] := by decide
  simp [fieldLine, h]

theorem nil_not_mem_fieldLines (kvs : List (Bytes × Bytes)) : [] ∉ kvs.map fieldLine := by
  intro hmem
  obtain ⟨kv, -, hkv⟩ := List.mem_map.mp hmem
  exact fieldLine_ne_nil kv hkv

theorem not_infix_fieldLine {kv : Bytes × Bytes} (hk : ¬ crlf <:+: kv.1) (hv : ¬ crlf <:+: kv.2) :
    ¬ crlf <:+: fieldLine kv := by
  have hsep : bytes ": " = [58, 32] := by decide
  intro hin
  rw [fieldLine, hsep, List.append_assoc] at hin
  rcases infix_append_cons (by decide) hin with h | h
  · exact hk h
  · rcases infix_append_cons (x := []) (by decide) h with h | h
    · exact absurd h.length_le (by decide)
    · exact hv h

theorem not_infix_statusLine {r : HttpResponse} (h : ¬ crlf <:+: r.statusText) :
    ¬ crlf <:+: r.statusLine := by
  have hsep : bytes " " = [32] := by decide
  have hnum : ¬ crlf <:+: bytes "HTTP/1.1 " ++ intDecimal r.statusCode := by
    apply not_infix_of_not_mem
    intro hmem
    rcases List.mem_append.mp hmem with hmem | hmem
    · exact absurd hmem (by decide)
    · exact absurd (mem_intDecimal hmem) (by decide)
  intro hin
  rw [statusLine, hsep, List.append_assoc] at hin
  rcases infix_append_cons (by decide) hin with h' | h'
  · exact hnum h'
  · exact h h'

theorem Clean.builtHeaders {r : HttpResponse} (h : r.Clean) (ord : HeaderOrder) :
    ∀ kv ∈ r.builtHeaders ord, ¬ crlf <:+: kv.1 ∧ ¬ crlf <:+: kv.2 := by
  rintro ⟨k, v⟩ hkv
  have hlength : ¬ crlf <:+: bytes "Content-Length" := by decide
  have hserver : ¬ crlf <:+: bytes "Server" ∧ ¬ crlf <:+: bytes "VeloxServe/1.0" := by decide
  have hconn : ¬ crlf <:+: bytes "Connection" ∧ ¬ crlf <:+: bytes "close" := by decide
  rcases List.mem_append.mp hkv with hset | hadded
  · exact h.header k v (ord.mem_order.mp hset)
  · simp only [addedHeaders, List.mem_append, List.mem_ite_nil_left, List.mem_singleton,
      Prod.mk.injEq] at hadded
    rcases hadded with (⟨-, rfl, rfl⟩ | ⟨-, rfl, rfl⟩) | ⟨-, rfl, rfl⟩
    · exact ⟨hlength, not_infix_decimal _⟩
    · exact hserver
    · exact hconn

/-- The lines of a built response, whatever its headers contain. -/
theorem splitLines_build (ord : HeaderOrder) (r : HttpResponse) :
    splitLines (r.build ord) =
      (r.statusLine :: (r.builtHeaders ord).map fieldLine).flatMap splitLines ++
        [] :: splitLines r.body := by
  have hcut : splitLines (crlf ++ r.body) = [] :: splitLines r.body := splitLines_append [] r.body
  rw [build_eq, List.append_assoc, splitLines_writeLines, hcut]

theorem Clean.splitLines_build {r : HttpResponse} (h : r.Clean) (ord : HeaderOrder) :
    splitLines (r.build ord) =
      r.statusLine :: (r.builtHeaders ord).map fieldLine ++ [] :: splitLines r.body := by
  rw [HttpResponse.splitLines_build, flatMap_splitLines]
  intro line hline
  rcases List.mem_cons.mp hline with rfl | hmem
  · exact not_infix_statusLine h.statusText
  · obtain ⟨kv, hkv, rfl⟩ := List.mem_map.mp hmem
    obtain ⟨hk, hv⟩ := h.builtHeaders ord kv hkv
    exact not_infix_fieldLine hk hv

/-- **A clean response is read as it was meant**: its header lines are the set
    and the added headers, and the body follows the blank line. -/
theorem Clean.read_build {r : HttpResponse} (h : r.Clean) (ord : HeaderOrder) :
    headerLines (r.build ord) = (r.builtHeaders ord).map fieldLine ∧
      content (r.build ord) = r.body := by
  have hne : [] ∉ (r.builtHeaders ord).map fieldLine := nil_not_mem_fieldLines _
  obtain ⟨hh, hc⟩ := read_of_splitLines (h.splitLines_build ord) hne
  exact ⟨hh, by rw [hc, joinLines_splitLines]⟩

theorem Clean.setHeader {r : HttpResponse} (h : r.Clean) {key value : Bytes}
    (hk : ¬ crlf <:+: key) (hv : ¬ crlf <:+: value) : (r.setHeader key value).Clean where
  statusText := h.statusText
  header := by
    intro k v hkv
    rw [setHeader_headers, lookup_set] at hkv
    split at hkv
    · next heq =>
      obtain rfl : value = v := Option.some.inj hkv
      exact ⟨heq ▸ hk, hv⟩
    · exact h.header k v hkv

theorem Clean.setBody {r : HttpResponse} (h : r.Clean) (body : Bytes) : (r.setBody body).Clean :=
  ⟨h.statusText, h.header⟩

/-- A response without headers is clean when its status text is. -/
theorem Clean.fresh {code : Int} {reason body : Bytes} (h : ¬ crlf <:+: reason) :
    ({ statusCode := code, statusText := reason, body := body } : HttpResponse).Clean where
  statusText := h
  header := by
    intro k v hkv
    cases hkv

/-! ## Factory Methods -/

def ok (body : Bytes) (contentType : Bytes) : HttpResponse :=
  ({ statusCode := 200, statusText := bytes "OK" } : HttpResponse)
    |>.setHeader (bytes "Content-Type") contentType
    |>.setBody body

def notFound (body : Bytes) : HttpResponse :=
  ({ statusCode := 404, statusText := bytes "Not Found" } : HttpResponse)
    |>.setHeader (bytes "Content-Type") (bytes "text/html")
    |>.setBody (if body = [] then bytes "<html><body><h1>404 Not Found</h1></body></html>" else body)

def badRequest (body : Bytes) : HttpResponse :=
  ({ statusCode := 400, statusText := bytes "Bad Request" } : HttpResponse)
    |>.setHeader (bytes "Content-Type") (bytes "text/plain")
    |>.setBody body

def forbidden (body : Bytes) : HttpResponse :=
  ({ statusCode := 403, statusText := bytes "Forbidden" } : HttpResponse)
    |>.setHeader (bytes "Content-Type") (bytes "text/plain")
    |>.setBody body

def methodNotAllowed (allowed : Bytes) : HttpResponse :=
  ({ statusCode := 405, statusText := bytes "Method Not Allowed" } : HttpResponse)
    |>.setHeader (bytes "Content-Type") (bytes "text/plain")
    |>.setHeader (bytes "Allow") allowed
    |>.setBody (bytes "405 Method Not Allowed")

def internalError (body : Bytes) : HttpResponse :=
  ({ statusCode := 500, statusText := bytes "Internal Server Error" } : HttpResponse)
    |>.setHeader (bytes "Content-Type") (bytes "text/html")
    |>.setBody
      (if body = [] then bytes "<html><body><h1>500 Internal Server Error</h1></body></html>"
        else body)

def redirect (location : Bytes) : HttpResponse :=
  ({ statusCode := 301, statusText := bytes "Moved Permanently" } : HttpResponse)
    |>.setHeader (bytes "Location") location
    |>.setBody []

end HttpResponse

end VeloxServe
