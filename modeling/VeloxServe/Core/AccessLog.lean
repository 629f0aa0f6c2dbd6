import VeloxServe.Framework.QuotedFields
import VeloxServe.Http.WrittenRequest
import VeloxServe.Middleware.Logger

/-! # Entries of the Access Log

    `process_request` logs every request with the address of its client. Method,
    version and header values of an accepted request cannot end a line, and
    nothing in front of the request field can hold a quote. The path is the
    decoded one and may hold any byte, so it alone decides whether an entry is
    one line with a request field that can be read back.
-/

namespace VeloxServe

open StdString QuotedFields

/-! ## Client Addresses -/

/-- An IPv4 address. -/
structure InAddr where
  a : UInt8
  b : UInt8
  c : UInt8
  d : UInt8

/-- `inet_ntop(AF_INET, ...)`. -/
def inetNtop (addr : InAddr) : Bytes :=
  decimal addr.a.toNat ++ bytes "." ++ decimal addr.b.toNat ++ bytes "." ++
  decimal addr.c.toNat ++ bytes "." ++ decimal addr.d.toNat

/-- `get_client_ip`, by what `getpeername` gives. -/
def getClientIp : Option InAddr → Bytes
  | some addr => inetNtop addr
  | none => bytes "unknown"

/-! ## Plain Texts -/

/-- Neither ends of line nor quotes. -/
abbrev Plain (s : Bytes) : Prop := ∀ b ∈ s, b ≠ 10 ∧ b ≠ 34

theorem Plain.newline {s : Bytes} (h : Plain s) : (10 : UInt8) ∉ s := fun hmem => (h 10 hmem).1 rfl

theorem Plain.quote {s : Bytes} (h : Plain s) : (34 : UInt8) ∉ s := fun hmem => (h 34 hmem).2 rfl

theorem Plain.append {s t : Bytes} (hs : Plain s) (ht : Plain t) : Plain (s ++ t) :=
  List.forall_mem_append.mpr ⟨hs, ht⟩

theorem plain_digit : ∀ b, isDigit b = true → b ≠ 10 ∧ b ≠ 34 := by
  decide +kernel

theorem plain_decimal (n : Nat) : Plain (decimal n) := by
  intro b hb
  exact plain_digit b (isDigit_of_mem_decimal hb)

theorem plain_intDecimal (i : Int) : Plain (intDecimal i) := by
  intro b hb
  rcases mem_intDecimal hb with rfl | hdigit
  · decide
  · exact plain_digit b hdigit

theorem plain_getClientIp (peer : Option InAddr) : Plain (getClientIp peer) := by
  have hdot : Plain (bytes ".") := by decide
  cases peer with
  | none => exact (by decide : Plain (bytes "unknown"))
  | some addr =>
    have hfirst := ((plain_decimal addr.a.toNat).append hdot).append (plain_decimal addr.b.toNat)
    have hsecond := (hfirst.append hdot).append (plain_decimal addr.c.toNat)
    exact (hsecond.append hdot).append (plain_decimal addr.d.toNat)

namespace LocalTime

theorem plain_twoDigits (n : Nat) : Plain (twoDigits n) := by
  have hzero : Plain (if n < 10 then bytes "0" else []) := by
    split
    · decide
    · exact List.forall_mem_nil _
  exact hzero.append (plain_decimal n)

theorem plain_monthName : ∀ mon, Plain (monthName mon) := by
  decide

theorem plain_zone (offset : Int) : Plain (zone offset) := by
  have hsign : Plain (if offset < 0 then bytes "-" else bytes "+") := by
    split <;> decide
  exact (hsign.append (plain_twoDigits _)).append (plain_twoDigits _)

theorem plain_putTime (t : LocalTime) : Plain t.putTime := by
  have hslash : Plain (bytes "/") := by decide
  have hcolon : Plain (bytes ":") := by decide
  have hblank : Plain (bytes " ") := by decide
  have hday := ((plain_twoDigits t.mday).append hslash).append (plain_monthName t.mon)
  have hdate := (hday.append hslash).append (plain_intDecimal t.year)
  have hhour := (hdate.append hcolon).append (plain_twoDigits t.hour)
  have hminute := (hhour.append hcolon).append (plain_twoDigits t.min)
  have htime := (hminute.append hcolon).append (plain_twoDigits t.sec)
  exact (htime.append hblank).append (plain_zone t.offset)

end LocalTime

/-! ## The Parts of an Entry -/

section

variable (time : LocalTime) (req : HttpRequest) (resp : HttpResponse) (clientIp : Bytes)
  (durationMs : Int)

/-- The entry in front of the request field. -/
def entryFront : Bytes := clientIp ++ bytes " - - [" ++ time.putTime ++ bytes "] "

/-- The request field. -/
def requestField : Bytes := req.method ++ 32 :: (req.path ++ 32 :: req.version)

/-- The entry behind the request field. -/
def entryBack : Bytes :=
  bytes " " ++ intDecimal resp.statusCode ++ bytes " " ++ decimal resp.body.length ++ bytes " \"" ++
  req.getHeader (bytes "referer") (bytes "-") ++ bytes "\" \"" ++
  req.getHeader (bytes "user-agent") (bytes "-") ++ bytes "\" " ++ intDecimal durationMs ++ bytes "ms"

theorem accessLine_eq (hmethod : req.method ≠ []) (hpath : req.path ≠ []) (hversion : req.version ≠ []) :
    Logger.accessLine time req resp clientIp durationMs =
      entryFront time clientIp ++
        34 :: (requestField req ++ 34 :: (entryBack req resp durationMs ++ [10])) := by
  have hquote : bytes "\"" = [34] := by decide
  have hblank : bytes " " = [32] := by decide
  have hend : bytes "\" " = [34, 32] := by decide
  have hopen : bytes " \"" = [32, 34] := by decide
  have hlast : bytes "ms\n" = bytes "ms" ++ [10] := by decide
  unfold Logger.accessLine entryFront requestField entryBack
  dsimp only
  rw [if_neg hmethod, if_neg hpath, if_neg hversion, hquote, hblank, hend, hopen, hlast]
  simp only [List.append_assoc, List.cons_append, List.nil_append]

end

/-! ## Accepted Requests -/

/-- One line, in which the request can be read. -/
structure OneEntry (line : Bytes) (req : HttpRequest) : Prop where
  isLine : IsLine 10 line
  request : outerWords 32 (quoted 34 line) = some (req.method, req.path, req.version)

section

variable {req : HttpRequest} (time : LocalTime) (resp : HttpResponse) (peer : Option InAddr)
  (durationMs : Int)

/-- What is known of the method and of the version. -/
theorem plain_method {method : Bytes} (h : isValidMethod method = true) :
    method ≠ [] ∧ Plain method ∧ (32 : UInt8) ∉ method := by
  have hall : ∀ m ∈ [bytes "GET", bytes "POST", bytes "PUT", bytes "DELETE", bytes "HEAD",
      bytes "OPTIONS"], m ≠ [] ∧ Plain m ∧ (32 : UInt8) ∉ m := by decide +kernel
  apply hall
  simpa [isValidMethod, or_assoc] using h

theorem plain_version {version : Bytes} (h : IsVersion version) :
    version ≠ [] ∧ Plain version ∧ (32 : UInt8) ∉ version := by
  rcases h with rfl | rfl <;> decide +kernel

theorem Accepted.path_ne_nil (h : Accepted req) : req.path ≠ [] := by
  intro hnil
  have hslash := h.wellFormed.path
  rw [hnil] at hslash
  cases hslash

/-- A header value is one line. -/
theorem Accepted.not_mem_getHeader (h : Accepted req) (key : Bytes) {defaultVal : Bytes}
    (hdefault : (10 : UInt8) ∉ defaultVal) : (10 : UInt8) ∉ req.getHeader key defaultVal := by
  unfold HttpRequest.getHeader
  cases hlookup : req.headers.lookup (toLower key) with
  | none => exact hdefault
  | some value => exact (h.wellFormed.headers _ value hlookup).valueLine

theorem not_mem_entryBack (h : Accepted req) : (10 : UInt8) ∉ entryBack req resp durationMs := by
  have hreferer := h.not_mem_getHeader (bytes "referer") (by decide : (10 : UInt8) ∉ bytes "-")
  have hagent := h.not_mem_getHeader (bytes "user-agent") (by decide : (10 : UInt8) ∉ bytes "-")
  have hstatus := (plain_intDecimal resp.statusCode).newline
  have hsize := (plain_decimal resp.body.length).newline
  have hduration := (plain_intDecimal durationMs).newline
  have hwords : (10 : UInt8) ∉ bytes " " ∧ (10 : UInt8) ∉ bytes " \"" ∧
      (10 : UInt8) ∉ bytes "\" \"" ∧ (10 : UInt8) ∉ bytes "\" " ∧ (10 : UInt8) ∉ bytes "ms" := by
    decide
  unfold entryBack
  simp [hreferer, hagent, hstatus, hsize, hduration, hwords]

theorem plain_entryFront : Plain (entryFront time (getClientIp peer)) := by
  have hopen : Plain (bytes " - - [") := by decide
  have hclose : Plain (bytes "] ") := by decide
  exact (((plain_getClientIp peer).append hopen).append time.plain_putTime).append hclose

theorem Accepted.accessLine_eq (h : Accepted req) (clientIp : Bytes) :
    Logger.accessLine time req resp clientIp durationMs =
      entryFront time clientIp ++
        34 :: (requestField req ++ 34 :: (entryBack req resp durationMs ++ [10])) :=
  VeloxServe.accessLine_eq time req resp clientIp durationMs (plain_method h.wellFormed.method).1
    h.path_ne_nil (plain_version h.version).1

/-- Every end of line in an entry but the last stands in the path. -/
theorem count_accessLine (h : Accepted req) :
    (Logger.accessLine time req resp (getClientIp peer) durationMs).count 10 =
      req.path.count 10 + 1 := by
  have hfront := List.count_eq_zero_of_not_mem (plain_entryFront time peer).newline
  have hmethod := List.count_eq_zero_of_not_mem (plain_method h.wellFormed.method).2.1.newline
  have hversion := List.count_eq_zero_of_not_mem (plain_version h.version).2.1.newline
  have hback := List.count_eq_zero_of_not_mem (not_mem_entryBack resp durationMs h)
  rw [h.accessLine_eq]
  unfold requestField
  simp [List.count_append, hfront, hmethod, hversion, hback]

theorem isLine_accessLine_iff (h : Accepted req) :
    IsLine 10 (Logger.accessLine time req resp (getClientIp peer) durationMs) ↔
      (10 : UInt8) ∉ req.path := by
  obtain ⟨entry, hentry⟩ : ∃ entry, Logger.accessLine time req resp (getClientIp peer) durationMs =
      entry ++ [10] := by
    refine ⟨entryFront time (getClientIp peer) ++
      34 :: (requestField req ++ 34 :: entryBack req resp durationMs), ?_⟩
    rw [h.accessLine_eq]
    simp
  have hcount := count_accessLine time resp peer durationMs h
  rw [hentry] at hcount ⊢
  rw [isLine_append_iff, hcount, ← List.count_eq_zero]
  omega

theorem oneEntry_accessLine_iff (h : Accepted req) :
    OneEntry (Logger.accessLine time req resp (getClientIp peer) durationMs) req ↔
      (10 : UInt8) ∉ req.path ∧ (34 : UInt8) ∉ req.path := by
  constructor
  · intro hentry
    refine ⟨(isLine_accessLine_iff time resp peer durationMs h).mp hentry.isLine, fun hmem => ?_⟩
    -- the path would be part of a text without quotes
    have hfield := eq_of_outerWords hentry.request
    refine not_mem_quoted 34 (Logger.accessLine time req resp (getClientIp peer) durationMs) ?_
    rw [hfield]
    simp [hmem]
  · intro hpath
    refine ⟨(isLine_accessLine_iff time resp peer durationMs h).mpr hpath.1, ?_⟩
    obtain ⟨-, hmethod, hfirst⟩ := plain_method h.wellFormed.method
    obtain ⟨-, hversion, hlast⟩ := plain_version h.version
    have hfield : (34 : UInt8) ∉ requestField req := by
      unfold requestField
      simp [hmethod.quote, hversion.quote, hpath.2]
    rw [h.accessLine_eq, quoted_append (plain_entryFront time peer).quote hfield]
    exact outerWords_append hfirst hlast req.path

/-- What `log_access` appends to an open log is one entry. -/
def LogsOneEntry (clientIp : Bytes) (req : HttpRequest) : Prop :=
  ∀ text, ∃ entry, OneEntry entry req ∧
    (Logger.logAccess time req resp clientIp durationMs { accessLog := some text }).accessLog =
      some (text ++ entry)

theorem logsOneEntry_iff_accessLine (clientIp : Bytes) (req : HttpRequest) :
    LogsOneEntry time resp durationMs clientIp req ↔
      OneEntry (Logger.accessLine time req resp clientIp durationMs) req := by
  constructor
  · intro hlogs
    obtain ⟨entry, hentry, hlog⟩ := hlogs []
    rw [← List.append_cancel_left (Option.some.inj hlog)] at hentry
    exact hentry
  · intro hentry text
    exact ⟨_, hentry, rfl⟩

/-- **`log_access` appends one line with a readable request field exactly when the path
    holds neither an end of line nor a quote.** -/
theorem oneEntry_iff (h : Accepted req) :
    LogsOneEntry time resp durationMs (getClientIp peer) req ↔
      (10 : UInt8) ∉ req.path ∧ (34 : UInt8) ∉ req.path := by
  rw [logsOneEntry_iff_accessLine]
  exact oneEntry_accessLine_iff time resp peer durationMs h

end

/-- A request for `/a b`. -/
def blankRequest : HttpRequest :=
  (({} : HttpParser).parse (bytes "GET /a+b HTTP/1.1\r\n\r\n") {}).2.2

/-- A request for a path of two lines. -/
def twoLineRequest : HttpRequest :=
  (({} : HttpParser).parse (bytes "GET /a%0Ab HTTP/1.1\r\n\r\n") {}).2.2

theorem accepted_blankRequest : Accepted blankRequest :=
  .of_parse (by decide +kernel) (by decide +kernel)

theorem accepted_twoLineRequest : Accepted twoLineRequest :=
  .of_parse (by decide +kernel) (by decide +kernel)

theorem oneEntry_blankRequest :
    LogsOneEntry ⟨10, 9, 2000, 13, 55, 36, 0⟩ {} 1 (getClientIp none) blankRequest ↔
      (10 : UInt8) ∉ blankRequest.path ∧ (34 : UInt8) ∉ blankRequest.path :=
  oneEntry_iff _ _ _ _ accepted_blankRequest

/-- An escaped end of line in the target. -/
theorem not_oneEntry_twoLines :
    ¬ ∀ (time : LocalTime) (req : HttpRequest) (resp : HttpResponse) (peer : Option InAddr)
      (durationMs : Int), Accepted req →
      LogsOneEntry time resp durationMs (getClientIp peer) req := by
  intro h
  have hlogs := h ⟨10, 9, 2000, 13, 55, 36, 0⟩ _ {} none 1 accepted_twoLineRequest
  have hentry := (logsOneEntry_iff_accessLine _ _ _ _ _).mp hlogs
  have hno := (isLine_accessLine_iff _ _ _ _ accepted_twoLineRequest).mp hentry.isLine
  exact hno (by decide +kernel)

end VeloxServe
