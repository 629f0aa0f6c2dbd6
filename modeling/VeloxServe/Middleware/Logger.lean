import VeloxServe.Http.HttpResponse

/-! # Logger

    `src/middleware/logger.cpp`: the access log in Combined Log Format. The
    local time of a call is an argument; the error log and what is copied to the
    console are left out.
-/

namespace VeloxServe

open StdString

/-- The fields of a `std::tm` that are printed. -/
structure LocalTime where
  mday : Nat
  mon : Fin 12
  year : Int
  hour : Nat
  min : Nat
  sec : Nat
  /-- Minutes east of UTC. -/
  offset : Int

namespace LocalTime

/-- `%d`, `%H`, `%M` and `%S`. -/
def twoDigits (n : Nat) : Bytes := (if n < 10 then bytes "0" else []) ++ decimal n

/-- `%b`. -/
def monthName : Fin 12 → Bytes
  | 0 => bytes "Jan"
  | 1 => bytes "Feb"
  | 2 => bytes "Mar"
  | 3 => bytes "Apr"
  | 4 => bytes "May"
  | 5 => bytes "Jun"
  | 6 => bytes "Jul"
  | 7 => bytes "Aug"
  | 8 => bytes "Sep"
  | 9 => bytes "Oct"
  | 10 => bytes "Nov"
  | 11 => bytes "Dec"

/-- `%z`. -/
def zone (offset : Int) : Bytes :=
  (if offset < 0 then bytes "-" else bytes "+") ++ twoDigits (offset.natAbs / 60) ++
    twoDigits (offset.natAbs % 60)

/-- `std::put_time` with `"%d/%b/%Y:%H:%M:%S %z"`. -/
def putTime (t : LocalTime) : Bytes :=
  twoDigits t.mday ++ bytes "/" ++ monthName t.mon ++ bytes "/" ++ intDecimal t.year ++
  bytes ":" ++ twoDigits t.hour ++ bytes ":" ++ twoDigits t.min ++ bytes ":" ++
  twoDigits t.sec ++ bytes " " ++ zone t.offset

example : putTime ⟨10, 9, 2000, 13, 55, 36, -420⟩ = bytes "10/Oct/2000:13:55:36 -0700" := by
  decide +kernel

end LocalTime

/-- The access log: the text of the file, unless it could not be opened. -/
structure Logger where
  accessLog : Option Bytes := none

namespace Logger

/-- `log_line`: `%h %l %u %t "%r" %>s %b "%{Referer}i" "%{User-Agent}i"`. -/
def accessLine (time : LocalTime) (req : HttpRequest) (resp : HttpResponse) (clientIp : Bytes)
    (durationMs : Int) : Bytes :=
  let method := if req.method = [] then bytes "-" else req.method
  let path := if req.path = [] then bytes "-" else req.path
  let version := if req.version = [] then bytes "-" else req.version
  let userAgent := req.getHeader (bytes "user-agent") (bytes "-")
  let referer := req.getHeader (bytes "referer") (bytes "-")
  clientIp ++ bytes " - - [" ++ time.putTime ++ bytes "] " ++
  bytes "\"" ++ method ++ bytes " " ++ path ++ bytes " " ++ version ++ bytes "\" " ++
  intDecimal resp.statusCode ++ bytes " " ++ decimal resp.body.length ++ bytes " " ++
  bytes "\"" ++ referer ++ bytes "\" \"" ++ userAgent ++ bytes "\" " ++
  intDecimal durationMs ++ bytes "ms\n"

/-- An open log is appended to. -/
def logAccess (time : LocalTime) (req : HttpRequest) (resp : HttpResponse) (clientIp : Bytes)
    (durationMs : Int) (logger : Logger) : Logger :=
  { logger with
    accessLog := logger.accessLog.map (· ++ accessLine time req resp clientIp durationMs) }

end Logger

end VeloxServe
