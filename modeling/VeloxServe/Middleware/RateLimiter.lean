import Mathlib.Algebra.Order.Ring.Unbundled.Rat
import VeloxServe.Framework.UnorderedMap
import VeloxServe.Middleware.Cache

/-! # Rate Limiter

    `include/middleware/rate_limiter.h` and `src/middleware/rate_limiter.cpp`:
    a token bucket for each client address, with exact rational arithmetic in
    place of `double`.
-/

namespace VeloxServe

open StdString

structure TokenBucket where
  tokens : Rat
  lastRefill : Time
  deriving DecidableEq

structure RateLimiter where
  rate : Rat := 100
  burst : Rat := 200
  enabled : Bool := true
  buckets : UnorderedMap Bytes TokenBucket := ∅
  totalRequests : Nat := 0
  blockedRequests : Nat := 0
  lastCleanup : Time := 0

/-- What `get_stats` reports. -/
structure RateLimiterStats where
  total : Nat
  blocked : Nat
  activeIps : Nat

namespace RateLimiter

/-- The limiter `Server::Server` makes for a configured `rate_limit`. -/
def configured (rateLimit : Int) (now : Time) : RateLimiter where
  rate := if rateLimit > 0 then rateLimit else 1000000
  burst := if rateLimit > 0 then rateLimit * 2 else 200
  enabled := rateLimit > 0
  lastCleanup := now

/-- `duration<double>(later - earlier).count()`. -/
def elapsed (later earlier : Time) : Rat := (later - earlier : Int) / 1000000000

/-- Whether the client has a token left; if so, it is consumed. -/
def isAllowed (clientIp : Bytes) (now : Time) (rl : RateLimiter) : Bool × RateLimiter :=
  if !rl.enabled then (true, rl)
  else
    let rl := { rl with totalRequests := rl.totalRequests + 1 }
    match rl.buckets.lookup clientIp with
    | none =>
      -- first time seeing this address
      (true, { rl with buckets := UnorderedMap.set clientIp ⟨rl.burst - 1, now⟩ rl.buckets })
    | some bucket =>
      let tokens := min rl.burst (bucket.tokens + elapsed now bucket.lastRefill * rl.rate)
      if tokens ≥ 1 then
        (true, { rl with buckets := UnorderedMap.set clientIp ⟨tokens - 1, now⟩ rl.buckets })
      else
        (false, { rl with
          buckets := UnorderedMap.set clientIp ⟨tokens, now⟩ rl.buckets
          blockedRequests := rl.blockedRequests + 1 })

def getStats (rl : RateLimiter) : RateLimiterStats where
  total := rl.totalRequests
  blocked := rl.blockedRequests
  activeIps := rl.buckets.entries.length

/-- Erase the buckets that were not used for a long time, once a minute at most. -/
def cleanupExpired (now : Time) (rl : RateLimiter) (maxAgeSeconds : Int := 3600) : RateLimiter :=
  if !rl.enabled then rl
  else if elapsedSeconds now rl.lastCleanup < 60 then rl
  else
    { rl with
      buckets := UnorderedMap.eraseIf
        (fun _ bucket => elapsedSeconds now bucket.lastRefill > maxAgeSeconds) rl.buckets
      lastCleanup := now }

end RateLimiter

end VeloxServe
