import Mathlib.Algebra.Order.Ring.Rat
import Mathlib.Algebra.Field.Rat
import VeloxServe.Framework.TokenBucket
import VeloxServe.Middleware.RateLimiter

/-! # What the Rate Limiter Allows

    A limiter is compared with the log of its own decisions: a request is
    allowed exactly when every window that begins with an allowed request of
    the same client has room for it. The buckets of the limiter stand for the
    allowed requests of their clients, those that were erased included.
-/

namespace VeloxServe

open StdString

/-! ## Runs -/

inductive LimiterCall where
  | isAllowed (clientIp : Bytes)
  | cleanupExpired
  deriving DecidableEq

/-- What the limiter said to a request. -/
structure Decision where
  clientIp : Bytes
  time : Time
  allowed : Bool

/-- A limiter in use, with its decisions so far, latest first. -/
structure LimiterRun where
  limiter : RateLimiter
  log : List Decision := []

namespace LimiterRun

def step (run : LimiterRun) (call : Time × LimiterCall) : LimiterRun :=
  match call.2 with
  | .isAllowed clientIp =>
    let r := run.limiter.isAllowed clientIp call.1
    { limiter := r.2, log := ⟨clientIp, call.1, r.1⟩ :: run.log }
  | .cleanupExpired => { run with limiter := run.limiter.cleanupExpired call.1 }

/-- A limiter used from its construction on. -/
def of (limiter : RateLimiter) (calls : List (Time × LimiterCall)) : LimiterRun :=
  calls.foldl step { limiter }

end LimiterRun

/-- The times of the allowed requests of a client, latest first. -/
def admitted (clientIp : Bytes) (log : List Decision) : List Time :=
  (log.filter fun d => d.clientIp = clientIp ∧ d.allowed = true).map (·.time)

/-- The calls of one client. -/
def callsOf (clientIp : Bytes) (calls : List (Time × LimiterCall)) : List (Time × LimiterCall) :=
  calls.filter fun call => call.2 = .isAllowed clientIp

/-- A limiter with this rate looks at each client's windows and at nothing else. -/
structure LimitsWindows (rateLimit : Int) (start : Time) (calls : List (Time × LimiterCall)) :
    Prop where
  /-- Every window from an allowed request up to the new one counts. -/
  allowed_iff : ∀ after d before,
    (LimiterRun.of (.configured rateLimit start) calls).log = after ++ d :: before →
      (d.allowed = true ↔
        ∀ newer s older, admitted d.clientIp before = newer ++ s :: older →
          (newer.length + 2 : Rat) ≤ 2 * rateLimit + rateLimit * RateLimiter.elapsed d.time s)
  window : ∀ clientIp first last, first ≤ last →
    (((admitted clientIp (LimiterRun.of (.configured rateLimit start) calls).log).filter fun t =>
        first ≤ t ∧ t ≤ last).length : Rat) ≤
      2 * rateLimit + rateLimit * RateLimiter.elapsed last first
  isolated : ∀ clientIp,
    ((LimiterRun.of (.configured rateLimit start) calls).log.filter fun d =>
        d.clientIp = clientIp) =
      (LimiterRun.of (.configured rateLimit start) (callsOf clientIp calls)).log

/-! ## Looking at Windows -/

/-- The requests among the calls. -/
def requests (calls : List (Time × LimiterCall)) : List (Time × Bytes) :=
  calls.filterMap fun call =>
    match call.2 with
    | .isAllowed clientIp => some (call.1, clientIp)
    | .cleanupExpired => none

/-- The log of a limiter that remembers the requests it allowed instead of buckets. -/
def record (fits : List Time → Time → Bool) (log : List Decision) (req : Time × Bytes) :
    List Decision :=
  ⟨req.2, req.1, fits (admitted req.2 log) req.1⟩ :: log

section

variable (fits : List Time → Time → Bool)

theorem admitted_filter (clientIp : Bytes) (log : List Decision) :
    admitted clientIp (log.filter fun d => d.clientIp = clientIp) = admitted clientIp log := by
  unfold admitted
  rw [List.filter_filter]
  congr 2
  funext d
  by_cases h : d.clientIp = clientIp <;> simp [h]

theorem record_allowed {reqs : List (Time × Bytes)} {log : List Decision}
    (hlog : ∀ after d before, log = after ++ d :: before →
      d.allowed = fits (admitted d.clientIp before) d.time)
    {after before : List Decision} {d : Decision}
    (h : reqs.foldl (record fits) log = after ++ d :: before) :
    d.allowed = fits (admitted d.clientIp before) d.time := by
  induction reqs generalizing log with
  | nil => exact hlog after d before h
  | cons req reqs ih =>
    refine ih (fun after' d' before' h' => ?_) h
    cases after' with
    | nil =>
      obtain ⟨rfl, rfl⟩ := List.cons.inj h'
      rfl
    | cons d'' after' => exact hlog after' d' before' (List.cons.inj h').2

/-- Clients do not see each other's requests. -/
theorem record_filter (clientIp : Bytes) (reqs : List (Time × Bytes)) (log : List Decision) :
    ((reqs.foldl (record fits) log).filter fun d => d.clientIp = clientIp) =
      (reqs.filter fun req => req.2 = clientIp).foldl (record fits)
        (log.filter fun d => d.clientIp = clientIp) := by
  induction reqs generalizing log with
  | nil => rfl
  | cons req reqs ih =>
    rw [List.foldl_cons, ih]
    by_cases hreq : req.2 = clientIp
    · subst hreq
      rw [List.filter_cons_of_pos (by simp), List.foldl_cons]
      unfold record
      rw [List.filter_cons_of_pos (by simp), admitted_filter]
    · unfold record
      rw [List.filter_cons_of_neg (by simpa using hreq),
        List.filter_cons_of_neg (by simpa using hreq)]

/-- The log has the times of the requests. -/
theorem record_times (reqs : List (Time × Bytes)) (log : List Decision) :
    (reqs.foldl (record fits) log).map (·.time) = (reqs.map (·.1)).reverse ++ log.map (·.time) := by
  induction reqs generalizing log with
  | nil => rfl
  | cons req reqs ih =>
    rw [List.foldl_cons, ih]
    unfold record
    simp

end

theorem requests_callsOf (clientIp : Bytes) (calls : List (Time × LimiterCall)) :
    requests (callsOf clientIp calls) = (requests calls).filter fun req => req.2 = clientIp := by
  induction calls with
  | nil => rfl
  | cons call calls ih =>
    obtain ⟨t, c⟩ := call
    unfold requests callsOf at *
    cases c with
    | isAllowed ip =>
      by_cases hip : ip = clientIp
      · simp [hip, ih]
      · simp [hip, ih]
    | cleanupExpired => simp [ih]

theorem requests_times (calls : List (Time × LimiterCall)) :
    ((requests calls).map (·.1)).Sublist (calls.map (·.1)) := by
  induction calls with
  | nil => exact List.Sublist.slnil
  | cons call calls ih =>
    obtain ⟨t, c⟩ := call
    cases c with
    | isAllowed ip => exact ih.cons_cons t
    | cleanupExpired => exact ih.cons t

namespace RateLimiter

/-! ## Buckets and Admissions -/

/-- What a bucket gains at a rate. -/
def refill (rate : Rat) (h : 1 ≤ rate) : Refill Time Rat where
  gain := fun s t => elapsed t s * rate
  add := by
    intro r s t
    unfold elapsed
    push_cast
    ring
  nonneg := by
    intro s t hst
    have hdiff : (0 : Rat) ≤ ((t - s : Int) : Rat) := by
      exact_mod_cast Int.sub_nonneg_of_le hst
    have hrate : 0 ≤ rate := by linarith
    unfold elapsed
    positivity

/-- The bucket of a client, if it has one. -/
def bucketOf (rl : RateLimiter) (clientIp : Bytes) : Option (Rat × Time) :=
  (rl.buckets.lookup clientIp).map fun b => (b.tokens, b.lastRefill)

section

variable {rate : Rat} (hrate : 1 ≤ rate)

/-- The buckets stand for the requests that were allowed. -/
structure Tracks (rl : RateLimiter) (log : List Decision) (now : Time) : Prop where
  rate_eq : rl.rate = rate
  burst_eq : rl.burst = 2 * rate
  enabled : rl.enabled = true
  filled : ∀ clientIp b, rl.buckets.lookup clientIp = some b → 0 ≤ b.tokens ∧ b.lastRefill ≤ now
  bucket : ∀ clientIp, (refill rate hrate).StandsFor (2 * rate) (bucketOf rl clientIp)
    (admitted clientIp log) now

/-- Whether a request fits its client's windows. -/
def fits (past : List Time) (now : Time) : Bool := 1 ≤ (refill rate hrate).level (2 * rate) past now

variable {hrate} {rl : RateLimiter} {log : List Decision} {now : Time}

theorem Tracks.later {next : Time} (h : Tracks hrate rl log now) (hle : now ≤ next) :
    Tracks hrate rl log next :=
  { h with
    filled := fun clientIp b hb => ⟨(h.filled clientIp b hb).1, (h.filled clientIp b hb).2.trans hle⟩
    bucket := fun clientIp => (h.bucket clientIp).later hle }

/-- A request takes a token if there is one, and notes the time. -/
theorem Tracks.isAllowed_eq (h : Tracks hrate rl log now) (clientIp : Bytes) :
    ∃ total blocked, rl.isAllowed clientIp now =
      (fits hrate (admitted clientIp log) now,
        { rl with
          buckets := UnorderedMap.set clientIp
            ⟨if fits hrate (admitted clientIp log) now then
                (refill rate hrate).stock (2 * rate) (bucketOf rl clientIp) now - 1
              else (refill rate hrate).stock (2 * rate) (bucketOf rl clientIp) now, now⟩ rl.buckets
          totalRequests := total
          blockedRequests := blocked }) := by
  have hstock := h.bucket clientIp now le_rfl
  unfold fits
  rw [← hstock]
  unfold RateLimiter.isAllowed bucketOf
  rw [h.enabled, h.burst_eq, h.rate_eq]
  -- a client without a bucket has a full one
  cases hlook : rl.buckets.lookup clientIp with
  | none =>
    have hone : 1 ≤ 2 * rate := by linarith
    rw [Option.map_none, Refill.stock_none]
    exact ⟨rl.totalRequests + 1, rl.blockedRequests, by simp [hone, hlook]⟩
  | some b =>
    have hheld : (refill rate hrate).stock (2 * rate) (some (b.tokens, b.lastRefill)) now =
        min (2 * rate) (b.tokens + elapsed now b.lastRefill * rate) := rfl
    rw [Option.map_some, hheld]
    by_cases hone : 1 ≤ min (2 * rate) (b.tokens + elapsed now b.lastRefill * rate)
    · exact ⟨rl.totalRequests + 1, rl.blockedRequests, by
        simp only [hlook, ge_iff_le, if_pos hone]
        simp [hone]⟩
    · exact ⟨rl.totalRequests + 1, rl.blockedRequests + 1, by
        simp only [hlook, ge_iff_le, if_neg hone]
        simp [hone]⟩

theorem admitted_cons (clientIp : Bytes) (d : Decision) :
    admitted clientIp (d :: log) =
      if d.clientIp = clientIp ∧ d.allowed = true then d.time :: admitted clientIp log
      else admitted clientIp log := by
  unfold admitted
  by_cases hd : d.clientIp = clientIp ∧ d.allowed = true
  · rw [if_pos hd, List.filter_cons_of_pos (by simpa using hd)]
    rfl
  · rw [if_neg hd, List.filter_cons_of_neg (by simpa using hd)]

/-- Only the bucket of the client changes. -/
theorem bucketOf_set {limiter : RateLimiter} {clientIp : Bytes} {b : TokenBucket}
    (h : limiter.buckets = UnorderedMap.set clientIp b rl.buckets) (ip : Bytes) :
    bucketOf limiter ip = if ip = clientIp then some (b.tokens, b.lastRefill) else bucketOf rl ip := by
  unfold bucketOf
  rw [h, UnorderedMap.lookup_set]
  split <;> rfl

theorem Tracks.stock_nonneg (h : Tracks hrate rl log now) (clientIp : Bytes) :
    0 ≤ (refill rate hrate).stock (2 * rate) (bucketOf rl clientIp) now := by
  have hcap : 0 ≤ 2 * rate := by linarith
  unfold bucketOf
  cases hlook : rl.buckets.lookup clientIp with
  | none => exact hcap
  | some b =>
    obtain ⟨htokens, hnow⟩ := h.filled clientIp b hlook
    have hgain := (refill rate hrate).nonneg b.lastRefill now hnow
    exact le_min hcap (by linarith)

/-- A request leaves buckets that stand for what was allowed. -/
theorem Tracks.isAllowed (h : Tracks hrate rl log now) (clientIp : Bytes) :
    Tracks hrate (rl.isAllowed clientIp now).2
      (⟨clientIp, now, (rl.isAllowed clientIp now).1⟩ :: log) now := by
  obtain ⟨total, blocked, heq⟩ := h.isAllowed_eq clientIp
  have hheld : (refill rate hrate).stock (2 * rate) (bucketOf rl clientIp) now =
      (refill rate hrate).level (2 * rate) (admitted clientIp log) now :=
    h.bucket clientIp now le_rfl
  rw [heq]
  refine ⟨h.rate_eq, h.burst_eq, h.enabled, ?_, ?_⟩
  · -- no bucket goes below zero, as a token is taken only where there is one
    intro ip b hb
    rw [UnorderedMap.lookup_set] at hb
    split at hb
    · obtain rfl := Option.some.inj hb
      refine ⟨?_, le_rfl⟩
      dsimp only
      split
      · next hfits =>
        have hone : 1 ≤ (refill rate hrate).level (2 * rate) (admitted clientIp log) now := by
          simpa [fits] using hfits
        linarith
      · exact h.stock_nonneg clientIp
    · exact h.filled ip b hb
  · -- the client's bucket is refilled, and has one token less if the request was allowed
    intro ip
    rw [bucketOf_set rfl, admitted_cons]
    by_cases hip : ip = clientIp
    · subst hip
      by_cases hfits : fits hrate (admitted ip log) now = true
      · simp only [hfits, if_true, and_self]
        exact (h.bucket ip).admitted
      · simp only [hfits]
        exact (h.bucket ip).refilled
    · have hip' : ¬ clientIp = ip := fun heq => hip heq.symm
      rw [if_neg hip, if_neg (fun hd => hip' hd.1)]
      exact h.bucket ip

/-- A bucket that was not used for more than an hour is full. -/
theorem Tracks.full (h : Tracks hrate rl log now) {clientIp : Bytes} {b : TokenBucket}
    (hb : rl.buckets.lookup clientIp = some b) (hold : elapsedSeconds now b.lastRefill > 3600) :
    (refill rate hrate).stock (2 * rate) (bucketOf rl clientIp) now = 2 * rate := by
  obtain ⟨htokens, hnow⟩ := h.filled clientIp b hb
  have hlong : (3601000000000 : Int) ≤ now - b.lastRefill := by
    unfold elapsedSeconds at hold
    rw [Int.tdiv_eq_ediv_of_nonneg (Int.sub_nonneg_of_le hnow)] at hold
    omega
  have helapsed : (3601 : Rat) ≤ elapsed now b.lastRefill := by
    have hcast : (3601000000000 : Rat) ≤ ((now - b.lastRefill : Int) : Rat) := by
      exact_mod_cast hlong
    unfold elapsed
    linarith
  -- an hour fills any bucket of two seconds' worth of requests
  have hgain : 2 * rate ≤ elapsed now b.lastRefill * rate := by nlinarith
  unfold bucketOf
  rw [hb, Option.map_some, Refill.stock_some]
  exact min_eq_left (by
    have : (refill rate hrate).gain b.lastRefill now = elapsed now b.lastRefill * rate := rfl
    linarith)

/-- A cleanup erases full buckets only, which are made full again when needed. -/
theorem Tracks.cleanupExpired (h : Tracks hrate rl log now) :
    Tracks hrate (rl.cleanupExpired now) log now := by
  unfold RateLimiter.cleanupExpired
  rw [h.enabled]
  -- nothing is erased within a minute of the last cleanup
  by_cases hrecent : elapsedSeconds now rl.lastCleanup < 60
  · simp only [Bool.not_true, Bool.false_eq_true, if_false, hrecent, if_true]
    exact h
  · simp only [Bool.not_true, Bool.false_eq_true, if_false, hrecent]
    refine ⟨h.rate_eq, h.burst_eq, rfl, ?_, ?_⟩
    · intro ip b hb
      rw [UnorderedMap.lookup_eraseIf] at hb
      exact h.filled ip b (Option.eq_some_of_filter_eq_some hb)
    · intro ip
      have hbucket := h.bucket ip
      unfold bucketOf
      rw [UnorderedMap.lookup_eraseIf]
      cases hlook : rl.buckets.lookup ip with
      | none =>
        unfold bucketOf at hbucket
        rw [hlook] at hbucket
        exact hbucket
      | some b =>
        -- an erased bucket was full, any other one is kept
        by_cases hold : elapsedSeconds now b.lastRefill > 3600
        · have hfull := h.full hlook hold
          simp only [Option.filter_some, hold]
          exact hbucket.forgotten hfull
        · unfold bucketOf at hbucket
          rw [hlook] at hbucket
          simp only [Option.filter_some, hold]
          exact hbucket

/-- **The limiter decides as one that looks at the windows.** -/
theorem Tracks.log_eq {calls : List (Time × LimiterCall)} (h : Tracks hrate rl log now)
    (hnow : ∀ call ∈ calls, now ≤ call.1) (hordered : (calls.map (·.1)).Pairwise (· ≤ ·)) :
    (calls.foldl LimiterRun.step ⟨rl, log⟩).log =
      (requests calls).foldl (record (fits hrate)) log := by
  induction calls generalizing rl log now with
  | nil => rfl
  | cons call calls ih =>
    obtain ⟨t, c⟩ := call
    rw [List.map_cons, List.pairwise_cons] at hordered
    have hnext : ∀ call ∈ calls, t ≤ call.1 :=
      fun call hcall => hordered.1 call.1 (List.mem_map_of_mem hcall)
    have ht := h.later (hnow (t, c) List.mem_cons_self)
    cases c with
    | isAllowed clientIp =>
      have hdecision : (rl.isAllowed clientIp t).1 = fits hrate (admitted clientIp log) t := by
        obtain ⟨total, blocked, heq⟩ := ht.isAllowed_eq clientIp
        rw [heq]
      have hrest := ih (ht.isAllowed clientIp) hnext hordered.2
      rw [hdecision] at hrest
      rw [List.foldl_cons]
      unfold LimiterRun.step
      dsimp only
      rw [hdecision]
      exact hrest
    | cleanupExpired => exact ih ht.cleanupExpired hnext hordered.2

end

/-! ## A Configured Limiter -/

theorem one_le_cast {rateLimit : Int} (hrate : 1 ≤ rateLimit) : (1 : Rat) ≤ (rateLimit : Rat) := by
  exact_mod_cast hrate

section

variable {rateLimit : Int} (hrate : 1 ≤ rateLimit) (start : Time)
  {calls : List (Time × LimiterCall)}

/-- A limiter that has just been made stands for no requests. -/
theorem Tracks.configured (now : Time) :
    Tracks (one_le_cast hrate) (.configured rateLimit start) [] now := by
  have hpos : rateLimit > 0 := by omega
  refine ⟨if_pos hpos, (if_pos hpos).trans (mul_comm _ _), decide_eq_true hpos, ?_, fun ip => ?_⟩
  · intro ip b hb
    cases hb
  · exact Refill.StandsFor.start now

theorem log_configured (hordered : (calls.map (·.1)).Pairwise (· ≤ ·)) :
    (LimiterRun.of (.configured rateLimit start) calls).log =
      (requests calls).foldl (record (fits (one_le_cast hrate))) [] := by
  cases calls with
  | nil => rfl
  | cons call calls =>
    refine (Tracks.configured hrate start call.1).log_eq (fun c hc => ?_) hordered
    rw [List.map_cons, List.pairwise_cons] at hordered
    rcases List.mem_cons.mp hc with rfl | hc
    · exact le_rfl
    · exact hordered.1 c.1 (List.mem_map_of_mem hc)

theorem fits_iff {past : List Time} {now : Time} :
    fits (one_le_cast hrate) past now = true ↔
      (refill _ (one_le_cast hrate)).Fits (2 * rateLimit) past now := by
  have hone := one_le_cast hrate
  have hcap : (1 : Rat) ≤ 2 * rateLimit := by linarith
  rw [← Refill.one_le_level_iff hcap]
  unfold fits
  simp

/-- The allowed requests of a log each fitted. -/
theorem allFit_admitted {log : List Decision} (clientIp : Bytes)
    (hlog : ∀ after d before, log = after ++ d :: before →
      d.allowed = fits (one_le_cast hrate) (admitted d.clientIp before) d.time) :
    (refill _ (one_le_cast hrate)).AllFit (2 * rateLimit) (admitted clientIp log) := by
  induction log with
  | nil => trivial
  | cons d log ih =>
    have hd := hlog [] d log rfl
    have hrest := ih (fun after d' before h => hlog (d :: after) d' before (by rw [h]; rfl))
    rw [admitted_cons]
    split
    · next hallowed =>
      obtain ⟨rfl, hallowed⟩ := hallowed
      rw [hd] at hallowed
      exact ⟨(fits_iff hrate).mp hallowed, hrest⟩
    · exact hrest

/-- Requests are recorded latest first. -/
theorem admitted_sorted (hrate : 1 ≤ rateLimit)
    (hordered : (calls.map (·.1)).Pairwise (· ≤ ·)) (clientIp : Bytes) :
    (admitted clientIp (LimiterRun.of (.configured rateLimit start) calls).log).Pairwise
      (· ≥ ·) := by
  have htimes : ((LimiterRun.of (.configured rateLimit start) calls).log.map (·.time)).Pairwise
      (· ≥ ·) := by
    rw [log_configured hrate start hordered, record_times, List.map_nil, List.append_nil,
      List.pairwise_reverse]
    exact hordered.sublist (requests_times calls)
  exact htimes.sublist ((List.filter_sublist).map _)

/-- **Requests are limited by the windows of their client, exactly.** -/
theorem configured_limitsWindows (hrate : 1 ≤ rateLimit)
    (hordered : (calls.map (·.1)).Pairwise (· ≤ ·)) :
    LimitsWindows rateLimit start calls := by
  have hone := one_le_cast hrate
  have hcap : (1 : Rat) ≤ 2 * rateLimit := by linarith
  have hlog := log_configured hrate start hordered
  -- every decision was made on the log before it
  have hdecided : ∀ after d before,
      (LimiterRun.of (.configured rateLimit start) calls).log = after ++ d :: before →
        d.allowed = fits (one_le_cast hrate) (admitted d.clientIp before) d.time := by
    intro after d before h
    rw [hlog] at h
    refine record_allowed _ (fun after d before hnil => ?_) h
    cases after <;> cases hnil
  refine ⟨fun after d before h => ?_, fun clientIp first last hle => ?_, fun clientIp => ?_⟩
  · rw [hdecided after d before h, fits_iff hrate]
    unfold Refill.Fits refill
    simp only [mul_comm]
  · have hwindow := (allFit_admitted hrate clientIp hdecided).window hcap
      (admitted_sorted start hrate hordered clientIp) hle
    rw [mul_comm (rateLimit : Rat) (elapsed last first)]
    exact hwindow
  · have hcalls : ((callsOf clientIp calls).map (·.1)).Pairwise (· ≤ ·) :=
      hordered.sublist ((List.filter_sublist).map _)
    rw [hlog, log_configured hrate start hcalls, requests_callsOf, record_filter]
    rfl

end

/-- Two requests a second after five at once. -/
theorem limitsWindows_burst :
    LimitsWindows 2 0
      [(0, .isAllowed (bytes "10.0.0.9")), (0, .isAllowed (bytes "10.0.0.9")),
        (0, .isAllowed (bytes "10.0.0.9")), (0, .isAllowed (bytes "10.0.0.9")),
        (0, .isAllowed (bytes "10.0.0.9")), (1000000000, .cleanupExpired),
        (1000000000, .isAllowed (bytes "10.0.0.9"))] :=
  configured_limitsWindows 0 (by decide) (by decide)

end RateLimiter

end VeloxServe
