import VeloxServe.Core.BackendHealth
import VeloxServe.Core.RequestRuns

/-! # What `/metrics` Tells

    The text of the `/metrics` route, as a monitoring system reads it: one sample
    a line, the name and the value separated by a blank, and comments after `#`.

    * **Round trip**: the lines read back give each sample once, under a name of
      its own, whatever the upstreams are called.
    * **Truth**: in every run the reply to a request for `/metrics` gives the numbers
      of requests that have come in and been turned away, and of the backends of each
      upstream.
-/

namespace VeloxServe

open StdString LTS Message

namespace Server

/-! ## Section 1: Reading -/

/-- A sample line: a name and a value, or a comment. -/
def readSample (line : Bytes) : Option (Bytes × Bytes) :=
  if line.head? = some 35 then none
  else some (line.takeWhile (· ≠ 32), (line.dropWhile (· ≠ 32)).tail)

/-- The samples of a text. -/
def readMetrics (text : Bytes) : List (Bytes × Bytes) := (getlines 10 text).filterMap readSample

/-- The value under a name. -/
def scrape (name text : Bytes) : Option Bytes := (readMetrics text).lookup name

/-- The line of a sample. -/
def sampleLine (sample : Bytes × Nat) : Bytes :=
  sample.1 ++ bytes " " ++ decimal sample.2 ++ bytes "\n"

def healthyName (upstreamName : Bytes) : Bytes :=
  bytes "upstream_" ++ upstreamName ++ bytes "_healthy"

def totalName (upstreamName : Bytes) : Bytes :=
  bytes "upstream_" ++ upstreamName ++ bytes "_total"

/-- The samples about one upstream. -/
def upstreamSamples (upstream : Bytes × LoadBalancer) : List (Bytes × Nat) :=
  [(healthyName upstream.1, upstream.2.healthyCount), (totalName upstream.1, upstream.2.backendCount)]

/-- The samples about the server. -/
def serverSamples (s : ServerState) : List (Bytes × Nat) :=
  [(bytes "rate_limit_total_requests", s.rateLimiter.getStats.total),
    (bytes "rate_limit_blocked_requests", s.rateLimiter.getStats.blocked),
    (bytes "rate_limit_active_ips", s.rateLimiter.getStats.activeIps),
    (bytes "cache_hits", s.cache.getStats.hits),
    (bytes "cache_misses", s.cache.getStats.misses),
    (bytes "cache_entries", s.cache.getStats.entries),
    (bytes "cache_memory_bytes", s.cache.getStats.memory)]

def samples (s : ServerState) : List (Bytes × Nat) :=
  serverSamples s ++ s.loadBalancers.flatMap upstreamSamples

/-- The text is a comment and the samples. -/
theorem metricsText_eq (s : ServerState) :
    metricsText s = bytes "# VeloxServe Metrics" ++ 10 :: (samples s).flatMap sampleLine := by
  have hupstreams : (s.loadBalancers.flatMap fun kv => sampleLine (healthyName kv.1,
      kv.2.healthyCount) ++ sampleLine (totalName kv.1, kv.2.backendCount)) =
      (s.loadBalancers.flatMap upstreamSamples).flatMap sampleLine := by
    rw [List.flatMap_assoc]
    refine List.flatMap_congr fun kv _ => ?_
    simp [upstreamSamples]
  unfold samples
  rw [List.flatMap_append, ← hupstreams]
  unfold metricsText serverSamples
  have hcomment : bytes "# VeloxServe Metrics\n" = bytes "# VeloxServe Metrics" ++ [10] := by decide
  rw [hcomment]
  simp only [sampleLine, healthyName, totalName, List.flatMap_cons, List.flatMap_nil,
    List.append_nil, List.append_assoc, List.cons_append, List.nil_append]

/-- A name that can stand in front of a blank. -/
structure PlainName (name : Bytes) : Prop where
  noBlank : (32 : UInt8) ∉ name
  noNewline : (10 : UInt8) ∉ name
  noComment : name.head? ≠ some 35

theorem decimal_plain (n : Nat) : (10 : UInt8) ∉ decimal n := by
  intro hmem
  have hdigit := isDigit_of_mem_decimal hmem
  cases hdigit

/-- A line is read as the sample it was written for. -/
theorem readSample_line {name : Bytes} (h : PlainName name) (hne : name ≠ []) (n : Nat) :
    readSample (name ++ bytes " " ++ decimal n) = some (name, decimal n) := by
  have hspace : bytes " " = [32] := by decide
  have hhead : (name ++ [32] ++ decimal n).head? = name.head? := by
    rw [List.append_assoc, List.head?_append_of_ne_nil name hne]
  have hplain : ∀ b ∈ name, decide (b ≠ 32) = true := by
    intro b hb
    have hb32 : b ≠ 32 := fun heq => h.noBlank (heq ▸ hb)
    simpa using hb32
  unfold readSample
  rw [hspace, hhead, if_neg h.noComment, List.append_assoc, List.takeWhile_append_of_pos hplain,
    List.dropWhile_append_of_pos hplain]
  simp

/-- **Round trip** of sample lines. -/
theorem readMetrics_samples {samples : List (Bytes × Nat)}
    (h : ∀ sample ∈ samples, PlainName sample.1 ∧ sample.1 ≠ []) :
    readMetrics (samples.flatMap sampleLine) =
      samples.map fun sample => (sample.1, decimal sample.2) := by
  induction samples with
  | nil => rfl
  | cons sample samples ih =>
    obtain ⟨hplain, hne⟩ := h sample List.mem_cons_self
    have hline : sampleLine sample =
        (sample.1 ++ bytes " " ++ decimal sample.2) ++ [10] := by
      have hnewline : bytes "\n" = [10] := by decide
      unfold sampleLine
      rw [hnewline]
    have hno : (10 : UInt8) ∉ sample.1 ++ bytes " " ++ decimal sample.2 := by
      intro hmem
      rcases List.mem_append.mp hmem with hmem | hmem
      · rcases List.mem_append.mp hmem with hmem | hmem
        · exact hplain.noNewline hmem
        · revert hmem
          decide
      · exact decimal_plain _ hmem
    unfold readMetrics
    rw [List.flatMap_cons, hline, List.append_assoc, List.singleton_append, getlines_append hno,
      List.filterMap_cons, readSample_line hplain hne]
    exact congrArg _ (ih fun other hother => h other (List.mem_cons_of_mem _ hother))

/-! ## Section 2: Names -/

/-- An upstream name of a configuration file is one word. -/
structure CleanName (upstreamName : Bytes) : Prop where
  noBlank : (32 : UInt8) ∉ upstreamName
  noNewline : (10 : UInt8) ∉ upstreamName

/-- A name the server puts around the one of an upstream. -/
theorem CleanName.plain {upstreamName : Bytes} (h : CleanName upstreamName) {suffix : Bytes}
    (hblank : (32 : UInt8) ∉ suffix) (hnewline : (10 : UInt8) ∉ suffix) :
    PlainName (bytes "upstream_" ++ upstreamName ++ suffix) where
  noBlank := by
    have hfront : (32 : UInt8) ∉ bytes "upstream_" := by decide
    simp [hfront, hblank, h.noBlank]
  noNewline := by
    have hfront : (10 : UInt8) ∉ bytes "upstream_" := by decide
    simp [hfront, hnewline, h.noNewline]
  noComment := by
    have hhead : (bytes "upstream_").head? ≠ some 35 := by decide
    rw [List.append_assoc, List.head?_append_of_ne_nil _ (by decide)]
    exact hhead

theorem healthyName_inj {a b : Bytes} (h : healthyName a = healthyName b) : a = b :=
  List.append_cancel_left (List.append_cancel_right h)

theorem totalName_inj {a b : Bytes} (h : totalName a = totalName b) : a = b :=
  List.append_cancel_left (List.append_cancel_right h)

/-- Even `x` and an upstream called `x_healthy` are told apart: by the last letter. -/
theorem healthyName_ne_totalName (a b : Bytes) : healthyName a ≠ totalName b := by
  intro h
  have hhealthy : (healthyName a).getLast? = some 121 := by
    unfold healthyName
    rw [List.getLast?_append]
    rfl
  have htotal : (totalName b).getLast? = some 108 := by
    unfold totalName
    rw [List.getLast?_append]
    rfl
  rw [h, htotal] at hhealthy
  exact absurd hhealthy (by decide)

theorem upstreamSamples_head {upstream : Bytes × LoadBalancer} {sample : Bytes × Nat}
    (h : sample ∈ upstreamSamples upstream) : sample.1.head? = some 117 := by
  have hhead : ∀ suffix : Bytes,
      (bytes "upstream_" ++ upstream.1 ++ suffix).head? = some 117 := by
    intro suffix
    rw [List.append_assoc, List.head?_append_of_ne_nil _ (by decide)]
    decide
  rcases List.mem_cons.mp h with rfl | h
  · exact hhead _
  · rcases List.mem_singleton.mp h with rfl
    exact hhead _

/-- The names of the samples about the server. -/
def serverNames : List Bytes :=
  [bytes "rate_limit_total_requests", bytes "rate_limit_blocked_requests",
    bytes "rate_limit_active_ips", bytes "cache_hits", bytes "cache_misses",
    bytes "cache_entries", bytes "cache_memory_bytes"]

theorem serverSamples_names (s : ServerState) : (serverSamples s).map (·.1) = serverNames := rfl

/-- They need no escapes, and none of them starts like an upstream's. -/
theorem serverNames_plain {name : Bytes} (h : name ∈ serverNames) :
    PlainName name ∧ name.head? ≠ some 117 ∧ name ≠ [] := by
  have hall : ∀ name ∈ serverNames, ((32 : UInt8) ∉ name ∧ (10 : UInt8) ∉ name ∧
      name.head? ≠ some 35) ∧ name.head? ≠ some 117 ∧ name ≠ [] := by
    decide
  obtain ⟨⟨hblank, hnewline, hcomment⟩, hrest⟩ := hall name h
  exact ⟨⟨hblank, hnewline, hcomment⟩, hrest⟩

theorem upstreamSamples_names (upstream : Bytes × LoadBalancer) :
    (upstreamSamples upstream).map (·.1) = [healthyName upstream.1, totalName upstream.1] := rfl

/-- **Every sample has a name of its own.** -/
theorem samples_nodup {s : ServerState} (hnames : (s.loadBalancers.map (·.1)).Nodup) :
    ((samples s).map (·.1)).Nodup := by
  unfold samples
  rw [List.map_append, List.nodup_append]
  refine ⟨?_, ?_, ?_⟩
  · rw [serverSamples_names]
    decide
  · rw [List.map_flatMap, List.nodup_flatMap]
    constructor
    · intro upstream _
      rw [upstreamSamples_names]
      simp [healthyName_ne_totalName]
    · rw [List.Nodup, List.pairwise_map] at hnames
      refine hnames.imp fun {a b} hne => ?_
      show List.Disjoint ((upstreamSamples a).map (·.1)) ((upstreamSamples b).map (·.1))
      rw [upstreamSamples_names, upstreamSamples_names]
      intro name ha hb
      simp only [List.mem_cons, List.not_mem_nil, or_false] at ha hb
      rcases ha with rfl | rfl
      · rcases hb with hb | hb
        · exact hne (healthyName_inj hb)
        · exact healthyName_ne_totalName _ _ hb
      · rcases hb with hb | hb
        · exact healthyName_ne_totalName _ _ hb.symm
        · exact hne (totalName_inj hb)
  · intro name hserver other hupstream heq
    rw [serverSamples_names] at hserver
    obtain ⟨sample, hsample, rfl⟩ := List.mem_map.mp hupstream
    obtain ⟨upstream, -, hsample⟩ := List.mem_flatMap.mp hsample
    have hhead := upstreamSamples_head hsample
    rw [← heq] at hhead
    exact (serverNames_plain hserver).2.1 hhead

theorem samples_plain {s : ServerState} (hclean : ∀ kv ∈ s.loadBalancers, CleanName kv.1)
    {sample : Bytes × Nat} (h : sample ∈ samples s) : PlainName sample.1 ∧ sample.1 ≠ [] := by
  unfold samples at h
  rcases List.mem_append.mp h with h | h
  · have hname := List.mem_map_of_mem (f := Prod.fst) h
    rw [serverSamples_names] at hname
    obtain ⟨hplain, -, hne⟩ := serverNames_plain hname
    exact ⟨hplain, hne⟩
  · obtain ⟨upstream, hupstream, hsample⟩ := List.mem_flatMap.mp h
    have hname := hclean upstream hupstream
    constructor
    · rcases List.mem_cons.mp hsample with rfl | hsample
      · exact hname.plain (by decide) (by decide)
      · rcases List.mem_singleton.mp hsample with rfl
        exact hname.plain (by decide) (by decide)
    · intro hnil
      have hhead := upstreamSamples_head hsample
      rw [hnil] at hhead
      cases hhead

/-! ## Section 3: Round Trip -/

/-- **Round trip** of the whole text. -/
theorem readMetrics_metricsText {s : ServerState}
    (hclean : ∀ kv ∈ s.loadBalancers, CleanName kv.1) :
    readMetrics (metricsText s) = (samples s).map fun sample => (sample.1, decimal sample.2) := by
  have hcomment : readSample (bytes "# VeloxServe Metrics") = none := by decide
  rw [metricsText_eq]
  unfold readMetrics
  rw [getlines_append (by decide), List.filterMap_cons, hcomment]
  exact readMetrics_samples fun sample h => samples_plain hclean h

theorem lookup_of_nodup {β : Type} {entries : List (Bytes × β)} (h : (entries.map (·.1)).Nodup)
    {entry : Bytes × β} (hmem : entry ∈ entries) : entries.lookup entry.1 = some entry.2 := by
  induction entries with
  | nil => cases hmem
  | cons other entries ih =>
    rw [List.map_cons, List.nodup_cons] at h
    rcases List.mem_cons.mp hmem with rfl | hmem
    · obtain ⟨name, value⟩ := entry
      simp
    · have hne : (entry.1 == other.1) = false := by
        rw [beq_eq_false_iff_ne]
        intro heq
        exact h.1 (heq ▸ List.mem_map_of_mem hmem)
      rw [List.lookup_cons, hne]
      exact ih h.2 hmem

/-- A sample is found under its name. -/
theorem scrape_sample {s : ServerState} (hclean : ∀ kv ∈ s.loadBalancers, CleanName kv.1)
    (hnames : (s.loadBalancers.map (·.1)).Nodup) {name : Bytes} {n : Nat}
    (h : (name, n) ∈ samples s) : scrape name (metricsText s) = some (decimal n) := by
  have hnodup : (((samples s).map fun sample => (sample.1, decimal sample.2)).map (·.1)).Nodup := by
    rw [List.map_map]
    exact samples_nodup hnames
  unfold scrape
  rw [readMetrics_metricsText hclean]
  exact lookup_of_nodup hnodup (List.mem_map_of_mem (f := fun sample => (sample.1, decimal sample.2)) h)

/-! ## Section 4: Truth -/

section

variable (router : Router Endpoint) (config : ServerConfig)

/-- The requests of a run that the limiter turned away when they came. -/
def turnedAway (router : Router Endpoint) (config : ServerConfig) :
    ServerState → List ServerEvent → Nat
  | _, [] => 0
  | s, event :: events =>
    (match event with
      | .request env clientIp _ => if (s.rateLimiter.isAllowed clientIp env.arrivalTime).1 then 0 else 1
      | .cleanup _ => 0
      | .check _ _ _ => 0) +
      turnedAway router config ((machine router config).step s event).2 events

/-- What a call adds to the counters of an enabled limiter. -/
theorem isAllowed_counts {rl : RateLimiter} (henabled : rl.enabled = true) (clientIp : Bytes)
    (now : Time) :
    (rl.isAllowed clientIp now).2.enabled = true ∧
      (rl.isAllowed clientIp now).2.totalRequests = rl.totalRequests + 1 ∧
      (rl.isAllowed clientIp now).2.blockedRequests =
        rl.blockedRequests + (if (rl.isAllowed clientIp now).1 then 0 else 1) := by
  generalize hr : rl.isAllowed clientIp now = r
  unfold RateLimiter.isAllowed at hr
  rw [if_neg (by rw [henabled]; decide)] at hr
  dsimp only at hr
  split at hr
  · subst hr
    exact ⟨henabled, rfl, rfl⟩
  · split at hr
    · subst hr
      exact ⟨henabled, rfl, rfl⟩
    · subst hr
      exact ⟨henabled, rfl, rfl⟩

theorem cleanupExpired_counts (rl : RateLimiter) (now : Time) :
    (rl.cleanupExpired now).enabled = rl.enabled ∧
      (rl.cleanupExpired now).totalRequests = rl.totalRequests ∧
      (rl.cleanupExpired now).blockedRequests = rl.blockedRequests := by
  unfold RateLimiter.cleanupExpired
  split
  · exact ⟨rfl, rfl, rfl⟩
  · split
    · exact ⟨rfl, rfl, rfl⟩
    · exact ⟨rfl, rfl, rfl⟩

/-- **Run lemma**: the counters of an enabled limiter. -/
theorem run_counts (events : List ServerEvent) {s : ServerState}
    (henabled : s.rateLimiter.enabled = true) :
    ((machine router config).run s events).2.rateLimiter.totalRequests =
        s.rateLimiter.totalRequests + (exchanges router config s events).length ∧
      ((machine router config).run s events).2.rateLimiter.blockedRequests =
        s.rateLimiter.blockedRequests + turnedAway router config s events := by
  induction events generalizing s with
  | nil => exact ⟨rfl, rfl⟩
  | cons event events ih =>
    unfold exchanges at ih ⊢
    unfold turnedAway
    cases event with
    | request env clientIp conn =>
      have hstep : ((machine router config).step s (.request env clientIp conn)).2.rateLimiter =
          (s.rateLimiter.isAllowed clientIp env.arrivalTime).2 :=
        processRequest_rateLimiter router config env clientIp conn s
      obtain ⟨henabled', htotal, hblocked⟩ :=
        isAllowed_counts henabled clientIp env.arrivalTime
      have hrest := @ih ((machine router config).step s (.request env clientIp conn)).2
        (by rw [hstep]; exact henabled')
      rw [hstep, htotal, hblocked] at hrest
      rw [LTS.Machine.run_cons]
      constructor
      · rw [hrest.1]
        exact Nat.add_right_comm _ _ _
      · rw [hrest.2]
        dsimp only
        omega
    | cleanup now =>
      obtain ⟨henabled', htotal, hblocked⟩ := cleanupExpired_counts s.rateLimiter now
      have hrest := @ih { s with rateLimiter := s.rateLimiter.cleanupExpired now }
        (henabled'.trans henabled)
      dsimp only at hrest
      rw [htotal, hblocked] at hrest
      rw [LTS.Machine.run_cons]
      exact ⟨hrest.1, hrest.2.trans (by dsimp only; rw [Nat.zero_add]; rfl)⟩
    | check upstreamName backend alive =>
      have hrest := @ih (setLoadBalancer s upstreamName
        ((loadBalancer s upstreamName).check backend alive)) henabled
      rw [LTS.Machine.run_cons]
      exact ⟨hrest.1, hrest.2.trans (by dsimp only; rw [Nat.zero_add]; rfl)⟩

/-! ### Upstreams -/

/-- The addresses an upstream was configured with. -/
def addresses (lb : LoadBalancer) : List (Bytes × Int) :=
  lb.backends.map fun backend => (backend.host, backend.port)

theorem addresses_update (lb : LoadBalancer) (i : Nat) {f : Backend → Backend}
    (hf : ∀ b, ((f b).host, (f b).port) = (b.host, b.port)) :
    addresses (lb.update i f) = addresses lb := by
  unfold addresses LoadBalancer.update
  apply List.ext_getElem?
  intro j
  rw [List.getElem?_map, List.getElem?_map, List.getElem?_modify]
  cases lb.backends[j]? with
  | none => rfl
  | some b =>
    show some ((if i = j then f b else b).host, (if i = j then f b else b).port) = _
    split
    · exact congrArg some (hf b)
    · rfl

theorem addresses_getNextLoop (left : Nat) (lb : LoadBalancer) :
    addresses (LoadBalancer.getNextLoop left lb).2 = addresses lb := by
  induction left generalizing lb with
  | zero => rfl
  | succ left ih =>
    unfold LoadBalancer.getNextLoop
    dsimp only
    split
    · rfl
    · split
      · exact addresses_update _ _ fun _ => rfl
      · exact ih { lb with currentIndex := lb.currentIndex + 1 }

theorem addresses_getNext (lb : LoadBalancer) : addresses lb.getNext.2 = addresses lb :=
  addresses_getNextLoop _ lb

theorem addresses_check (lb : LoadBalancer) (i : Nat) (alive : Bool) :
    addresses (lb.check i alive) = addresses lb := by
  refine addresses_update lb i fun b => ?_
  unfold Backend.recordCheck
  split
  · rfl
  · split
    · dsimp only
      split <;> rfl
    · rfl

theorem addresses_create (servers : List (Bytes × Int)) :
    addresses (LoadBalancer.create servers) = servers := by
  unfold addresses
  rw [LoadBalancer.backends_create, List.map_map]
  exact List.map_id servers

/-- The upstreams of a server, with their addresses. -/
def upstreamTable (s : ServerState) : List (Bytes × List (Bytes × Int)) :=
  s.loadBalancers.map fun kv => (kv.1, addresses kv.2)

theorem loadBalancer_of_mem {s : ServerState} (hnames : (s.loadBalancers.map (·.1)).Nodup)
    {kv : Bytes × LoadBalancer} (h : kv ∈ s.loadBalancers) : loadBalancer s kv.1 = kv.2 := by
  unfold loadBalancer
  rw [lookup_of_nodup hnames h]
  rfl

theorem upstreamTable_setLoadBalancer {s : ServerState}
    (hnames : (s.loadBalancers.map (·.1)).Nodup) {upstreamName : Bytes} {lb : LoadBalancer}
    (hlb : addresses lb = addresses (loadBalancer s upstreamName)) :
    upstreamTable (setLoadBalancer s upstreamName lb) = upstreamTable s := by
  unfold upstreamTable setLoadBalancer
  dsimp only
  rw [List.map_map]
  refine List.map_congr_left fun kv hkv => ?_
  rw [Function.comp_apply]
  by_cases hname : kv.1 = upstreamName
  · rw [if_pos hname]
    dsimp only
    rw [hlb, ← hname, loadBalancer_of_mem hnames hkv]
  · rw [if_neg hname]

theorem upstreamTable_names (s : ServerState) :
    (upstreamTable s).map (·.1) = s.loadBalancers.map (·.1) := by
  unfold upstreamTable
  rw [List.map_map]
  rfl

theorem addresses_handleBalanced (env : Surroundings) (upstreamName : Bytes) (req : HttpRequest)
    {s : ServerState} (hnames : (s.loadBalancers.map (·.1)).Nodup) :
    upstreamTable (handleBalanced env upstreamName req s).2 = upstreamTable s := by
  have hnext := addresses_getNext (loadBalancer s upstreamName)
  unfold handleBalanced
  split
  · next lb heq =>
    rw [heq] at hnext
    exact upstreamTable_setLoadBalancer hnames hnext
  · next i backend lb heq =>
    rw [heq] at hnext
    refine upstreamTable_setLoadBalancer hnames (Eq.trans ?_ hnext)
    unfold LoadBalancer.release
    rw [addresses_update]
    · split
      · exact addresses_update lb i fun _ => rfl
      · rfl
    · exact fun _ => rfl

/-- **Invariant**: the upstreams keep the addresses they were configured with. -/
theorem run_upstreamTable (events : List ServerEvent) {s₀ : ServerState}
    (hnames : (s₀.loadBalancers.map (·.1)).Nodup) :
    upstreamTable ((machine router config).run s₀ events).2 = upstreamTable s₀ := by
  have hkept : ∀ s, upstreamTable s = upstreamTable s₀ → (s.loadBalancers.map (·.1)).Nodup := by
    intro s hs
    rw [← upstreamTable_names, hs, upstreamTable_names]
    exact hnames
  have hstep : ∀ s event, upstreamTable s = upstreamTable s₀ →
      upstreamTable ((machine router config).step s event).2 = upstreamTable s₀ := ?_
  · exact (machine router config).run_invariant hstep s₀ events rfl
  intro s event hs
  cases event with
  | request env clientIp conn =>
    exact (service_keeps (Q := fun s => upstreamTable s = upstreamTable s₀) (fun _ _ _ hs => hs)
      (fun env upstreamName req s hs =>
        (addresses_handleBalanced env upstreamName req (hkept s hs)).trans hs)
      router config env).afterLimiter hs conn
  | cleanup now => exact hs
  | check upstreamName backend alive =>
    exact (upstreamTable_setLoadBalancer (hkept s hs) (addresses_check _ backend alive)).trans hs

/-! ### The Reply -/

/-- A message that is read as a request for the route of `/metrics`, with any method but HEAD
    that the route allows. -/
structure AsksMetrics (router : Router Endpoint) (clientIp message : Bytes) : Prop where
  done : (({} : HttpParser).parse message { clientIp := clientIp }).1 = true
  isValid : (({} : HttpParser).parse message { clientIp := clientIp }).2.2.isValid = true
  method : (({} : HttpParser).parse message { clientIp := clientIp }).2.2.method ≠ bytes "HEAD"
  routed : ∃ r, matched router (({} : HttpParser).parse message { clientIp := clientIp }).2.2.path =
      some r ∧ r.handler = .metrics ∧ (r.allowedMethods = [] ∨
        (({} : HttpParser).parse message { clientIp := clientIp }).2.2.method ∈ r.allowedMethods)

/-- The server once its limiter has been asked. -/
def admitting (s : ServerState) (env : Surroundings) (clientIp : Bytes) : ServerState :=
  { s with rateLimiter := (s.rateLimiter.isAllowed clientIp env.arrivalTime).2 }

/-- The body of the reply is the text. -/
theorem content_metrics {env : Surroundings} {clientIp : Bytes} {conn : Connection}
    (hasks : AsksMetrics router clientIp conn.readBuffer) {s : ServerState}
    (hadmits : (s.rateLimiter.isAllowed clientIp env.arrivalTime).1 = true) :
    content (processRequest (service router config env) clientIp conn s).1.writeBuffer =
      metricsText (admitting s env clientIp) := by
  obtain ⟨hdone, hvalid, hmethod, r, hmatched, hhandler, hmethods⟩ := hasks
  generalize hparse : ({} : HttpParser).parse conn.readBuffer { clientIp := clientIp } = parsed
    at hdone hvalid hmethod hmatched hmethods
  obtain ⟨done, parser, request⟩ := parsed
  obtain rfl : done = true := hdone
  have hroute : router.route (handleEndpoint env) request (admitting s env clientIp) =
      (HttpResponse.ok (metricsText (admitting s env clientIp)) (bytes "text/plain"),
        admitting s env clientIp) := by
    rw [route_of_matched hmatched hmethods, hhandler]
    rfl
  have hresponse : ((service router config env).respond request (admitting s env clientIp)).1 =
      withKeepAlive request.wantsKeepAlive
        (HttpResponse.ok (metricsText (admitting s env clientIp)) (bytes "text/plain")) := by
    have hserved : (service router config env).route request (admitting s env clientIp) = _ := hroute
    unfold Service.respond
    rw [hserved]
    dsimp only
    rw [if_neg hmethod]
    unfold withKeepAlive
    split
    · rfl
    · rfl
  have hplain : (HttpResponse.ok (metricsText (admitting s env clientIp))
      (bytes "text/plain")).Plain := by
    have hfresh : ({ body := metricsText (admitting s env clientIp) } : HttpResponse).Plain :=
      HttpResponse.Plain.fresh (by decide)
    exact hfresh.setHeader (by decide) (by decide)
  rw [(processRequest_accepted (service router config env) hadmits hparse hvalid).1]
  have hbody := ((withKeepAlive_plain hplain request.wantsKeepAlive).clean.read_build
    (service router config env).headerOrder).2
  show content (((service router config env).respond request (admitting s env clientIp)).1.build _) = _
  rw [hresponse, hbody]
  unfold withKeepAlive
  split
  · rfl
  · rfl

/-- **Truth**: whatever has happened to a server, the reply to a request for `/metrics` tells how
    many requests have come in and been turned away, this one among them, and for each upstream
    how many backends it has and how many are alive; and no two samples share a name. -/
theorem metrics_tell {rateLimit : Int} (hrate : 1 ≤ rateLimit) (start : Time)
    {upstreams : List (Bytes × List (Bytes × Int))} (hnames : (upstreams.map (·.1)).Nodup)
    (hclean : ∀ upstream ∈ upstreams, CleanName upstream.1) {s₀ : ServerState}
    (hlimiter : s₀.rateLimiter = .configured rateLimit start)
    (hbalancers : s₀.loadBalancers =
      upstreams.map fun upstream => (upstream.1, .create upstream.2))
    {router : Router Endpoint} (config : ServerConfig) (events : List ServerEvent)
    (env : Surroundings) {clientIp : Bytes} {conn : Connection}
    (hasks : AsksMetrics router clientIp conn.readBuffer) :
    let s := ((machine router config).run s₀ events).2
    let reply := (processRequest (service router config env) clientIp conn s).1.writeBuffer
    let asked := events ++ [.request env clientIp conn]
    let told := fun name => scrape name (content reply)
    (s.rateLimiter.isAllowed clientIp env.arrivalTime).1 = true →
      ((readMetrics (content reply)).map (·.1)).Nodup ∧
      told (bytes "rate_limit_total_requests") =
        some (decimal (exchanges router config s₀ asked).length) ∧
      told (bytes "rate_limit_blocked_requests") =
        some (decimal (turnedAway router config s₀ asked)) ∧
      ∀ upstream ∈ upstreams,
        told (totalName upstream.1) = some (decimal upstream.2.length) ∧
        told (healthyName upstream.1) =
          some (decimal (loadBalancer s upstream.1).healthyCount) ∧
        (loadBalancer s upstream.1).healthyCount ≤ upstream.2.length := by
  have htable₀ : upstreamTable s₀ = upstreams := by
    unfold upstreamTable
    rw [hbalancers, List.map_map]
    refine (List.map_congr_left fun upstream _ => ?_).trans (List.map_id upstreams)
    rw [Function.comp_apply, addresses_create]
    rfl
  have hnames₀ : (s₀.loadBalancers.map (·.1)).Nodup := by
    rw [← upstreamTable_names, htable₀]
    exact hnames
  have henabled : s₀.rateLimiter.enabled = true := by
    rw [hlimiter]
    exact decide_eq_true hrate
  intro s reply asked told hadmits
  -- the text is written when the limiter has counted the request
  have htable : upstreamTable (admitting s env clientIp) = upstreams :=
    (run_upstreamTable router config events hnames₀).trans htable₀
  have hnamesS : ((admitting s env clientIp).loadBalancers.map (·.1)).Nodup := by
    rw [← upstreamTable_names, htable]
    exact hnames
  have hcleanS : ∀ kv ∈ (admitting s env clientIp).loadBalancers, CleanName kv.1 := by
    intro kv hkv
    have hmem : (kv.1, addresses kv.2) ∈ upstreams := by
      rw [← htable]
      exact List.mem_map_of_mem hkv
    exact hclean _ hmem
  have htext : content reply = metricsText (admitting s env clientIp) :=
    content_metrics router config hasks hadmits
  have hsample : ∀ name n, (name, n) ∈ samples (admitting s env clientIp) →
      told name = some (decimal n) := by
    intro name n hmem
    show scrape name (content reply) = _
    rw [htext]
    exact scrape_sample hcleanS hnamesS hmem
  obtain ⟨htotal, hblocked⟩ := run_counts router config asked henabled
  have hlimiterS : ((machine router config).run s₀ asked).2.rateLimiter =
      (admitting s env clientIp).rateLimiter := by
    show ((machine router config).run s₀ (events ++ [.request env clientIp conn])).2.rateLimiter = _
    rw [LTS.Machine.run_append]
    exact processRequest_rateLimiter router config env clientIp conn s
  rw [hlimiterS, hlimiter] at htotal hblocked
  refine ⟨?_, ?_, ?_, fun upstream hupstream => ?_⟩
  · rw [htext, readMetrics_metricsText hcleanS, List.map_map]
    exact samples_nodup hnamesS
  · refine (hsample _ (admitting s env clientIp).rateLimiter.totalRequests ?_).trans ?_
    · exact List.mem_append_left _ List.mem_cons_self
    · rw [htotal]
      exact congrArg (fun n => some (decimal n)) (Nat.zero_add _)
  · refine (hsample _ (admitting s env clientIp).rateLimiter.blockedRequests ?_).trans ?_
    · exact List.mem_append_left _ (List.mem_cons_of_mem _ List.mem_cons_self)
    · rw [hblocked]
      exact congrArg (fun n => some (decimal n)) (Nat.zero_add _)
  · rw [← htable] at hupstream
    obtain ⟨kv, hkv, rfl⟩ := List.mem_map.mp hupstream
    have hlength : (addresses kv.2).length = kv.2.backendCount := List.length_map _
    have hmem : ∀ sample ∈ upstreamSamples kv, sample ∈ samples (admitting s env clientIp) :=
      fun sample h => List.mem_append_right _ (List.mem_flatMap.mpr ⟨kv, hkv, h⟩)
    have hbalancer : loadBalancer s kv.1 = kv.2 := loadBalancer_of_mem hnamesS hkv
    dsimp only
    rw [hbalancer, hlength]
    refine ⟨hsample _ _ (hmem _ ?_), hsample _ _ (hmem _ List.mem_cons_self), ?_⟩
    · exact List.mem_cons_of_mem _ List.mem_cons_self
    · exact List.length_filter_le _ _

/-- One upstream with two backends. -/
def twoBackends : List (Bytes × List (Bytes × Int)) :=
  [(bytes "api", [(bytes "10.0.0.1", 9001), (bytes "10.0.0.2", 9002)])]

/-- A monitoring system. -/
def monitoring : Connection :=
  { fd := 6, readBuffer := bytes "GET /metrics HTTP/1.1\r\nHost: a\r\n\r\n", lastActivity := 0 }

/-- One of them is lost, and a client is in a hurry, when the monitoring system asks. -/
theorem metrics_tell_two :
    let s₀ : ServerState :=
      { slowServer with loadBalancers := twoBackends.map fun upstream =>
          (upstream.1, .create upstream.2) }
    let router := setupRoutes RouteSort.insertion {} []
    let events := threeAtOnce ++ List.replicate 3 (.check (bytes "api") 1 false)
    let s := ((machine router {}).run s₀ events).2
    let reply := (processRequest (service router {} quietSurroundings) (bytes "10.0.0.1")
      monitoring s).1.writeBuffer
    let asked := events ++ [.request quietSurroundings (bytes "10.0.0.1") monitoring]
    let told := fun name => scrape name (content reply)
    (s.rateLimiter.isAllowed (bytes "10.0.0.1") quietSurroundings.arrivalTime).1 = true ∧
      ((readMetrics (content reply)).map (·.1)).Nodup ∧
      told (bytes "rate_limit_total_requests") =
        some (decimal (exchanges router {} s₀ asked).length) ∧
      told (bytes "rate_limit_blocked_requests") =
        some (decimal (turnedAway router {} s₀ asked)) ∧
      ∀ upstream ∈ twoBackends,
        told (totalName upstream.1) = some (decimal upstream.2.length) ∧
        told (healthyName upstream.1) =
          some (decimal (loadBalancer s upstream.1).healthyCount) ∧
        (loadBalancer s upstream.1).healthyCount ≤ upstream.2.length := by
  intro s₀ router events s reply asked told
  have hclean : ∀ upstream ∈ twoBackends, (32 : UInt8) ∉ upstream.1 ∧ (10 : UInt8) ∉ upstream.1 := by
    decide
  have hasks : AsksMetrics router (bytes "10.0.0.1") monitoring.readBuffer :=
    ⟨by decide +kernel, by decide +kernel, by decide +kernel,
      ⟨bytes "/metrics", .metrics, [bytes "GET"]⟩, rfl, rfl, .inr (by decide +kernel)⟩
  have hadmits : (s.rateLimiter.isAllowed (bytes "10.0.0.1") quietSurroundings.arrivalTime).1 = true := by
    decide +kernel
  exact ⟨hadmits, metrics_tell (by decide) 0 (by decide)
    (fun upstream h => ⟨(hclean upstream h).1, (hclean upstream h).2⟩) rfl rfl {} events
    quietSurroundings hasks hadmits⟩

end

end Server

end VeloxServe
