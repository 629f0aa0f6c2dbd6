import VeloxServe.Core.ServerFraming

/-! # Which Backends Are Taken for Dead

    The handler of a load-balanced location learns how the exchange with a
    backend went from the status code of the response alone, and takes 502 for
    a failure. A backend that is not reached or sends nothing gives another
    code, and a live one may send 502 itself.
-/

namespace VeloxServe

open StdString Message HttpResponse

/-! ## Well-Formed Replies -/

namespace ProxyHandler

/-- The status code of a status line: the number between its first two spaces. -/
def statusLineCode (statusLine : Bytes) : Option Int :=
  match statusLine.dropWhile (· ≠ 32) with
  | [] => none
  | _ :: rest => if (32 : UInt8) ∈ rest then (stoi (rest.takeWhile (· ≠ 32))).toOption else none

/-- A reply with a header terminator and a status line with that code. -/
structure WellFormedReply (raw : Bytes) (code : Int) : Prop where
  terminated : blankLine <:+: raw
  statusLine : ∃ line, (splitLines raw).head? = some line ∧ statusLineCode line = some code

theorem WellFormedReply.code_unique {raw : Bytes} {code code' : Int}
    (h : WellFormedReply raw code) (h' : WellFormedReply raw code') : code = code' := by
  obtain ⟨-, line, hhead, hcode⟩ := h
  obtain ⟨-, line', hhead', hcode'⟩ := h'
  obtain rfl : line = line' := Option.some.inj (hhead.symm.trans hhead')
  exact Option.some.inj (hcode.symm.trans hcode')

theorem ne_space {s : Bytes} (h : (32 : UInt8) ∉ s) : ∀ b ∈ s, decide (b ≠ 32) = true := by
  intro b hb
  have hne : b ≠ 32 := fun heq => h (heq ▸ hb)
  simpa using hne

theorem parseStatusLine_code (statusLine : Bytes) (resp : HttpResponse) :
    (parseStatusLine statusLine resp).statusCode = (statusLineCode statusLine).getD 502 := by
  have hspace : bytes " " = [32] := by decide
  unfold parseStatusLine statusLineCode
  rw [hspace]
  -- without a space there is no code, without a second one the rest of the line is it
  by_cases hmem : (32 : UInt8) ∈ statusLine
  · obtain ⟨version, rest, rfl, hversion⟩ := List.eq_append_cons_of_mem hmem
    have hdrop : (version ++ 32 :: rest).drop (version.length + 1) = rest := by simp
    have hskip : (32 :: rest).dropWhile (· ≠ (32 : UInt8)) = 32 :: rest :=
      List.dropWhile_cons_of_neg (by simp)
    rw [find_singleton rest hversion, List.dropWhile_append_of_pos (ne_space hversion), hskip]
    unfold findFrom
    dsimp only
    rw [hdrop]
    by_cases hmore : (32 : UInt8) ∈ rest
    · obtain ⟨code, reason, rfl, hcode⟩ := List.eq_append_cons_of_mem hmore
      have hwidth : code.length + (version.length + 1) - version.length - 1 = code.length := by
        omega
      have htake : (code ++ 32 :: reason).takeWhile (· ≠ 32) = code := by
        rw [List.takeWhile_append_of_pos (ne_space hcode)]
        simp
      rw [find_singleton reason hcode, if_pos hmore, htake]
      dsimp only [Option.map_some]
      rw [hwidth, List.take_left]
      cases stoi code <;> rfl
    · rw [find_singleton_eq_none.mpr hmore, if_neg hmore]
      rfl
  · have hnone : statusLine.dropWhile (· ≠ 32) = [] := by
      rw [List.dropWhile_eq_nil_iff]
      exact ne_space hmem
    rw [find_singleton_eq_none.mpr hmem, hnone]
    rfl

/-- A reply counts as a bad gateway when it is not well formed, or says so itself. -/
theorem parseBackendResponse_502_iff (raw : Bytes) :
    (parseBackendResponse raw).statusCode = 502 ↔
      ∀ code, WellFormedReply raw code → code = 502 := by
  by_cases h : blankLine <:+: raw
  · obtain ⟨e, he⟩ := Option.isSome_iff_exists.mp (find_isSome_iff.mpr h)
    obtain ⟨line, -, hhead, hparsed⟩ := parseBackendResponse_eq he
    have hcode : (parseBackendResponse raw).statusCode = (statusLineCode line).getD 502 := by
      rw [hparsed, ← parseStatusLine_code line {}]
      exact (relayed_status _ _).1
    rw [hcode]
    constructor
    · rintro h502 code ⟨-, line', hhead', hread⟩
      obtain rfl : line = line' := Option.some.inj (hhead.symm.trans hhead')
      rw [hread] at h502
      exact h502
    · intro hall
      cases hread : statusLineCode line with
      | none => rfl
      | some code => exact hall code ⟨h, line, hhead, hread⟩
  · -- a reply without a blank line is answered for with 502
    rw [parseBackendResponse_broken h]
    constructor
    · exact fun _ _ hreply => absurd hreply.terminated h
    · exact fun _ => rfl

end ProxyHandler

/-! ## The Chosen Backend -/

namespace LoadBalancer

/-- The backend `get_next` returns is alive, and stays so. -/
theorem getNextLoop_alive {left : Nat} {lb lb' : LoadBalancer} {i : Nat} {backend : Backend}
    (h : getNextLoop left lb = (some (i, backend), lb')) :
    (lb'.backends[i]?).map (·.isAlive) = some true := by
  induction left generalizing lb with
  | zero => cases h
  | succ left ih =>
    unfold getNextLoop at h
    dsimp only at h
    split at h
    · cases h
    · next found hfound =>
      split at h
      · next halive =>
        obtain ⟨hsome, rfl⟩ := Prod.mk.inj h
        obtain ⟨rfl, rfl⟩ := Prod.mk.inj (Option.some.inj hsome)
        unfold update
        simp [List.getElem?_modify_eq, hfound, halive]
      · exact ih h

theorem getNext_alive {lb lb' : LoadBalancer} {i : Nat} {backend : Backend}
    (h : lb.getNext = (some (i, backend), lb')) :
    (lb'.backends[i]?).map (·.isAlive) = some true :=
  getNextLoop_alive h

/-- An empty balancer has nothing to choose from. -/
theorem getNext_ne_nil {lb lb' : LoadBalancer} {chosen : Nat × Backend}
    (h : lb.getNext = (some chosen, lb')) : lb.backends ≠ [] := by
  intro hnil
  unfold getNext at h
  rw [hnil] at h
  cases h

theorem release_isAlive (lb : LoadBalancer) (i j : Nat) :
    ((lb.release j).backends[i]?).map (·.isAlive) = (lb.backends[i]?).map (·.isAlive) := by
  unfold release update
  rw [List.getElem?_modify]
  cases lb.backends[i]? with
  | none => rfl
  | some b => by_cases hij : j = i <;> simp [hij]

theorem markDown_isAlive {lb : LoadBalancer} {i : Nat}
    (h : (lb.backends[i]?).map (·.isAlive) = some true) :
    ((lb.markDown i).backends[i]?).map (·.isAlive) = some false := by
  obtain ⟨b, hb, -⟩ := Option.map_eq_some_iff.mp h
  unfold markDown update
  rw [List.getElem?_modify_eq, hb]
  rfl

end LoadBalancer

/-! ## Marking a Backend Down -/

namespace Server

theorem lookup_map_ite {β : Type} (l : List (Bytes × β)) (n : Bytes) (b : β) :
    (l.map fun kv => if kv.1 = n then (kv.1, b) else kv).lookup n =
      (l.lookup n).map fun _ => b := by
  induction l with
  | nil => rfl
  | cons kv l ih =>
    obtain ⟨k, v⟩ := kv
    by_cases hk : n = k
    · subst hk
      simp
    · have hk' : k ≠ n := fun h => hk h.symm
      have hne : (n == k) = false := by simpa using hk
      rw [List.map_cons, if_neg hk', List.lookup_cons, List.lookup_cons, hne]
      exact ih

/-- A balancer that has backends is one of the server's, so it can be replaced. -/
theorem loadBalancer_setLoadBalancer {s : ServerState} {upstreamName : Bytes}
    (h : (loadBalancer s upstreamName).backends ≠ []) (lb : LoadBalancer) :
    loadBalancer (setLoadBalancer s upstreamName lb) upstreamName = lb := by
  unfold loadBalancer setLoadBalancer at *
  dsimp only
  rw [lookup_map_ite]
  cases hlook : s.loadBalancers.lookup upstreamName with
  | none =>
    rw [hlook] at h
    exact absurd rfl h
  | some old => rfl

/-- The backend at a position of an upstream is marked down. -/
def MarkedDown (s : ServerState) (upstreamName : Bytes) (i : Nat) : Prop :=
  ((loadBalancer s upstreamName).backends[i]?).map (·.isAlive) = some false

/-- What the exchange with a backend brings, when it brings anything. -/
def exchanged (env : Surroundings) (req : HttpRequest) (backend : Backend) : Option Bytes :=
  ProxyHandler.reply env.headerOrder env.socket req (targetUrl backend) req.clientIp

/-- A well-formed reply is obtained from a backend. -/
def Answers (env : Surroundings) (req : HttpRequest) (backend : Backend) : Prop :=
  ∃ raw code, exchanged env req backend = some raw ∧ ProxyHandler.WellFormedReply raw code

/-- A backend is marked down, and the client told 502, exactly when no well-formed
    reply was obtained from it. -/
def TellsFailure (env : Surroundings) (upstreamName : Bytes) (req : HttpRequest) (s : ServerState)
    (i : Nat) (backend : Backend) : Prop :=
  let handled := handleEndpoint env (.balanced upstreamName) req s
  (MarkedDown handled.2 upstreamName i ↔ ¬ Answers env req backend) ∧
    (handled.1.statusCode = 502 ↔ ¬ Answers env req backend)

section

variable {env : Surroundings} {upstreamName : Bytes} {req : HttpRequest} {s : ServerState}
  {i : Nat} {backend : Backend} {lb : LoadBalancer}

/-- The handler with a backend to choose. -/
theorem handleEndpoint_balanced
    (hchosen : (loadBalancer s upstreamName).getNext = (some (i, backend), lb)) :
    handleEndpoint env (.balanced upstreamName) req s =
      let resp := ProxyHandler.handle env.headerOrder env.socket req (targetUrl backend) req.clientIp
      let lb := if resp.statusCode = 502 then lb.markDown i else lb
      (resp, setLoadBalancer s upstreamName (lb.release i)) := by
  unfold handleEndpoint
  dsimp only
  unfold handleBalanced
  rw [hchosen]

/-- The mark follows the status code. -/
theorem markedDown_iff (hchosen : (loadBalancer s upstreamName).getNext = (some (i, backend), lb)) :
    MarkedDown (handleEndpoint env (.balanced upstreamName) req s).2 upstreamName i ↔
      (handleEndpoint env (.balanced upstreamName) req s).1.statusCode = 502 := by
  have halive := LoadBalancer.getNext_alive hchosen
  have hnonempty := LoadBalancer.getNext_ne_nil hchosen
  unfold MarkedDown
  rw [handleEndpoint_balanced hchosen]
  dsimp only
  rw [loadBalancer_setLoadBalancer hnonempty, LoadBalancer.release_isAlive]
  -- the mark is set on a backend that is alive until then
  split
  · next h502 => simp [LoadBalancer.markDown_isAlive halive, h502]
  · next h502 => simp [halive, h502]

/-- A backend that sent nothing is answered for with 500. -/
theorem statusCode_balanced
    (hchosen : (loadBalancer s upstreamName).getNext = (some (i, backend), lb)) :
    (handleEndpoint env (.balanced upstreamName) req s).1.statusCode =
      match exchanged env req backend with
      | some raw => (ProxyHandler.parseBackendResponse raw).statusCode
      | none => 500 := by
  unfold exchanged
  rw [handleEndpoint_balanced hchosen]
  dsimp only
  rcases ProxyHandler.handle_cases env.headerOrder env.socket req (targetUrl backend)
    req.clientIp with ⟨raw, hreply, hhandle⟩ | ⟨text, hreply, hhandle⟩
  · rw [hreply, hhandle]
    rfl
  · rw [hreply, hhandle]
    rfl

/-- **The status code tells a failure exactly when a backend sent something that is
    not itself a well-formed 502.** -/
theorem tellsFailure_iff
    (hchosen : (loadBalancer s upstreamName).getNext = (some (i, backend), lb)) :
    TellsFailure env upstreamName req s i backend ↔
      ∃ raw, exchanged env req backend = some raw ∧ ¬ ProxyHandler.WellFormedReply raw 502 := by
  have hstatus : (handleEndpoint env (.balanced upstreamName) req s).1.statusCode =
      match exchanged env req backend with
      | some raw => (ProxyHandler.parseBackendResponse raw).statusCode
      | none => 500 := statusCode_balanced hchosen
  unfold TellsFailure Answers
  dsimp only
  rw [markedDown_iff hchosen, and_self, hstatus]
  cases exchanged env req backend with
  -- nothing was sent: 500, and the backend stays in use
  | none => simp
  | some raw =>
    dsimp only
    rw [ProxyHandler.parseBackendResponse_502_iff]
    constructor
    · intro htells
      refine ⟨raw, rfl, fun h502 => ?_⟩
      -- it counts as failed although it is well formed
      have hcode : ∀ code, ProxyHandler.WellFormedReply raw code → code = 502 :=
        fun code hcode => hcode.code_unique h502
      exact htells.mp hcode ⟨raw, 502, rfl, h502⟩
    · rintro ⟨raw', hraw, h502⟩
      obtain rfl : raw = raw' := Option.some.inj hraw
      constructor
      · rintro hall ⟨raw', code, hraw', hcode⟩
        obtain rfl : raw = raw' := Option.some.inj hraw'
        exact h502 (hall code hcode ▸ hcode)
      · intro hnone code hcode
        exact absurd ⟨raw, code, rfl, hcode⟩ hnone

end

/-- A server whose upstream `api` is the backend of `oneReply`. -/
def oneUpstream : ServerState :=
  { started with
    loadBalancers := [(bytes "api", { backends := [{ host := bytes "127.0.0.1", port := 3000 }] })] }

/-- A backend that refuses connections. -/
def refused : Surroundings :=
  { oneReply [] with
    socket := { opened := true, inetPton := fun _ => some 0x7f000001, connects := fun _ _ => false,
                sends := [], recvs := [] } }

/-- A reply with status 404. -/
theorem tellsFailure_notFound :
    TellsFailure (oneReply (bytes "HTTP/1.1 404 Not Found\r\n\r\n")) (bytes "api") {} oneUpstream 0
        { host := bytes "127.0.0.1", port := 3000 } ↔
      ∃ raw, exchanged (oneReply (bytes "HTTP/1.1 404 Not Found\r\n\r\n")) {}
          { host := bytes "127.0.0.1", port := 3000 } = some raw ∧
        ¬ ProxyHandler.WellFormedReply raw 502 :=
  tellsFailure_iff rfl

/-- A backend that is not reached is answered for with 500 and stays in use. -/
theorem tellsFailure_refused :
    ¬ ∀ (env : Surroundings) (upstreamName : Bytes) (req : HttpRequest) (s : ServerState) (i : Nat)
      (backend : Backend) (lb : LoadBalancer),
      (loadBalancer s upstreamName).getNext = (some (i, backend), lb) →
      TellsFailure env upstreamName req s i backend := by
  intro h
  have htells := h refused (bytes "api") {} oneUpstream 0 _ _ rfl
  have hnone : ¬ Answers refused {} { host := bytes "127.0.0.1", port := 3000 } := by
    rintro ⟨raw, code, hraw, -⟩
    cases hraw
  have h502 := htells.2.mpr hnone
  revert h502
  decide +kernel

end Server

end VeloxServe
