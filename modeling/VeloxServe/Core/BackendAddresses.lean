import VeloxServe.Config.ConfigParser
import VeloxServe.Core.Server
import VeloxServe.Modules.HealthChecks

/-! # The Address of a Backend

    A `server` entry of an upstream is cut at its last colon. The proxy puts
    host and port together again and cuts at the first colon, with `localhost`
    for `127.0.0.1`; the health checker hands the stored host to `inet_pton` as
    it is.
-/

namespace VeloxServe

open StdString LexicalPath

namespace Server

/-! ## The Two Addresses -/

/-- Where the handler of a load-balanced location connects to. -/
def proxyAddress (inetPton : Bytes → Option (BitVec 32)) (backend : Backend) :
    Option (BitVec 32 × BitVec 16) :=
  let addr := BackendAddr.parse (targetUrl backend)
  socketAddress inetPton addr.host addr.port

/-- Where the health checker connects to. -/
def probedAddress (inetPton : Bytes → Option (BitVec 32)) (backend : Backend) :
    Option (BitVec 32 × BitVec 16) :=
  socketAddress inetPton backend.host backend.port

/-! ## Reading the URL Back -/

/-- What stands in front of the first colon of a host. -/
def namePart (host : Bytes) : Bytes := host.takeWhile (· ≠ 58)

/-- What the URL of a backend has behind its first colon, scheme apart. -/
def portPart (host : Bytes) (port : Int) : Bytes :=
  if (58 : UInt8) ∈ host then host.drop ((namePart host).length + 1) ++ 58 :: intDecimal port
  else intDecimal port

theorem not_mem_namePart (host : Bytes) : (58 : UInt8) ∉ namePart host := by
  intro hmem
  have hne := List.mem_takeWhile_imp hmem
  simp at hne

theorem namePart_of_not_mem {host : Bytes} (h : (58 : UInt8) ∉ host) : namePart host = host := by
  unfold namePart
  rw [List.takeWhile_eq_self_iff]
  intro b hb
  have hne : b ≠ 58 := fun heq => h (heq ▸ hb)
  simpa using hne

/-- A host with a colon is cut at the first one. -/
theorem namePart_split {host : Bytes} (h : (58 : UInt8) ∈ host) :
    host = namePart host ++ 58 :: host.drop ((namePart host).length + 1) := by
  obtain ⟨a, b, rfl, ha⟩ := List.eq_append_cons_of_mem h
  have hname : namePart (a ++ 58 :: b) = a := by
    have hall : ∀ x ∈ a, decide (x ≠ 58) = true := by
      intro x hx
      have hne : x ≠ 58 := fun heq => ha (heq ▸ hx)
      simpa using hne
    unfold namePart
    rw [List.takeWhile_append_of_pos hall]
    simp
  rw [hname]
  simp

theorem host_port_eq (host : Bytes) (port : Int) :
    host ++ 58 :: intDecimal port = namePart host ++ 58 :: portPart host port := by
  unfold portPart
  by_cases h : (58 : UInt8) ∈ host
  · rw [if_pos h]
    have hsplit := namePart_split h
    calc host ++ 58 :: intDecimal port
        = (namePart host ++ 58 :: host.drop ((namePart host).length + 1)) ++
            58 :: intDecimal port := by rw [← hsplit]
      _ = _ := by simp
  · rw [if_neg h, namePart_of_not_mem h]

/-- The port the proxy reads. -/
def readPort (host : Bytes) (port : Int) : Int :=
  match stoi (portPart host port) with
  | .ok p => p
  | .error _ => 80

theorem parse_targetUrl (backend : Backend) :
    BackendAddr.parse (targetUrl backend) =
      { host := if namePart backend.host = bytes "localhost" then bytes "127.0.0.1"
          else namePart backend.host
        port := readPort backend.host backend.port } := by
  have hscheme : find (bytes "http://") (targetUrl backend) = some 0 := by
    unfold targetUrl
    rw [List.append_assoc, List.append_assoc]
    exact find_of_prefix (List.prefix_append _ _)
  have hdrop : (targetUrl backend).drop 7 =
      namePart backend.host ++ 58 :: portPart backend.host backend.port := by
    have hseven : (bytes "http://").length = 7 := by decide
    have hcolon : bytes ":" = [58] := by decide
    unfold targetUrl
    rw [List.append_assoc, List.append_assoc, ← hseven, List.drop_left, hcolon,
      List.singleton_append, host_port_eq]
  have hfind : find (bytes ":") (namePart backend.host ++ 58 :: portPart backend.host backend.port) =
      some (namePart backend.host).length :=
    find_singleton _ (not_mem_namePart _)
  have hrest : (namePart backend.host ++ 58 :: portPart backend.host backend.port).drop
      ((namePart backend.host).length + 1) = portPart backend.host backend.port := by
    simp
  unfold BackendAddr.parse readPort
  rw [if_pos hscheme, hdrop]
  dsimp only
  rw [hfind]
  simp only [hrest, List.take_left]
  split <;> rfl

/-! ## When They Are the Same -/

/-- `inet_pton` accepts dotted-decimal text only, and the loopback address is such. -/
structure DottedDecimal (inetPton : Bytes → Option (BitVec 32)) : Prop where
  dotted : ∀ s address, inetPton s = some address → ∀ b ∈ s, b = 46 ∨ isDigit b = true
  loopback : inetPton (bytes "127.0.0.1") = some 0x7f000001

/-- An entry `server ADDR;` is accepted and gives this host and port. -/
def Stores (addr host : Bytes) (port : Int) : Prop :=
  ∃ upstream upstream' : UpstreamConfig, ConfigParser.addServer upstream addr = .ok upstream' ∧
    upstream'.servers = upstream.servers ++ [(host, port)]

/-- The host is no `localhost`, and an address in front of a colon counts only when
    `inet_pton` does not see the colon and the port is read back. -/
def ReadAlike (inetPton : Bytes → Option (BitVec 32)) (host : Bytes) (port : Int) : Prop :=
  namePart host ≠ bytes "localhost" ∧
    ((58 : UInt8) ∈ host → inetPton (cString (namePart host)) ≠ none →
      (0 : UInt8) ∈ namePart host ∧ htons (readPort host port) = htons port)

theorem Stores.port_range {addr host : Bytes} {port : Int} (h : Stores addr host port) :
    -2 ^ 31 ≤ port ∧ port < 2 ^ 31 := by
  obtain ⟨upstream, upstream', hadd, hservers⟩ := h
  unfold ConfigParser.addServer at hadd
  split at hadd
  · next colon hcolon =>
    cases hport : stoi (addr.drop (colon + 1)) with
    | error e =>
      rw [hport] at hadd
      cases hadd
    | ok p =>
      rw [hport] at hadd
      obtain rfl := Except.ok.inj hadd
      have hlast := List.append_cancel_left hservers
      obtain rfl : p = port := (Prod.mk.inj (List.cons.inj hlast).1).2
      exact stoi_range hport
  · obtain rfl := Except.ok.inj hadd
    have hlast := List.append_cancel_left hservers
    obtain rfl : (80 : Int) = port := (Prod.mk.inj (List.cons.inj hlast).1).2
    decide

section

variable {inetPton : Bytes → Option (BitVec 32)} {host : Bytes} {port : Int}

/-- A text with another byte than digits and dots is no address. -/
theorem DottedDecimal.eq_none (h : DottedDecimal inetPton) {s : Bytes} {b : UInt8} (hb : b ∈ s)
    (hdot : b ≠ 46) (hdigit : isDigit b = false) : inetPton s = none := by
  cases hs : inetPton s with
  | none => rfl
  | some address =>
    rcases h.dotted s address hs b hb with heq | hd
    · exact absurd heq hdot
    · rw [hd] at hdigit
      cases hdigit

/-- `localhost` is an address for the proxy alone. -/
theorem probedAddress_localhost (h : DottedDecimal inetPton)
    (hname : namePart host = bytes "localhost") :
    inetPton (cString host) = none := by
  have hmem : (108 : UInt8) ∈ cString host := by
    obtain ⟨t, ht⟩ : namePart host <+: host := List.takeWhile_prefix _
    rw [← ht, hname, cString_append_of_not_mem (by decide)]
    exact List.mem_append_left _ (by decide)
  exact h.eq_none hmem (by decide) (by decide)

/-- `inet_pton` stops at a colon it sees. -/
theorem probedAddress_colon (h : DottedDecimal inetPton) (hcolon : (58 : UInt8) ∈ host)
    (hnul : (0 : UInt8) ∉ namePart host) : inetPton (cString host) = none := by
  have hmem : (58 : UInt8) ∈ cString host := by
    rw [namePart_split hcolon, cString_append_of_not_mem hnul]
    refine List.mem_append_right _ ?_
    unfold cString
    rw [List.takeWhile_cons_of_pos (by decide)]
    exact List.mem_cons_self
  exact h.eq_none hmem (by decide) (by decide)

theorem readPort_of_not_mem (hcolon : (58 : UInt8) ∉ host) (hlo : -2 ^ 31 ≤ port)
    (hhi : port < 2 ^ 31) : readPort host port = port := by
  unfold readPort portPart
  rw [if_neg hcolon, stoi_intDecimal hlo hhi]

/-- **The proxy and the health checker connect to the same address exactly when the
    host reads alike both ways.** -/
theorem sameAddress_iff (hdotted : DottedDecimal inetPton) {addr : Bytes}
    (hstores : Stores addr host port) :
    proxyAddress inetPton { host := host, port := port } =
        probedAddress inetPton { host := host, port := port } ↔
      ReadAlike inetPton host port := by
  obtain ⟨hlo, hhi⟩ := hstores.port_range
  unfold proxyAddress probedAddress ReadAlike
  rw [parse_targetUrl]
  dsimp only
  by_cases hlocal : namePart host = bytes "localhost"
  · rw [if_pos hlocal]
    unfold socketAddress
    rw [probedAddress_localhost hdotted hlocal]
    have hloop : cString (bytes "127.0.0.1") = bytes "127.0.0.1" := by decide
    rw [hloop, hdotted.loopback]
    simp [hlocal]
  · rw [if_neg hlocal]
    by_cases hcolon : (58 : UInt8) ∈ host
    · unfold socketAddress
      by_cases hnul : (0 : UInt8) ∈ namePart host
      · -- neither reader sees the colon
        have hsame : cString host = cString (namePart host) := by
          conv_lhs => rw [namePart_split hcolon, cString_append_of_mem hnul]
        rw [hsame]
        cases inetPton (cString (namePart host)) with
        | none => simp [hlocal]
        | some address => simp [hlocal, hcolon, hnul]
      · rw [probedAddress_colon hdotted hcolon hnul]
        cases inetPton (cString (namePart host)) with
        | none => simp [hlocal]
        | some address => simp [hlocal, hcolon, hnul]
    · rw [namePart_of_not_mem hcolon, readPort_of_not_mem hcolon hlo hhi]
      rw [namePart_of_not_mem hcolon] at hlocal
      simp [hlocal, hcolon]

end

/-! ## Two Entries -/

/-- An `inet_pton` that knows the loopback address. -/
def loopbackOnly (s : Bytes) : Option (BitVec 32) :=
  if s = bytes "127.0.0.1" then some 0x7f000001 else none

theorem loopbackOnly_dottedDecimal : DottedDecimal loopbackOnly where
  dotted := by
    intro s address h
    unfold loopbackOnly at h
    split at h
    · next hs =>
      rw [hs]
      decide
    · cases h
  loopback := by decide

theorem stores_loopback : Stores (bytes "127.0.0.1:3001") (bytes "127.0.0.1") 3001 :=
  ⟨{ name := bytes "api" }, _, rfl, by decide⟩

theorem stores_localhost : Stores (bytes "localhost:3001") (bytes "localhost") 3001 :=
  ⟨{ name := bytes "api" }, _, rfl, by decide⟩

theorem sameAddress_loopback :
    proxyAddress loopbackOnly { host := bytes "127.0.0.1", port := 3001 } =
        probedAddress loopbackOnly { host := bytes "127.0.0.1", port := 3001 } ↔
      ReadAlike loopbackOnly (bytes "127.0.0.1") 3001 :=
  sameAddress_iff loopbackOnly_dottedDecimal stores_loopback

/-- A backend `localhost` is reached by the proxy and fails every health check. -/
theorem not_sameAddress_localhost :
    ¬ ∀ (inetPton : Bytes → Option (BitVec 32)) (addr host : Bytes) (port : Int),
      DottedDecimal inetPton → Stores addr host port →
      proxyAddress inetPton { host := host, port := port } =
        probedAddress inetPton { host := host, port := port } := by
  intro h
  have hsame := h loopbackOnly _ _ _ loopbackOnly_dottedDecimal stores_localhost
  revert hsame
  decide +kernel

end Server

end VeloxServe
