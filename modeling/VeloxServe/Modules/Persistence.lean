import VeloxServe.Http.ConnectionHeader
import VeloxServe.Modules.ProxyRelay
import VeloxServe.Modules.RedirectFraming

/-! # What Redirects and Replies Say about the Connection

    Two kinds of responses can carry a `Connection` line the server did not set:
    a redirect, whose location may inject one, and a relayed reply, whose own one
    is kept beside the server's unless it has the same spelling.
-/

namespace VeloxServe

open StdString Message HttpResponse

namespace HttpResponse

/-! ## Redirects -/

/-- The header lines written before the location. -/
def linesBeforeLocation (ord : HeaderOrder) (keepAlive : Bool) (location : Bytes) : List Bytes :=
  (((redirected keepAlive location).builtHeaders ord).takeWhile
    fun kv => kv.1 ≠ bytes "Location").map fieldLine

/-- What the injected lines leave of the server's word: nothing but what was written
    before them, when one of them is empty. -/
def LocationTells (ord : HeaderOrder) (keepAlive : Bool) (location : Bytes) : Prop :=
  if [] ∈ injectedLines location then
    ∃ line, (linesBeforeLocation ord keepAlive location ++
        (injectedLines location).takeWhile (· ≠ [])).filter (isField (bytes "connection")) = [line] ∧
      announcesKeepAlive (fieldValue line) = keepAlive
  else (injectedLines location).filter (isField (bytes "connection")) = []

theorem lacks_redirect (location : Bytes) : (redirect location).Lacks (bytes "connection") := by
  have hname : toLower (bytes "Location") ≠ bytes "connection" := by decide
  exact (Lacks.fresh _ 301 _ _).setHeader hname location

/-- The connection header of a redirect, which `build` or `process_request` has set. -/
theorem filter_redirected (ord : HeaderOrder) (keepAlive : Bool) (location : Bytes) :
    ∃ v, announcesKeepAlive (strip (fun b => b == 32 || b == 9) v) = keepAlive ∧
      (((redirected keepAlive location).builtHeaders ord).filter fun kv =>
        toLower kv.1 = bytes "connection") = [(bytes "Connection", v)] := by
  have hsent : redirected keepAlive location = if keepAlive then
      (redirect location).setHeader (bytes "Connection") (bytes "keep-alive")
      else redirect location := rfl
  obtain ⟨hspelt, hvalue⟩ :=
    (connectionFits_iff hsent).mpr ((lacks_redirect location).connectionFits keepAlive)
  exact ⟨_, hvalue, (filter_built_connection ord _ _).mpr ⟨hspelt, rfl⟩⟩

/-- A redirect's lines around the injected ones, with the one `Connection` line among them. -/
structure OwnConnectionLine (ord : HeaderOrder) (keepAlive : Bool) (location : Bytes)
    (before : List Bytes) (line : Bytes) : Prop where
  lines : splitLines ((redirected keepAlive location).build ord) =
    (redirected keepAlive location).statusLine ::
      (before ++ injectedLines location ++ linesAfterLocation ord keepAlive location) ++ [[], []]
  nonempty : [] ∉ before ∧ [] ∉ linesAfterLocation ord keepAlive location
  before_eq : before.filter (isField (bytes "connection")) =
    (linesBeforeLocation ord keepAlive location).filter (isField (bytes "connection"))
  single : before.filter (isField (bytes "connection")) ++
    (linesAfterLocation ord keepAlive location).filter (isField (bytes "connection")) = [line]
  value : announcesKeepAlive (fieldValue line) = keepAlive

theorem linesBeforeLocation_eq {ord : HeaderOrder} {keepAlive : Bool} {location : Bytes}
    {before rest : List (Bytes × Bytes)}
    (hbuilt : (redirected keepAlive location).builtHeaders ord =
      before ++ (bytes "Location", location) :: rest)
    (hbefore : ∀ kv ∈ before, kv.1 ≠ bytes "Location") :
    linesBeforeLocation ord keepAlive location = before.map fieldLine := by
  have hall : ∀ kv ∈ before, decide (kv.1 ≠ bytes "Location") = true := by
    intro kv hkv
    simpa using hbefore kv hkv
  unfold linesBeforeLocation
  rw [hbuilt, List.takeWhile_append_of_pos hall, List.takeWhile_cons_of_neg (by simp),
    List.append_nil]

/-- The header map of a redirect yields one `Connection` line, before its location or after. -/
theorem ownConnectionLine_redirected (ord : HeaderOrder) (keepAlive : Bool) (location : Bytes) :
    ∃ before line, OwnConnectionLine ord keepAlive location before line := by
  obtain ⟨before, after, first, hbuilt, hconn, hafter, hlines⟩ :=
    splitLines_redirected ord keepAlive location
  obtain ⟨v, hannounces, hone⟩ := filter_redirected ord keepAlive location
  have hlocation : (58 : UInt8) ∉ bytes "Location" ∧
      toLower (bytes "Location") ≠ bytes "connection" := by decide
  have hset : (58 : UInt8) ∉ bytes "Connection" ∧ bytes "Connection" ≠ bytes "Location" := by decide
  have hown : ∀ kv ∈ before ++ after, (58 : UInt8) ∉ kv.1 ∧ kv.1 ≠ bytes "Location" := by
    intro kv hkv
    rw [hconn kv hkv]
    exact hset
  have hbefore := linesBeforeLocation_eq hbuilt fun kv hkv =>
    (hown kv (List.mem_append_left _ hkv)).2
  have hlast : (linesAfterLocation ord keepAlive location).filter (isField (bytes "connection")) =
      ((after ++ addedToRedirect keepAlive).filter fun kv =>
        toLower kv.1 = bytes "connection").map fieldLine := by
    rw [hafter, filter_fieldLine]
    intro kv hkv
    rcases List.mem_append.mp hkv with hkv | hkv
    · exact (hown kv (List.mem_append_right _ hkv)).1
    · exact (addedToRedirect_plain keepAlive kv hkv).1
  -- the line of the location itself is no `Connection` line, injected text or not
  have hfirst : ((before ++ [(bytes "Location", first)]).map fieldLine).filter
      (isField (bytes "connection")) =
        (before.filter fun kv => toLower kv.1 = bytes "connection").map fieldLine := by
    rw [filter_fieldLine, List.filter_append]
    · simp [hlocation.2]
    · intro kv hkv
      rcases List.mem_append.mp hkv with hkv | hkv
      · exact (hown kv (List.mem_append_left _ hkv)).1
      · rw [List.mem_singleton.mp hkv]
        exact hlocation.1
  refine ⟨_, fieldLine (bytes "Connection", v), hlines, ?_, ?_, ?_, ?_⟩
  · rw [hafter]
    exact ⟨nil_not_mem_fieldLines _, nil_not_mem_fieldLines _⟩
  · rw [hfirst, hbefore, filter_fieldLine fun kv hkv => (hown kv (List.mem_append_left _ hkv)).1]
  · rw [hbuilt, List.filter_append, List.filter_cons_of_neg (by simp [hlocation.2])] at hone
    rw [hfirst, hlast, ← List.map_append, hone]
    rfl
  · rw [fieldValue_connection]
    exact hannounces

/-- **A redirect tells what becomes of the connection exactly when its location lets it.** -/
theorem tellsPersistence_redirected_iff (ord : HeaderOrder) (keepAlive : Bool) (location : Bytes) :
    TellsPersistence ((redirected keepAlive location).build ord) keepAlive ↔
      LocationTells ord keepAlive location := by
  obtain ⟨before, own, hown⟩ := ownConnectionLine_redirected ord keepAlive location
  unfold TellsPersistence LocationTells
  by_cases hempty : [] ∈ injectedLines location
  · -- the header block ends at the first empty line
    obtain ⟨hh, -⟩ := read_of_empty hown.lines hown.nonempty.1 hempty
    rw [if_pos hempty, fields, hh, List.filter_append, hown.before_eq, ← List.filter_append]
  · -- the header block ends where `build` ends it
    obtain ⟨hh, -⟩ := read_of_nonempty hown.lines hown.nonempty.1 hempty hown.nonempty.2
    rw [if_neg hempty, fields, hh, List.filter_append, List.filter_append]
    constructor
    · rintro ⟨line, hline, -⟩
      -- the server's own line is one already
      have hcount := congrArg List.length hline
      have hsingle := congrArg List.length hown.single
      simp only [List.length_append, List.length_cons, List.length_nil] at hcount hsingle
      exact List.eq_nil_of_length_eq_zero (by omega)
    · intro hnone
      refine ⟨own, ?_, hown.value⟩
      rw [hnone, List.append_nil]
      exact hown.single

end HttpResponse

/-! ## Replies -/

namespace ProxyHandler

/-- The header lines of a reply that leave the server's word alone: all in the
    spelling the server looks for, and no promise on a connection that is closed. -/
structure RelaysConnection (raw : Bytes) (keepAlive : Bool) : Prop where
  spelling : ∀ line ∈ fields (bytes "connection") raw, fieldName line = bytes "Connection"
  value : keepAlive = false → ∀ line ∈ (fields (bytes "connection") raw).getLast?,
    announcesKeepAlive (fieldValue line) = false

theorem connectionFits_relayed (raw : Bytes) {resp : HttpResponse} (hempty : resp.headers = ∅)
    (keepAlive : Bool) :
    ((headerLines raw).foldl relayHeaderLine resp).ConnectionFits keepAlive ↔
      RelaysConnection raw keepAlive := by
  have hlower : toLower (bytes "Connection") = bytes "connection" := by decide
  have hspelt := speltAs_relayed raw hempty (bytes "Connection")
  have hlook : (∀ line ∈ fields (toLower (bytes "Connection")) raw,
      fieldName line = bytes "Connection") → _ := lookup_speltAs raw hempty
  rw [hlower] at hspelt hlook
  constructor
  · intro hfits
    have hspelling := hspelt.mp hfits.spelling
    refine ⟨hspelling, fun hclose line hline => ?_⟩
    have hvalue := hlook hspelling
    rw [hline] at hvalue
    rw [← strip_storedValue]
    exact hfits.value hclose _ hvalue
  · intro hrelays
    refine ⟨hspelt.mpr hrelays.spelling, fun hclose v hset => ?_⟩
    obtain ⟨line, hline, rfl⟩ :=
      Option.map_eq_some_iff.mp ((hlook hrelays.spelling).symm.trans hset)
    rw [strip_storedValue]
    exact hrelays.value hclose line hline

/-- **Whether a parsed reply fits what becomes of the connection** is decided by its own
    header lines. -/
theorem connectionFits_parsed (raw : Bytes) (keepAlive : Bool) :
    (parseBackendResponse raw).ConnectionFits keepAlive ↔
      (blankLine <:+: raw → RelaysConnection raw keepAlive) := by
  by_cases h : blankLine <:+: raw
  · obtain ⟨e, he⟩ := Option.isSome_iff_exists.mp (find_isSome_iff.mpr h)
    obtain ⟨statusLine, hstatus, -, hparsed⟩ := parseBackendResponse_eq he
    obtain ⟨code, reason, hline, -⟩ := parseStatusLine_spec hstatus {}
    have hempty : (parseStatusLine statusLine {}).headers = ∅ := by rw [hline]; rfl
    have hbody : ∀ r : HttpResponse, (r.setBody (content raw)).ConnectionFits keepAlive ↔
        r.ConnectionFits keepAlive := fun r => ⟨fun h => ⟨h.1, h.2⟩, fun h => ⟨h.1, h.2⟩⟩
    rw [hparsed, hbody, connectionFits_relayed raw hempty]
    constructor
    · exact fun hrelays _ => hrelays
    · exact fun hrelays => hrelays h
  · rw [parseBackendResponse_broken h]
    constructor
    · exact fun _ hin => absurd hin h
    · exact fun _ => (Lacks.fresh _ 502 _ _).connectionFits keepAlive

end ProxyHandler

end VeloxServe
