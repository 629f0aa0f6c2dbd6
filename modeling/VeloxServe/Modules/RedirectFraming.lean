import VeloxServe.Http.ResponseFraming

/-! # The Framing of a Redirect

    A redirect's `Location` may contain CRLFs, and what follows the first of
    them is read as header lines of its own. They leave the framing alone when
    none of them is empty and none is a Content-Length or Transfer-Encoding
    field. An empty one ends the header block early, in front of the
    Content-Length that `build` adds.
-/

namespace VeloxServe

open StdString Message HttpResponse

namespace HttpResponse

/-- A redirect as it is sent. -/
def redirected (keepAlive : Bool) (location : Bytes) : HttpResponse :=
  if keepAlive then (redirect location).setHeader (bytes "Connection") (bytes "keep-alive")
  else redirect location

/-- The lines a location brings into the header block. -/
def injectedLines (location : Bytes) : List Bytes := (splitLines location).tail

/-- The header lines written after the location. -/
def linesAfterLocation (ord : HeaderOrder) (keepAlive : Bool) (location : Bytes) : List Bytes :=
  ((((redirected keepAlive location).builtHeaders ord).dropWhile
    fun kv => kv.1 ≠ bytes "Location").tail).map fieldLine

/-- The framing the injected lines leave: theirs, when one of them is empty. -/
def LocationFramed (ord : HeaderOrder) (keepAlive : Bool) (location : Bytes) : Prop :=
  let own := (injectedLines location).takeWhile (· ≠ [])
  let rest := ((injectedLines location).dropWhile (· ≠ [])).tail ++
    linesAfterLocation ord keepAlive location ++ [[], []]
  if [] ∈ injectedLines location then
    (∃ line, own.filter (isField (bytes "content-length")) = [line] ∧
      fieldValue line = decimal (joinLines rest).length) ∧
    own.filter (isField (bytes "transfer-encoding")) = []
  else
    (injectedLines location).filter (isField (bytes "content-length")) = [] ∧
      (injectedLines location).filter (isField (bytes "transfer-encoding")) = []

/-- A location without CRLF injects nothing. -/
theorem locationFramed_oneLine (ord : HeaderOrder) (keepAlive : Bool) {location : Bytes}
    (h : ¬ crlf <:+: location) : LocationFramed ord keepAlive location := by
  have hnone : injectedLines location = [] := by
    unfold injectedLines
    rw [splitLines_oneLine h]
    rfl
  unfold LocationFramed
  rw [hnone]
  exact ⟨rfl, rfl⟩

/-! ## The Lines of a Redirect -/

theorem redirected_body (keepAlive : Bool) (location : Bytes) :
    (redirected keepAlive location).body = [] := by
  unfold redirected
  split <;> rfl

theorem redirected_statusText (keepAlive : Bool) (location : Bytes) :
    (redirected keepAlive location).statusText = bytes "Moved Permanently" := by
  unfold redirected
  split <;> rfl

theorem lookup_redirected (keepAlive : Bool) (location k : Bytes) :
    (redirected keepAlive location).headers.lookup k =
      if k = bytes "Connection" ∧ keepAlive = true then some (bytes "keep-alive")
      else if k = bytes "Location" then some location else none := by
  have hredirect : (redirect location).headers.lookup k =
      if k = bytes "Location" then some location else none :=
    UnorderedMap.lookup_set _ _ _ _
  unfold redirected
  cases keepAlive with
  | false => simpa using hredirect
  | true =>
    rw [if_pos rfl, setHeader_headers, UnorderedMap.lookup_set, hredirect]
    simp

/-- The headers of a redirect, around its location. -/
theorem builtHeaders_redirected (ord : HeaderOrder) (keepAlive : Bool) (location : Bytes) :
    ∃ before after, (redirected keepAlive location).builtHeaders ord =
        before ++ (bytes "Location", location) :: after ++
          (redirected keepAlive location).addedHeaders ∧
      ∀ kv ∈ before ++ after, kv = (bytes "Connection", bytes "keep-alive") := by
  have hdiff : bytes "Location" ≠ bytes "Connection" := by decide
  have hmem : (bytes "Location", location) ∈ ord.order (redirected keepAlive location).headers := by
    rw [ord.mem_order, lookup_redirected]
    simp [hdiff]
  have hnodup := ord.order_nodup (redirected keepAlive location).headers
  have hall : ∀ kv ∈ ord.order (redirected keepAlive location).headers,
      kv.1 ≠ bytes "Location" → kv = (bytes "Connection", bytes "keep-alive") := by
    intro kv hkv hne
    obtain ⟨k, v⟩ := kv
    have hlook := ord.mem_order.mp hkv
    rw [lookup_redirected] at hlook
    split at hlook
    · next hconn => rw [← Option.some.inj hlook, hconn.1]
    · cases hlook
  obtain ⟨before, after, hsplit⟩ := List.append_of_mem hmem
  refine ⟨before, after, by rw [builtHeaders, hsplit], fun kv hkv => ?_⟩
  rw [hsplit] at hall hnodup
  apply hall kv
  · rcases List.mem_append.mp hkv with hkv | hkv
    · exact List.mem_append_left _ hkv
    · exact List.mem_append_right _ (List.mem_cons_of_mem _ hkv)
  · -- the name of the location occurs once
    intro heq
    rw [List.map_append, List.map_cons, List.nodup_append, List.nodup_cons] at hnodup
    obtain ⟨-, ⟨hafter, -⟩, hbefore⟩ := hnodup
    rcases List.mem_append.mp hkv with hkv | hkv
    · exact hbefore kv.1 (List.mem_map_of_mem hkv) _ List.mem_cons_self heq
    · have hname : kv.1 ∈ after.map Prod.fst := List.mem_map_of_mem hkv
      rw [heq] at hname
      exact hafter hname

/-- The header lines of a redirect around the injected ones. -/
structure OwnLines (before after : List Bytes) : Prop where
  quiet : ∀ name ∈ [bytes "content-length", bytes "transfer-encoding"],
    before.filter (isField name) = []
  length : after.filter (isField (bytes "content-length")) =
    [fieldLine (bytes "Content-Length", decimal 0)]
  noTransferEncoding : after.filter (isField (bytes "transfer-encoding")) = []
  nonempty : [] ∉ before ∧ [] ∉ after

theorem filter_fieldLine {kvs : List (Bytes × Bytes)} (h : ∀ kv ∈ kvs, (58 : UInt8) ∉ kv.1)
    (name : Bytes) : (kvs.map fieldLine).filter (isField name) =
      (kvs.filter fun kv => toLower kv.1 = name).map fieldLine := by
  rw [List.filter_map]
  congr 1
  apply List.filter_congr
  intro kv hkv
  exact isField_fieldLine (h kv hkv) name

/-- The headers `build` adds to a redirect. -/
def addedToRedirect (keepAlive : Bool) : List (Bytes × Bytes) :=
  [(bytes "Content-Length", decimal 0), (bytes "Server", bytes "VeloxServe/1.0")] ++
    if keepAlive then [] else [(bytes "Connection", bytes "close")]

theorem addedToRedirect_plain (keepAlive : Bool) :
    ∀ kv ∈ addedToRedirect keepAlive,
      (58 : UInt8) ∉ kv.1 ∧ ¬ crlf <:+: kv.1 ∧ ¬ crlf <:+: kv.2 := by
  revert keepAlive
  decide

theorem addedHeaders_redirected (keepAlive : Bool) (location : Bytes) :
    (redirected keepAlive location).addedHeaders = addedToRedirect keepAlive := by
  have hnone : ∀ k, (redirected keepAlive location).headers.lookup k = none →
      k ∉ (redirected keepAlive location).headers := by
    intro k hk hmem
    rw [← AList.lookup_isSome, hk] at hmem
    cases hmem
  have hlength : bytes "Content-Length" ∉ (redirected keepAlive location).headers := by
    apply hnone
    rw [lookup_redirected, if_neg (by simp only [not_and]; exact fun h => absurd h (by decide)),
      if_neg (by decide)]
  have hserver : bytes "Server" ∉ (redirected keepAlive location).headers := by
    apply hnone
    rw [lookup_redirected, if_neg (by simp only [not_and]; exact fun h => absurd h (by decide)),
      if_neg (by decide)]
  have hconn : bytes "Connection" ∈ (redirected keepAlive location).headers ↔ keepAlive = true := by
    have hdiff : bytes "Connection" ≠ bytes "Location" := by decide
    rw [← AList.lookup_isSome, lookup_redirected]
    cases keepAlive <;> simp [hdiff]
  unfold addedHeaders addedToRedirect
  rw [if_neg hlength, if_neg hserver, redirected_body]
  cases keepAlive with
  | false => rw [if_neg (by simpa using hconn)]; rfl
  | true => rw [if_pos (hconn.mpr rfl)]; rfl

/-- The location's line as it is read: its own text up to the first CRLF. -/
theorem splitLines_location (location : Bytes) :
    ∃ first, splitLines (fieldLine (bytes "Location", location)) =
      fieldLine (bytes "Location", first) :: injectedLines location :=
  splitLines_append_left (by decide : (13 : UInt8) ∉ bytes "Location" ++ bytes ": ") location

theorem ownLines_redirected {before after : List (Bytes × Bytes)} (first : Bytes)
    (keepAlive : Bool)
    (hconn : ∀ kv ∈ before ++ after, kv = (bytes "Connection", bytes "keep-alive")) :
    OwnLines ((before ++ [(bytes "Location", first)]).map fieldLine)
      ((after ++ addedToRedirect keepAlive).map fieldLine) := by
  have hbefore : ∀ kv ∈ before ++ [(bytes "Location", first)],
      kv.1 = bytes "Connection" ∨ kv.1 = bytes "Location" := by
    intro kv hkv
    rcases List.mem_append.mp hkv with hkv | hkv
    · exact .inl (by rw [hconn kv (List.mem_append_left _ hkv)])
    · exact .inr (by rw [List.mem_singleton.mp hkv])
  have hafter : ∀ name ∈ [bytes "content-length", bytes "transfer-encoding"],
      after.filter (fun kv => toLower kv.1 = name) = [] := by
    intro name hname
    rw [List.filter_eq_nil_iff]
    intro kv hkv
    rw [hconn kv (List.mem_append_right _ hkv)]
    revert name
    decide
  have hnames : ∀ k, k = bytes "Connection" ∨ k = bytes "Location" → (58 : UInt8) ∉ k ∧
      ∀ name ∈ [bytes "content-length", bytes "transfer-encoding"], ¬ toLower k = name := by
    intro k hk
    rcases hk with rfl | rfl <;> decide
  have hcolon : ∀ kv ∈ after ++ addedToRedirect keepAlive, (58 : UInt8) ∉ kv.1 := by
    intro kv hkv
    rcases List.mem_append.mp hkv with hkv | hkv
    · rw [hconn kv (List.mem_append_right _ hkv)]
      exact (hnames _ (.inl rfl)).1
    · exact (addedToRedirect_plain keepAlive kv hkv).1
  constructor
  · intro name hname
    rw [filter_fieldLine fun kv hkv => (hnames _ (hbefore kv hkv)).1, List.map_eq_nil_iff,
      List.filter_eq_nil_iff]
    intro kv hkv
    simpa using (hnames _ (hbefore kv hkv)).2 name hname
  · rw [filter_fieldLine hcolon, List.filter_append, hafter _ (by simp)]
    cases keepAlive <;> decide
  · rw [filter_fieldLine hcolon, List.filter_append, hafter _ (by simp)]
    cases keepAlive <;> decide
  · exact ⟨nil_not_mem_fieldLines _, nil_not_mem_fieldLines _⟩

/-- The lines of a redirect: those of its headers around the ones its location injects. -/
theorem splitLines_redirected (ord : HeaderOrder) (keepAlive : Bool) (location : Bytes) :
    ∃ before after first, (redirected keepAlive location).builtHeaders ord =
        before ++ (bytes "Location", location) :: (after ++ addedToRedirect keepAlive) ∧
      (∀ kv ∈ before ++ after, kv = (bytes "Connection", bytes "keep-alive")) ∧
      linesAfterLocation ord keepAlive location =
        (after ++ addedToRedirect keepAlive).map fieldLine ∧
      splitLines ((redirected keepAlive location).build ord) =
        (redirected keepAlive location).statusLine ::
          ((before ++ [(bytes "Location", first)]).map fieldLine ++ injectedLines location ++
            linesAfterLocation ord keepAlive location) ++ [[], []] := by
  obtain ⟨before, after, hbuilt, hconn⟩ := builtHeaders_redirected ord keepAlive location
  obtain ⟨first, hfirst⟩ := splitLines_location location
  rw [addedHeaders_redirected, List.append_assoc, List.cons_append] at hbuilt
  have hafter : linesAfterLocation ord keepAlive location =
      (after ++ addedToRedirect keepAlive).map fieldLine := by
    have hskip : ∀ kv ∈ before, decide (kv.1 ≠ bytes "Location") = true := by
      intro kv hkv
      rw [hconn kv (List.mem_append_left _ hkv)]
      decide
    unfold linesAfterLocation
    rw [hbuilt, List.dropWhile_append_of_pos hskip]
    simp
  refine ⟨before, after, first, hbuilt, hconn, hafter, ?_⟩
  have hstatus : splitLines (redirected keepAlive location).statusLine =
      [(redirected keepAlive location).statusLine] := by
    apply splitLines_oneLine
    apply not_infix_statusLine
    rw [redirected_statusText]
    decide
  have hclean : ∀ kvs : List (Bytes × Bytes),
      (∀ kv ∈ kvs, ¬ crlf <:+: kv.1 ∧ ¬ crlf <:+: kv.2) →
      (kvs.map fieldLine).flatMap splitLines = kvs.map fieldLine := by
    intro kvs hkvs
    apply flatMap_splitLines
    intro line hline
    obtain ⟨kv, hkv, rfl⟩ := List.mem_map.mp hline
    exact not_infix_fieldLine (hkvs kv hkv).1 (hkvs kv hkv).2
  have hbefore := hclean before fun kv hkv => by
    rw [hconn kv (List.mem_append_left _ hkv)]
    decide
  have hrest := hclean (after ++ addedToRedirect keepAlive) fun kv hkv => by
    rcases List.mem_append.mp hkv with hkv | hkv
    · rw [hconn kv (List.mem_append_right _ hkv)]
      decide
    · exact (addedToRedirect_plain keepAlive kv hkv).2
  rw [splitLines_build, hbuilt, redirected_body, hafter, List.flatMap_cons, hstatus,
    List.map_append, List.flatMap_append, hbefore, List.map_cons, List.flatMap_cons, hfirst, hrest]
  simp [splitLines]

theorem redirected_lines (ord : HeaderOrder) (keepAlive : Bool) (location : Bytes) :
    ∃ before, OwnLines before (linesAfterLocation ord keepAlive location) ∧
      splitLines ((redirected keepAlive location).build ord) =
        (redirected keepAlive location).statusLine ::
          (before ++ injectedLines location ++ linesAfterLocation ord keepAlive location) ++
            [[], []] := by
  obtain ⟨before, after, first, -, hconn, hafter, hlines⟩ :=
    splitLines_redirected ord keepAlive location
  refine ⟨_, ?_, hlines⟩
  rw [hafter]
  exact ownLines_redirected first keepAlive hconn

/-- A redirect has content when its location ends the header block early. -/
theorem content_redirected_iff (ord : HeaderOrder) (keepAlive : Bool) (location : Bytes) :
    content ((redirected keepAlive location).build ord) = [] ↔ [] ∉ injectedLines location := by
  obtain ⟨before, hown, hlines⟩ := redirected_lines ord keepAlive location
  by_cases hempty : [] ∈ injectedLines location
  · refine iff_of_false ?_ (not_not.mpr hempty)
    obtain ⟨-, hc⟩ := read_of_empty hlines hown.nonempty.1 hempty
    -- the last lines of the block are read as content
    generalize ((injectedLines location).dropWhile (· ≠ [])).tail ++
      linesAfterLocation ord keepAlive location = rest at hc
    have hlast : rest ++ [[], []] = rest ++ [[]] ++ [[]] := by simp
    rw [hc, hlast, joinLines_append (by simp) (by simp)]
    simp [crlf]
  · refine iff_of_true ?_ hempty
    obtain ⟨-, hc⟩ := read_of_nonempty hlines hown.nonempty.1 hempty hown.nonempty.2
    rw [hc]
    rfl

/-- **A redirect is framed exactly when the lines its location injects leave it so.** -/
theorem framed_redirected_iff (ord : HeaderOrder) (keepAlive : Bool) (location : Bytes) :
    Framed ((redirected keepAlive location).build ord) ↔ LocationFramed ord keepAlive location := by
  obtain ⟨before, hown, hlines⟩ := redirected_lines ord keepAlive location
  have hcl := hown.quiet (bytes "content-length") (by simp)
  have hte := hown.quiet (bytes "transfer-encoding") (by simp)
  unfold LocationFramed
  dsimp only
  by_cases hempty : [] ∈ injectedLines location
  · -- the header block ends at the first empty line
    rw [if_pos hempty]
    obtain ⟨hh, hc⟩ := read_of_empty hlines hown.nonempty.1 hempty
    constructor
    · intro hframed
      obtain ⟨⟨line, hline, hlength⟩, hnone⟩ := hframed
      rw [fields, hh, List.filter_append, hcl, List.nil_append] at hline
      rw [fields, hh, List.filter_append, hte, List.nil_append] at hnone
      rw [hc] at hlength
      exact ⟨⟨line, hline, hlength⟩, hnone⟩
    · intro hlocation
      obtain ⟨⟨line, hline, hlength⟩, hnone⟩ := hlocation
      constructor
      · refine ⟨line, ?_, by rw [hc]; exact hlength⟩
        rw [fields, hh, List.filter_append, hcl, List.nil_append, hline]
      · rw [fields, hh, List.filter_append, hte, List.nil_append, hnone]
  · -- the header block ends where `build` ends it
    rw [if_neg hempty]
    obtain ⟨hh, hc⟩ := read_of_nonempty hlines hown.nonempty.1 hempty hown.nonempty.2
    have hnumeral : fieldValue (fieldLine (bytes "Content-Length", decimal 0)) =
        decimal (content ((redirected keepAlive location).build ord)).length := by
      rw [hc]
      decide
    have hfields : fields (bytes "content-length") ((redirected keepAlive location).build ord) =
        (injectedLines location).filter (isField (bytes "content-length")) ++
          [fieldLine (bytes "Content-Length", decimal 0)] := by
      rw [fields, hh, List.filter_append, List.filter_append, hcl, hown.length, List.nil_append]
    have hte' : fields (bytes "transfer-encoding") ((redirected keepAlive location).build ord) =
        (injectedLines location).filter (isField (bytes "transfer-encoding")) := by
      rw [fields, hh, List.filter_append, List.filter_append, hte, hown.noTransferEncoding,
        List.nil_append, List.append_nil]
    constructor
    · intro hframed
      obtain ⟨⟨line, hline, -⟩, hnone⟩ := hframed
      rw [hte'] at hnone
      rw [hfields] at hline
      refine ⟨?_, hnone⟩
      have hlen := congrArg List.length hline
      rw [List.length_append, List.length_singleton, List.length_singleton] at hlen
      exact List.length_eq_zero_iff.mp (by omega)
    · intro hlocation
      obtain ⟨hnoLength, hnone⟩ := hlocation
      refine ⟨⟨_, ?_, hnumeral⟩, by rw [hte', hnone]⟩
      rw [hfields, hnoLength, List.nil_append]

end HttpResponse

end VeloxServe
