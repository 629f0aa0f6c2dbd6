import VeloxServe.Modules.ProxyForwarding
import VeloxServe.Modules.ProxyRelay

/-! # Responses Read Back

    What `parse_backend_response` makes of the bytes `build` writes: the same
    response, with the headers `build` adds, and values that may have other
    blanks in front.
-/

namespace VeloxServe

open StdString Message HttpResponse

namespace ProxyHandler

/-- A value without the blanks in front. -/
def withoutIndent (s : Bytes) : Bytes := s.dropWhile fun b => b == 32 || b == 9

/-- The response is the one that was built. -/
structure ReadBackFrom (r back : HttpResponse) : Prop where
  statusCode : back.statusCode = r.statusCode
  statusText : back.statusText = r.statusText
  body : back.body = r.body
  names : ∀ k, k ∈ back.headers ↔ k ∈ r.headers ∨ k = bytes "Content-Length" ∨
    k = bytes "Server" ∨ k = bytes "Connection"
  values : ∀ k v, r.headers.lookup k = some v ∨ (k, v) ∈ r.addedHeaders →
    ∃ v', back.headers.lookup k = some v' ∧ withoutIndent v' = withoutIndent v

/-! ## The Status Line -/

/-- A printed status line is taken apart at its first two spaces. -/
theorem parseStatusLine_statusLine {r : HttpResponse} (hlo : -2 ^ 31 ≤ r.statusCode)
    (hhi : r.statusCode < 2 ^ 31) (resp : HttpResponse) :
    parseStatusLine r.statusLine resp = resp.setStatus r.statusCode r.statusText := by
  have hspace : bytes " " = [32] := by decide
  have hstart : bytes "HTTP/1.1 " = bytes "HTTP/1.1" ++ [32] := by decide
  have hversion : (32 : UInt8) ∉ bytes "HTTP/1.1" := by decide
  have hlen : (bytes "HTTP/1.1").length = 8 := by decide
  have hcode : (32 : UInt8) ∉ intDecimal r.statusCode := fun hmem =>
    absurd (mem_intDecimal hmem) (by decide)
  have hline : r.statusLine =
      bytes "HTTP/1.1" ++ 32 :: (intDecimal r.statusCode ++ 32 :: r.statusText) := by
    simp [statusLine, hstart, hspace]
  have hdrop : (bytes "HTTP/1.1" ++ 32 :: (intDecimal r.statusCode ++ 32 :: r.statusText)).drop
      (8 + 1) = intDecimal r.statusCode ++ 32 :: r.statusText := by
    rw [← hlen, ← List.drop_drop, List.drop_left]
    rfl
  -- the code ends at the second space
  have hsecond : findFrom [32] (bytes "HTTP/1.1" ++
      32 :: (intDecimal r.statusCode ++ 32 :: r.statusText)) (8 + 1) =
        some ((intDecimal r.statusCode).length + (8 + 1)) := by
    unfold findFrom
    rw [hdrop, find_singleton _ hcode]
    rfl
  -- behind it stands the reason
  have hreason : (bytes "HTTP/1.1" ++ 32 :: (intDecimal r.statusCode ++ 32 :: r.statusText)).drop
      ((intDecimal r.statusCode).length + (8 + 1) + 1) = r.statusText := by
    rw [show (intDecimal r.statusCode).length + (8 + 1) + 1 =
      (8 + 1) + ((intDecimal r.statusCode).length + 1) by omega, ← List.drop_drop, hdrop]
    simp
  have hwidth : (intDecimal r.statusCode).length + (8 + 1) - 8 - 1 =
      (intDecimal r.statusCode).length := by omega
  unfold parseStatusLine
  rw [hline, hspace, find_singleton _ hversion, hlen]
  dsimp only
  rw [hsecond]
  dsimp only
  rw [hwidth, hdrop, List.take_left, stoi_intDecimal hlo hhi]
  dsimp only
  rw [hreason]

/-! ## The Headers -/

theorem withoutIndent_trimLeading (s : Bytes) : withoutIndent (trimLeading s) = withoutIndent s := by
  unfold trimLeading
  dsimp only
  split
  · rfl
  · exact dropWhile_eq_self (dropWhile_head _ s)

theorem withoutIndent_storedValue {kv : Bytes × Bytes} (h : (58 : UInt8) ∉ kv.1) :
    withoutIndent (storedValue (fieldLine kv)) = withoutIndent kv.2 := by
  have hrest : ((fieldLine kv).dropWhile (· ≠ 58)).tail = 32 :: kv.2 := by
    rw [fieldLine_eq, List.dropWhile_append_of_pos (ne_colon h)]
    simp
  unfold storedValue
  rw [withoutIndent_trimLeading, hrest]
  rfl

theorem isNamed_fieldLine {kv : Bytes × Bytes} (h : (58 : UInt8) ∉ kv.1) (k : Bytes) :
    isNamed k (fieldLine kv) = decide (kv.1 = k) := by
  have hname : fieldName (fieldLine kv) = kv.1 := by
    rw [fieldName, fieldLine_eq, List.takeWhile_append_of_pos (ne_colon h)]
    simp
  have hcolon : (fieldLine kv).contains 58 = true := by
    rw [fieldLine_eq]
    simp
  unfold isNamed
  rw [hname, hcolon, Bool.true_and]
  exact beq_eq_decide _ _

/-- The headers of a list of written ones with distinct names. -/
theorem lookup_relayed_fieldLines {kvs : List (Bytes × Bytes)}
    (hcolon : ∀ kv ∈ kvs, (58 : UInt8) ∉ kv.1) (hnodup : (kvs.map Prod.fst).Nodup)
    {resp : HttpResponse} (hempty : resp.headers = ∅) :
    (∀ kv ∈ kvs, ((kvs.map fieldLine).foldl relayHeaderLine resp).headers.lookup kv.1 =
      some (storedValue (fieldLine kv))) ∧
    ∀ k ∉ kvs.map Prod.fst,
      ((kvs.map fieldLine).foldl relayHeaderLine resp).headers.lookup k = none := by
  have hfilter : ∀ k, (kvs.map fieldLine).filter (isNamed k) =
      (kvs.filter fun kv => kv.1 = k).map fieldLine := by
    intro k
    rw [List.filter_map]
    congr 1
    apply List.filter_congr
    intro kv hkv
    exact isNamed_fieldLine (hcolon kv hkv) k
  constructor
  · intro kv hkv
    -- among distinct names the last line of a name is its only one
    have hlast : (kvs.filter fun kv' => kv'.1 = kv.1).getLast? = some kv := by
      have hmem : kv ∈ kvs.filter fun kv' => kv'.1 = kv.1 := List.mem_filter.mpr ⟨hkv, by simp⟩
      have hne : (kvs.filter fun kv' => kv'.1 = kv.1) ≠ [] := List.ne_nil_of_mem hmem
      obtain ⟨last, hlast⟩ := Option.isSome_iff_exists.mp (List.getLast?_isSome.mpr hne)
      obtain ⟨hin, hname⟩ := List.mem_filter.mp (List.mem_of_getLast? hlast)
      rw [hlast, List.inj_on_of_nodup_map hnodup hin hkv (by simpa using hname)]
    rw [lookup_relayed, hfilter, List.getLast?_map, hlast]
    rfl
  · intro k hk
    have hnone : (kvs.filter fun kv => kv.1 = k) = [] := by
      rw [List.filter_eq_nil_iff]
      intro kv hkv
      have hne : kv.1 ≠ k := fun heq => hk (heq ▸ List.mem_map_of_mem hkv)
      simpa using hne
    rw [lookup_relayed, hfilter, hnone, hempty]
    rfl

theorem mem_builtHeaders_fst (ord : HeaderOrder) (r : HttpResponse) (k : Bytes) :
    k ∈ (r.builtHeaders ord).map Prod.fst ↔ k ∈ r.headers ∨ k = bytes "Content-Length" ∨
      k = bytes "Server" ∨ k = bytes "Connection" := by
  have hset : k ∈ (ord.order r.headers).map Prod.fst ↔ k ∈ r.headers := by
    constructor
    · intro hk
      obtain ⟨⟨k', v⟩, hkv, rfl⟩ := List.mem_map.mp hk
      exact AList.lookup_isSome.mp (ord.mem_order.mp hkv ▸ rfl)
    · intro hk
      obtain ⟨v, hv⟩ := Option.isSome_iff_exists.mp (AList.lookup_isSome.mpr hk)
      exact List.mem_map.mpr ⟨(k, v), ord.mem_order.mpr hv, rfl⟩
  have hadded : k ∈ r.addedHeaders.map Prod.fst ↔
      (k = bytes "Content-Length" ∨ k = bytes "Server" ∨ k = bytes "Connection") ∧
        k ∉ r.headers := by
    unfold addedHeaders
    by_cases h₁ : bytes "Content-Length" ∈ r.headers <;>
      by_cases h₂ : bytes "Server" ∈ r.headers <;>
      by_cases h₃ : bytes "Connection" ∈ r.headers <;>
      simp [h₁, h₂, h₃] <;> grind
  unfold builtHeaders
  rw [List.map_append, List.mem_append, hset, hadded]
  by_cases hk : k ∈ r.headers
  · exact iff_of_true (.inl hk) (.inl hk)
  · simp only [hk, not_false_eq_true, and_true]

/-! ## The Round Trip -/

/-- **`parse_backend_response` undoes `build`** on every plain response. -/
theorem readBack_plain (ord : HeaderOrder) {r : HttpResponse} (hplain : r.Plain)
    (hlo : -2 ^ 31 ≤ r.statusCode) (hhi : r.statusCode < 2 ^ 31) :
    ReadBackFrom r (parseBackendResponse (r.build ord)) := by
  obtain ⟨hheaders, hcontent⟩ := hplain.clean.read_build ord
  have hfind : (find blankLine (r.build ord)).isSome := by
    rw [find_isSome_iff, build_eq, writeLines_eq_joinLines (by simp)]
    exact ⟨joinLines (r.statusLine :: (r.builtHeaders ord).map fieldLine), r.body, by simp [blankLine]⟩
  obtain ⟨e, he⟩ := Option.isSome_iff_exists.mp hfind
  obtain ⟨statusLine, -, hhead, hparsed⟩ := parseBackendResponse_eq he
  obtain rfl : r.statusLine = statusLine := by
    rw [hplain.clean.splitLines_build] at hhead
    exact Option.some.inj hhead
  rw [hheaders, hcontent, parseStatusLine_statusLine hlo hhi] at hparsed
  obtain ⟨hlookup, hnone⟩ := lookup_relayed_fieldLines (hplain.colonFree.builtHeaders ord)
    (builtHeaders_nodup ord r) (rfl : (setStatus r.statusCode r.statusText {}).headers = ∅)
  have hstatus := relayed_status ((r.builtHeaders ord).map fieldLine)
    (setStatus r.statusCode r.statusText {})
  rw [hparsed]
  refine ⟨hstatus.1, hstatus.2, rfl, fun k => ?_, fun k v hv => ?_⟩
  · rw [← mem_builtHeaders_fst ord r k, setBody_headers, ← AList.lookup_isSome]
    by_cases hk : k ∈ (r.builtHeaders ord).map Prod.fst
    · obtain ⟨kv, hkv, rfl⟩ := List.mem_map.mp hk
      rw [hlookup kv hkv]
      exact iff_of_true rfl hk
    · rw [hnone k hk]
      exact iff_of_false (by simp) hk
  · -- set or added, the header has been written
    have hbuilt : (k, v) ∈ r.builtHeaders ord := by
      rcases hv with hv | hv
      · exact List.mem_append_left _ (ord.mem_order.mpr hv)
      · exact List.mem_append_right _ hv
    exact ⟨_, hlookup (k, v) hbuilt,
      withoutIndent_storedValue (hplain.colonFree.builtHeaders ord (k, v) hbuilt)⟩

/-- **The round trip** of any response whose reason and headers are single lines. -/
theorem parseBackendResponse_build (ord : HeaderOrder) (r : HttpResponse)
    (hlo : -2 ^ 31 ≤ r.statusCode) (hhi : r.statusCode < 2 ^ 31) (hreason : IsLine r.statusText)
    (hheaders : ∀ k v, r.headers.lookup k = some v → IsLine k ∧ (58 : UInt8) ∉ k ∧ IsLine v) :
    ReadBackFrom r (parseBackendResponse (r.build ord)) := by
  refine readBack_plain ord ⟨⟨?_, fun k v hv => ?_⟩, fun k hk => ?_⟩ hlo hhi
  · exact not_infix_of_not_mem hreason.1
  · obtain ⟨hk, -, hval⟩ := hheaders k v hv
    exact ⟨not_infix_of_not_mem hk.1, not_infix_of_not_mem hval.1⟩
  · obtain ⟨v, hv⟩ := Option.isSome_iff_exists.mp (AList.lookup_isSome.mpr hk)
    exact (hheaders k v hv).2.1

/-- A negative status, no reason, a value of blanks and a body with a blank line. -/
theorem parseBackendResponse_build_odd :
    ReadBackFrom
      (setHeader (bytes "X-A") (bytes " :")
        ({ statusCode := -7, statusText := [], body := blankLine } : HttpResponse))
      (parseBackendResponse ((setHeader (bytes "X-A") (bytes " :")
        ({ statusCode := -7, statusText := [], body := blankLine } : HttpResponse)).build
          UnorderedMap.IterOrder.listed)) := by
  refine parseBackendResponse_build _ _ (by decide) (by decide) (by decide) fun k v hv => ?_
  rw [setHeader_headers, UnorderedMap.lookup_set] at hv
  split at hv
  · next hk =>
    obtain rfl := Option.some.inj hv
    rw [hk]
    decide
  · cases hv

end ProxyHandler

end VeloxServe
