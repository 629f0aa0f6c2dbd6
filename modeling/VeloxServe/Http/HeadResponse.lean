import VeloxServe.Http.ResponseFraming

/-! # Responses to HEAD

    What the bytes of a response to HEAD are to those of the response to GET:
    the same status line, the same header lines and nothing after them. The
    `X-Cache` line is left out of the comparison, as it tells what the cache held
    when the request came.
-/

namespace VeloxServe

open StdString Message

/-- The header lines but for `X-Cache`. -/
def comparedLines (m : Bytes) : List Bytes :=
  (headerLines m).filter fun line => !isField (bytes "x-cache") line

/-- **The second message is the first one without its content.** -/
structure HeadOf (get head : Bytes) : Prop where
  statusLine : (splitLines head).head? = (splitLines get).head?
  headerLines : (comparedLines head).Perm (comparedLines get)
  /-- Byte by byte, where the `X-Cache` lines are alike too. -/
  exact : fields (bytes "x-cache") head = fields (bytes "x-cache") get → get = head ++ content get
  noBody : content head = []

/-- A message is that of itself when it has no content. -/
theorem headOf_self_iff (m : Bytes) : HeadOf m m ↔ content m = [] := by
  constructor
  · exact fun h => h.noBody
  · intro h
    exact ⟨rfl, List.Perm.refl _, fun _ => by rw [h, List.append_nil], h⟩

/-! ## The Announced Length -/

theorem filter_comparedLines (m : Bytes) :
    (comparedLines m).filter (isField (bytes "content-length")) =
      fields (bytes "content-length") m := by
  have hdiff : bytes "content-length" ≠ bytes "x-cache" := by decide
  unfold comparedLines fields
  rw [List.filter_filter]
  apply List.filter_congr
  intro line _
  by_cases hlength : isField (bytes "content-length") line = true
  · -- a field has one name
    have hother : isField (bytes "x-cache") line = false := by
      unfold isField at hlength ⊢
      rw [Bool.and_eq_true, beq_iff_eq] at hlength
      rw [hlength.2, Bool.and_eq_false_iff]
      exact .inr (beq_false_of_ne hdiff)
    rw [hlength, hother]
    rfl
  · rw [Bool.not_eq_true] at hlength
    rw [hlength, Bool.false_and]

theorem decimal_inj {m n : Nat} (h : decimal m = decimal n) : m = n := by
  have hvalue := congrArg digitsValue h
  rw [(isNumeral_decimal m).value, (isNumeral_decimal n).value] at hvalue
  exact hvalue

/-- Two framed messages announce different lengths unless neither has content. -/
theorem HeadOf.content_eq_nil {get head : Bytes} (h : HeadOf get head) (hget : Framed get)
    (hhead : Framed head) : content get = [] := by
  obtain ⟨line, hline, hvalue⟩ := hget.length
  obtain ⟨line', hline', hvalue'⟩ := hhead.length
  have hperm := h.headerLines.filter (isField (bytes "content-length"))
  rw [filter_comparedLines, filter_comparedLines, hline, hline'] at hperm
  obtain rfl : line' = line := by simpa using hperm
  have hlength : decimal (content head).length = decimal (content get).length :=
    hvalue'.symm.trans hvalue
  rw [h.noBody] at hlength
  exact List.length_eq_zero_iff.mp (decimal_inj hlength).symm

namespace HttpResponse

/-! ## Two Responses -/

/-- The status line is read as it was written. -/
theorem head_splitLines_build (ord : HeaderOrder) {r : HttpResponse}
    (h : ¬ crlf <:+: r.statusText) : (splitLines (r.build ord)).head? = some r.statusLine := by
  rw [splitLines_build, List.flatMap_cons, splitLines_oneLine (not_infix_statusLine h)]
  rfl

theorem comparedLines_build {r : HttpResponse} (h : r.Plain) (ord : HeaderOrder) :
    comparedLines (r.build ord) =
      ((r.builtHeaders ord).filter fun kv => toLower kv.1 ≠ bytes "x-cache").map fieldLine := by
  unfold comparedLines
  rw [(h.clean.read_build ord).1, List.filter_map]
  congr 1
  apply List.filter_congr
  intro kv hkv
  have hname := isField_fieldLine (h.colonFree.builtHeaders ord kv hkv) (bytes "x-cache")
  rw [Function.comp_apply, hname, decide_not]

/-- The lines that tell about the cache. -/
theorem mem_fields_xCache {r : HttpResponse} (h : r.Plain) (hspelt : r.SpeltAs (bytes "X-Cache"))
    (ord : HeaderOrder) {line : Bytes} :
    line ∈ fields (bytes "x-cache") (r.build ord) ↔
      ∃ v, r.headers.lookup (bytes "X-Cache") = some v ∧
        fieldLine (bytes "X-Cache", v) = line := by
  have hlower : toLower (bytes "X-Cache") = bytes "x-cache" := by decide
  rw [h.clean.fields_build h.colonFree, List.mem_map]
  constructor
  · intro ⟨⟨k, v⟩, hkv, hline⟩
    obtain ⟨hbuilt, hname⟩ := List.mem_filter.mp hkv
    replace hname : toLower k = bytes "x-cache" := by simpa using hname
    rcases List.mem_append.mp hbuilt with hset | hadded
    · have hlook := ord.mem_order.mp hset
      obtain rfl := hspelt k (AList.lookup_isSome.mp (hlook ▸ rfl)) (hname.trans hlower.symm)
      exact ⟨v, hlook, hline⟩
    · rcases mem_addedHeaders hadded with ⟨heq, -⟩ | heq | heq
      all_goals
        obtain ⟨rfl, -⟩ := Prod.mk.inj heq
        exact absurd hname (by decide)
  · intro ⟨v, hlook, hline⟩
    exact ⟨_, mem_filter_built ord hlook hlower, hline⟩

theorem fieldLine_inj {k v v' : Bytes} (h : fieldLine (k, v) = fieldLine (k, v')) : v = v' :=
  List.append_cancel_left h

/-- `build` adds the same headers where the same ones are set and the lengths are alike. -/
theorem addedHeaders_congr {a b : HttpResponse}
    (hset : ∀ k ∈ addedNames, b.headers.lookup k = a.headers.lookup k)
    (hlength : b.announced = a.announced) : b.addedHeaders = a.addedHeaders := by
  have hmem : ∀ k ∈ addedNames, (k ∈ b.headers ↔ k ∈ a.headers) := by
    intro k hk
    rw [← AList.lookup_isSome, ← AList.lookup_isSome, hset k hk]
  have hcl := hmem (bytes "Content-Length") (by simp [addedNames])
  have hserver := hmem (bytes "Server") (by simp [addedNames])
  have hconn := hmem (bytes "Connection") (by simp [addedNames])
  have hdecimal : bytes "Content-Length" ∉ a.headers →
      decimal b.body.length = decimal a.body.length := by
    intro hno
    have hnone : a.headers.lookup (bytes "Content-Length") = none := AList.lookup_eq_none.mpr hno
    have hnone' : b.headers.lookup (bytes "Content-Length") = none := by
      rw [hset _ (by simp [addedNames]), hnone]
    unfold announced getHeader at hlength
    rw [hnone, hnone'] at hlength
    exact hlength
  unfold addedHeaders
  simp only [hcl, hserver, hconn]
  by_cases hno : bytes "Content-Length" ∈ a.headers
  · rw [if_pos hno, if_pos hno]
  · rw [if_neg hno, if_neg hno, hdecimal hno]

/-- Without the cache's line, the headers of two maps that agree are the same. -/
theorem filter_order_perm (ord : HeaderOrder) {m m' : HeaderMap}
    (h : ∀ k, toLower k ≠ bytes "x-cache" → m'.lookup k = m.lookup k) :
    ((ord.order m').filter fun kv => toLower kv.1 ≠ bytes "x-cache").Perm
      ((ord.order m).filter fun kv => toLower kv.1 ≠ bytes "x-cache") := by
  rw [List.perm_ext_iff_of_nodup ((ord.order_nodup m').of_map.filter _)
    ((ord.order_nodup m).of_map.filter _)]
  intro ⟨k, v⟩
  rw [List.mem_filter, List.mem_filter, ord.mem_order, ord.mem_order]
  constructor
  · intro ⟨hlook, hname⟩
    exact ⟨(h k (by simpa using hname)).symm.trans hlook, hname⟩
  · intro ⟨hlook, hname⟩
    exact ⟨(h k (by simpa using hname)).trans hlook, hname⟩

/-- The response to HEAD: the header map of the one to GET but for the cache's line, the
    same length announced, and no body. -/
structure HeadersOf (a b : HttpResponse) : Prop where
  statusLine : b.statusLine = a.statusLine
  lookup : ∀ k, toLower k ≠ bytes "x-cache" → b.headers.lookup k = a.headers.lookup k
  announced : b.announced = a.announced
  exact : b.headers.lookup (bytes "X-Cache") = a.headers.lookup (bytes "X-Cache") →
    b.headers = a.headers
  body : b.body = []

/-- **Such a response is the other one without its body on the wire as well.** -/
theorem HeadersOf.headOf_build {a b : HttpResponse} (h : HeadersOf a b) (ha : a.Plain)
    (hb : b.Plain) (hspelt : a.SpeltAs (bytes "X-Cache")) (hspelt' : b.SpeltAs (bytes "X-Cache"))
    (ord : HeaderOrder) : HeadOf (a.build ord) (b.build ord) := by
  have hadded : b.addedHeaders = a.addedHeaders := by
    refine addedHeaders_congr (fun k hk => h.lookup k ?_) h.announced
    revert k
    decide
  obtain ⟨-, hcontent⟩ := ha.clean.read_build ord
  obtain ⟨-, hcontent'⟩ := hb.clean.read_build ord
  constructor
  · rw [head_splitLines_build ord ha.clean.statusText, head_splitLines_build ord hb.clean.statusText,
      h.statusLine]
  · rw [comparedLines_build ha, comparedLines_build hb]
    unfold builtHeaders
    rw [hadded, List.filter_append, List.filter_append]
    exact ((filter_order_perm ord h.lookup).append_right _).map fieldLine
  · intro hfields
    -- the same `X-Cache` line in both messages makes the header maps equal
    have hlook : b.headers.lookup (bytes "X-Cache") = a.headers.lookup (bytes "X-Cache") := by
      have hiff : ∀ v, b.headers.lookup (bytes "X-Cache") = some v ↔
          a.headers.lookup (bytes "X-Cache") = some v := by
        intro v
        constructor
        · intro hv
          have hline := (mem_fields_xCache hb hspelt' ord).mpr ⟨v, hv, rfl⟩
          rw [hfields] at hline
          obtain ⟨v', hv', heq⟩ := (mem_fields_xCache ha hspelt ord).mp hline
          exact fieldLine_inj heq ▸ hv'
        · intro hv
          have hline := (mem_fields_xCache ha hspelt ord).mpr ⟨v, hv, rfl⟩
          rw [← hfields] at hline
          obtain ⟨v', hv', heq⟩ := (mem_fields_xCache hb hspelt' ord).mp hline
          exact fieldLine_inj heq ▸ hv'
      exact Option.ext hiff
    have hbuilt : b.builtHeaders ord = a.builtHeaders ord := by
      unfold builtHeaders
      rw [hadded, h.exact hlook]
    rw [hcontent, build_eq, build_eq, hbuilt, h.statusLine, h.body, List.append_nil]
  · rw [hcontent', h.body]

/-! ## Changing Both -/

@[simp] theorem setBody_statusLine (body : Bytes) (r : HttpResponse) :
    (r.setBody body).statusLine = r.statusLine := rfl

@[simp] theorem setHeader_statusLine (key value : Bytes) (r : HttpResponse) :
    (r.setHeader key value).statusLine = r.statusLine := rfl

theorem spelt_setBody {r : HttpResponse} {k : Bytes} (h : r.SpeltAs k) (body : Bytes) :
    (r.setBody body).SpeltAs k := h

theorem spelt_setHeader {r : HttpResponse} {k key : Bytes} (h : r.SpeltAs k)
    (hkey : toLower key = toLower k → key = k) (value : Bytes) : (r.setHeader key value).SpeltAs k := by
  intro k' hk' hname
  rcases UnorderedMap.mem_set.mp hk' with rfl | hk'
  · exact hkey hname
  · exact h k' hk' hname

/-- A header of another name may be set in both. -/
theorem HeadersOf.setHeader {a b : HttpResponse} (h : HeadersOf a b) {key : Bytes}
    (hkey : toLower key ≠ bytes "x-cache" ∧ key ≠ bytes "Content-Length") (value : Bytes) :
    HeadersOf (a.setHeader key value) (b.setHeader key value) := by
  have hlength : bytes "Content-Length" ≠ key := Ne.symm hkey.2
  have hx : bytes "X-Cache" ≠ key := by
    rintro rfl
    exact hkey.1 (by decide)
  have hannounced : ∀ r : HttpResponse, (r.setHeader key value).announced = r.announced := by
    intro r
    unfold HttpResponse.announced getHeader
    rw [setHeader_headers, UnorderedMap.lookup_set_ne _ _ hlength, setHeader_body]
  constructor
  · exact h.statusLine
  · intro k hk
    rw [setHeader_headers, setHeader_headers, UnorderedMap.lookup_set, UnorderedMap.lookup_set,
      h.lookup k hk]
  · rw [hannounced, hannounced, h.announced]
  · intro hlook
    rw [setHeader_headers, setHeader_headers, UnorderedMap.lookup_set_ne _ _ hx,
      UnorderedMap.lookup_set_ne _ _ hx] at hlook
    rw [setHeader_headers, setHeader_headers, h.exact hlook]
  · exact h.body

/-- Responses with different status lines are told apart. -/
theorem not_headOf_of_statusLine (ord : HeaderOrder) {a b : HttpResponse}
    (ha : ¬ crlf <:+: a.statusText) (hb : ¬ crlf <:+: b.statusText)
    (hne : b.statusLine ≠ a.statusLine) : ¬ HeadOf (a.build ord) (b.build ord) := by
  intro h
  have hline := h.statusLine
  rw [head_splitLines_build ord ha, head_splitLines_build ord hb] at hline
  exact hne (Option.some.inj hline)

end HttpResponse

end VeloxServe
