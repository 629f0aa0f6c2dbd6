import VeloxServe.Http.HttpResponse

/-! # Response Framing

    A response is framed by its content length when its header block has one
    Content-Length field, with the length of the content as its value, and no
    Transfer-Encoding field. `build` looks for the name with one particular
    capitalisation, so other spellings in the header map count against it.
-/

namespace VeloxServe

open StdString Message

/-- **The recipient can tell where the message ends**: one Content-Length field,
    with the right value, and no Transfer-Encoding. -/
structure Framed (m : Bytes) : Prop where
  length : ∃ line, fields (bytes "content-length") m = [line] ∧
    fieldValue line = decimal (content m).length
  noTransferEncoding : fields (bytes "transfer-encoding") m = []

namespace HttpResponse

/-- No header name with a colon in it. -/
def ColonFree (r : HttpResponse) : Prop := ∀ k ∈ r.headers, (58 : UInt8) ∉ k

/-- What the header map must be like for the response to be framed. -/
structure LengthFits (r : HttpResponse) : Prop where
  spelling : ∀ k ∈ r.headers, toLower k = bytes "content-length" → k = bytes "Content-Length"
  value : ∀ v, r.headers.lookup (bytes "Content-Length") = some v →
    strip (fun b => b == 32 || b == 9) v = decimal r.body.length
  noTransferEncoding : ∀ k ∈ r.headers, toLower k ≠ bytes "transfer-encoding"

/-- A header name that has to do with framing. -/
def IsFramingName (k : Bytes) : Prop :=
  toLower k = bytes "content-length" ∨ toLower k = bytes "transfer-encoding"

instance (k : Bytes) : Decidable (IsFramingName k) := inferInstanceAs (Decidable (_ ∨ _))

/-- No header that has to do with framing. -/
def Unframed (r : HttpResponse) : Prop := ∀ k ∈ r.headers, ¬ IsFramingName k

/-- A response whose header lines can be told apart. -/
structure Plain (r : HttpResponse) : Prop where
  clean : r.Clean
  colonFree : r.ColonFree

/-! ## Fields of a Built Response -/

theorem fieldLine_eq (kv : Bytes × Bytes) : fieldLine kv = kv.1 ++ 58 :: 32 :: kv.2 := by
  have hsep : bytes ": " = [58, 32] := by decide
  simp [fieldLine, hsep]

theorem ne_colon {k : Bytes} (h : (58 : UInt8) ∉ k) : ∀ b ∈ k, decide (b ≠ 58) = true := by
  intro b hb
  have hne : b ≠ 58 := fun heq => h (heq ▸ hb)
  simpa using hne

theorem isField_fieldLine {kv : Bytes × Bytes} (h : (58 : UInt8) ∉ kv.1) (name : Bytes) :
    isField name (fieldLine kv) = decide (toLower kv.1 = name) := by
  have htake : fieldName (fieldLine kv) = kv.1 := by
    rw [fieldName, fieldLine_eq, List.takeWhile_append_of_pos (ne_colon h)]
    simp
  have hcontains : (fieldLine kv).contains 58 = true := by
    rw [fieldLine_eq]
    simp
  unfold isField
  rw [htake, hcontains, Bool.true_and]
  exact beq_eq_decide _ _

theorem fieldValue_fieldLine {kv : Bytes × Bytes} (h : (58 : UInt8) ∉ kv.1) :
    fieldValue (fieldLine kv) = strip (fun b => b == 32 || b == 9) kv.2 := by
  have hdrop : (fieldLine kv).dropWhile (· ≠ 58) = 58 :: 32 :: kv.2 := by
    rw [fieldLine_eq, List.dropWhile_append_of_pos (ne_colon h)]
    simp
  unfold fieldValue
  rw [hdrop, List.tail_cons, strip_cons (by decide)]

theorem mem_addedHeaders {r : HttpResponse} {kv : Bytes × Bytes} (h : kv ∈ r.addedHeaders) :
    kv = (bytes "Content-Length", decimal r.body.length) ∧ bytes "Content-Length" ∉ r.headers ∨
      kv = (bytes "Server", bytes "VeloxServe/1.0") ∨ kv = (bytes "Connection", bytes "close") := by
  simp only [addedHeaders, List.mem_append, List.mem_ite_nil_left, List.mem_singleton] at h
  rcases h with (⟨hno, rfl⟩ | ⟨-, rfl⟩) | ⟨-, rfl⟩
  · exact .inl ⟨rfl, hno⟩
  · exact .inr (.inl rfl)
  · exact .inr (.inr rfl)

theorem ColonFree.builtHeaders {r : HttpResponse} (h : r.ColonFree) (ord : HeaderOrder) :
    ∀ kv ∈ r.builtHeaders ord, (58 : UInt8) ∉ kv.1 := by
  intro kv hkv
  rcases List.mem_append.mp hkv with hset | hadded
  · exact h kv.1 (AList.lookup_isSome.mp (ord.mem_order.mp hset ▸ rfl))
  · rcases mem_addedHeaders hadded with ⟨rfl, -⟩ | rfl | rfl
    · exact (by decide : (58 : UInt8) ∉ bytes "Content-Length")
    · decide
    · decide

/-- The fields of a clean response are those of its headers. -/
theorem Clean.fields_build {r : HttpResponse} (h : r.Clean) (hcolon : r.ColonFree)
    (ord : HeaderOrder) (name : Bytes) :
    fields name (r.build ord) =
      ((r.builtHeaders ord).filter fun kv => toLower kv.1 = name).map fieldLine := by
  unfold fields
  rw [(h.read_build ord).1, List.filter_map]
  congr 1
  apply List.filter_congr
  intro kv hkv
  exact isField_fieldLine (hcolon.builtHeaders ord kv hkv) name

/-! ## When a Response is Framed -/

/-- The Content-Length value that is written. -/
def announced (r : HttpResponse) : Bytes :=
  r.getHeader (bytes "Content-Length") (decimal r.body.length)

theorem mem_builtHeaders_length (ord : HeaderOrder) (r : HttpResponse) :
    (bytes "Content-Length", r.announced) ∈ r.builtHeaders ord := by
  unfold announced getHeader
  cases hlook : r.headers.lookup (bytes "Content-Length") with
  | none =>
    have hno : bytes "Content-Length" ∉ r.headers := by
      rw [← AList.lookup_isSome, hlook]
      simp
    apply List.mem_append_right
    simp [addedHeaders, hno]
  | some v => exact List.mem_append_left _ (ord.mem_order.mpr hlook)

theorem strip_decimal (n : Nat) : strip (fun b => b == 32 || b == 9) (decimal n) = decimal n := by
  have hdigit : ∀ b, isDigit b = true → (b == 32 || b == 9) = false := by decide +kernel
  apply Stripped.strip_eq
  constructor
  · intro b hb
    exact hdigit b (isDigit_of_mem_decimal (List.mem_of_mem_head? hb))
  · intro b hb
    exact hdigit b (isDigit_of_mem_decimal (List.mem_of_getLast? hb))

theorem mem_filter_built (ord : HeaderOrder) {r : HttpResponse} {name k v : Bytes}
    (hlook : r.headers.lookup k = some v) (hname : toLower k = name) :
    (k, v) ∈ (r.builtHeaders ord).filter fun kv => toLower kv.1 = name :=
  List.mem_filter.mpr
    ⟨List.mem_append_left _ (ord.mem_order.mpr hlook), by simpa using hname⟩

/-- All names that differ from `k` in capitals only are spelt like it. -/
def SpeltAs (k : Bytes) (r : HttpResponse) : Prop :=
  ∀ k' ∈ r.headers, toLower k' = toLower k → k' = k

/-- The names of the headers that `build` sees to. -/
def addedNames : List Bytes := [bytes "Content-Length", bytes "Server", bytes "Connection"]

/-- **A header that `build` sees to is written once exactly when the header map has no
    other spelling of its name.** -/
theorem filter_built_iff (ord : HeaderOrder) {r : HttpResponse} {k v : Bytes}
    (hk : k ∈ addedNames) (hmem : (k, v) ∈ r.builtHeaders ord) (kv : Bytes × Bytes) :
    ((r.builtHeaders ord).filter fun kv => toLower kv.1 = toLower k) = [kv] ↔
      r.SpeltAs k ∧ kv = (k, v) := by
  have hin : (k, v) ∈ (r.builtHeaders ord).filter fun kv => toLower kv.1 = toLower k :=
    List.mem_filter.mpr ⟨hmem, by simp⟩
  have hadded : ∀ k ∈ addedNames, ∀ k' ∈ addedNames, toLower k' = toLower k → k' = k := by decide
  constructor
  · intro hone
    rw [hone] at hin
    obtain rfl := List.mem_singleton.mp hin
    refine ⟨fun k' hk' hname => ?_, rfl⟩
    obtain ⟨v', hlook⟩ := Option.isSome_iff_exists.mp (AList.lookup_isSome.mpr hk')
    have hin' := mem_filter_built ord hlook hname
    rw [hone] at hin'
    exact congrArg Prod.fst (List.mem_singleton.mp hin')
  · rintro ⟨hspelt, rfl⟩
    -- all that is left has one name, and no name is written twice
    have hnames : ∀ kv ∈ (r.builtHeaders ord).filter fun kv => toLower kv.1 = toLower k,
        kv.1 = k := by
      intro kv hkv
      obtain ⟨hbuilt, hname⟩ := List.mem_filter.mp hkv
      replace hname : toLower kv.1 = toLower k := by simpa using hname
      rcases List.mem_append.mp hbuilt with hset | hown
      · exact hspelt kv.1 (AList.lookup_isSome.mp (ord.mem_order.mp hset ▸ rfl)) hname
      · refine hadded k hk kv.1 ?_ hname
        rcases mem_addedHeaders hown with ⟨rfl, -⟩ | rfl | rfl <;> simp [addedNames]
    have hnodup : (((r.builtHeaders ord).filter fun kv => toLower kv.1 = toLower k).map
        Prod.fst).Nodup :=
      (builtHeaders_nodup ord r).sublist (List.filter_sublist.map Prod.fst)
    generalize ((r.builtHeaders ord).filter fun kv => toLower kv.1 = toLower k) = l
      at hin hnames hnodup
    rcases l with _ | ⟨x, _ | ⟨y, l⟩⟩
    · cases hin
    · rw [List.mem_singleton.mp hin]
    · have heq : x.1 = y.1 := (hnames x (by simp)).trans (hnames y (by simp)).symm
      simp [heq] at hnodup

/-- The same as it is read. -/
theorem Plain.fields_build_iff {r : HttpResponse} (hplain : r.Plain) (ord : HeaderOrder)
    {k v : Bytes} (hk : k ∈ addedNames) (hmem : (k, v) ∈ r.builtHeaders ord) (line : Bytes) :
    fields (toLower k) (r.build ord) = [line] ↔ r.SpeltAs k ∧ line = fieldLine (k, v) := by
  rw [hplain.clean.fields_build hplain.colonFree, List.map_eq_singleton_iff]
  constructor
  · rintro ⟨kv, hone, rfl⟩
    obtain ⟨hspelt, rfl⟩ := (filter_built_iff ord hk hmem kv).mp hone
    exact ⟨hspelt, rfl⟩
  · rintro ⟨hspelt, rfl⟩
    exact ⟨(k, v), (filter_built_iff ord hk hmem _).mpr ⟨hspelt, rfl⟩, rfl⟩

/-- **A plain response is framed exactly when its header map fits its body.** -/
theorem Plain.framed_build_iff {r : HttpResponse} (hplain : r.Plain) (ord : HeaderOrder) :
    Framed (r.build ord) ↔ r.LengthFits := by
  have hlower : toLower (bytes "Content-Length") = bytes "content-length" := by decide
  have hname : (58 : UInt8) ∉ bytes "Content-Length" := by decide
  have hvalue : fieldValue (fieldLine (bytes "Content-Length", r.announced)) =
      strip (fun b => b == 32 || b == 9) r.announced := fieldValue_fieldLine hname
  have hone := hplain.fields_build_iff ord (by simp [addedNames]) (mem_builtHeaders_length ord r)
  unfold SpeltAs at hone
  rw [hlower] at hone
  constructor
  · rintro ⟨⟨line, hline, hlength⟩, hte⟩
    obtain ⟨hspelling, rfl⟩ := (hone line).mp hline
    rw [hvalue, (hplain.clean.read_build ord).2] at hlength
    rw [hplain.clean.fields_build hplain.colonFree, List.map_eq_nil_iff] at hte
    refine ⟨hspelling, ?_, ?_⟩
    · intro v hlook
      have hannounced : r.announced = v := by
        unfold announced getHeader
        rw [hlook]
        rfl
      rw [← hannounced]
      exact hlength
    · intro k hk hcoding
      obtain ⟨v, hlook⟩ := Option.isSome_iff_exists.mp (AList.lookup_isSome.mpr hk)
      have hin := mem_filter_built ord hlook hcoding
      rw [hte] at hin
      cases hin
  · intro hfits
    have hright : strip (fun b => b == 32 || b == 9) r.announced = decimal r.body.length := by
      unfold announced getHeader
      cases hlook : r.headers.lookup (bytes "Content-Length") with
      | none => exact strip_decimal _
      | some v => exact hfits.value v hlook
    constructor
    · refine ⟨_, (hone _).mpr ⟨hfits.spelling, rfl⟩, ?_⟩
      rw [hvalue, (hplain.clean.read_build ord).2, hright]
    · rw [hplain.clean.fields_build hplain.colonFree, List.map_eq_nil_iff, List.filter_eq_nil_iff]
      intro kv hkv
      rcases List.mem_append.mp hkv with hset | hadded
      · have hte := hfits.noTransferEncoding kv.1
          (AList.lookup_isSome.mp (ord.mem_order.mp hset ▸ rfl))
        simpa using hte
      · rcases mem_addedHeaders hadded with ⟨rfl, -⟩ | rfl | rfl
        · exact (by decide : ¬ decide (toLower (bytes "Content-Length") =
            bytes "transfer-encoding") = true)
        · decide
        · decide

/-! ## Changing a Response -/

theorem Plain.fresh {code : Int} {reason body : Bytes} (h : ¬ crlf <:+: reason) :
    ({ statusCode := code, statusText := reason, body := body } : HttpResponse).Plain where
  clean := Clean.fresh h
  colonFree := by
    intro k hk
    cases hk

theorem Plain.setHeader {r : HttpResponse} (h : r.Plain) {key value : Bytes}
    (hkey : ¬ crlf <:+: key ∧ (58 : UInt8) ∉ key) (hvalue : ¬ crlf <:+: value) :
    (r.setHeader key value).Plain where
  clean := h.clean.setHeader hkey.1 hvalue
  colonFree := by
    intro k hk
    rcases UnorderedMap.mem_set.mp hk with rfl | hk
    · exact hkey.2
    · exact h.colonFree k hk

theorem Plain.setBody {r : HttpResponse} (h : r.Plain) (body : Bytes) : (r.setBody body).Plain :=
  ⟨h.clean.setBody body, h.colonFree⟩

theorem Unframed.fresh (code : Int) (reason body : Bytes) :
    ({ statusCode := code, statusText := reason, body := body } : HttpResponse).Unframed := by
  intro k hk
  cases hk

theorem Unframed.setHeader {r : HttpResponse} (h : r.Unframed) {key : Bytes}
    (hkey : ¬ IsFramingName key) (value : Bytes) : (r.setHeader key value).Unframed := by
  intro k hk
  rcases UnorderedMap.mem_set.mp hk with rfl | hk
  · exact hkey
  · exact h k hk

theorem Unframed.setBody {r : HttpResponse} (h : r.Unframed) (body : Bytes) :
    (r.setBody body).Unframed := h

/-- `build` adds the length where there is none. -/
theorem Unframed.lengthFits {r : HttpResponse} (h : r.Unframed) : r.LengthFits where
  spelling := fun k hk hcl => absurd (.inl hcl) (h k hk)
  value := by
    intro v hlook
    have hmem : bytes "Content-Length" ∈ r.headers := AList.lookup_isSome.mp (hlook ▸ rfl)
    exact absurd (.inl (by decide)) (h _ hmem)
  noTransferEncoding := fun k hk hte => h k hk (.inr hte)

/-- A length that is announced in the spelling of `build`, and right. -/
theorem Unframed.lengthFits_announced {r : HttpResponse} (h : r.Unframed) (body : Bytes) :
    ((r.setHeader (bytes "Content-Length") (decimal body.length)).setBody body).LengthFits where
  spelling := by
    intro k hk hcl
    rcases UnorderedMap.mem_set.mp hk with rfl | hk
    · rfl
    · exact absurd (.inl hcl) (h k hk)
  value := by
    intro v hlook
    rw [setBody_headers, setHeader_headers, UnorderedMap.lookup_set_self] at hlook
    rw [← Option.some.inj hlook, strip_decimal, setBody_body]
  noTransferEncoding := by
    intro k hk hte
    rcases UnorderedMap.mem_set.mp hk with rfl | hk
    · exact absurd hte (by decide)
    · exact h k hk (.inr hte)

/-- Other headers do not matter. -/
theorem lengthFits_setHeader (r : HttpResponse) {key : Bytes} (hkey : ¬ IsFramingName key)
    (value : Bytes) : (r.setHeader key value).LengthFits ↔ r.LengthFits := by
  have hne : bytes "Content-Length" ≠ key := by
    rintro rfl
    exact hkey (.inl (by decide))
  have hlook : (r.setHeader key value).headers.lookup (bytes "Content-Length") =
      r.headers.lookup (bytes "Content-Length") := UnorderedMap.lookup_set_ne _ _ hne
  have hmem : ∀ k, IsFramingName k → (k ∈ (r.setHeader key value).headers ↔ k ∈ r.headers) := by
    intro k hk
    rw [setHeader_headers, UnorderedMap.mem_set]
    constructor
    · rintro (rfl | h)
      · exact absurd hk hkey
      · exact h
    · exact .inr
  constructor
  · intro h
    exact ⟨fun k hk hcl => h.spelling k ((hmem k (.inl hcl)).mpr hk) hcl,
      fun v hv => h.value v (hlook.trans hv),
      fun k hk hte => h.noTransferEncoding k ((hmem k (.inr hte)).mpr hk) hte⟩
  · intro h
    exact ⟨fun k hk hcl => h.spelling k ((hmem k (.inl hcl)).mp hk) hcl,
      fun v hv => h.value v (hlook.symm.trans hv),
      fun k hk hte => h.noTransferEncoding k ((hmem k (.inr hte)).mp hk) hte⟩

/-! ## The Factory Methods -/

/-- A response the server makes itself, which leaves the length to `build`. -/
structure Own (r : HttpResponse) : Prop where
  plain : r.Plain
  unframed : r.Unframed

theorem Own.fresh {code : Int} {reason body : Bytes} (h : ¬ crlf <:+: reason) :
    ({ statusCode := code, statusText := reason, body := body } : HttpResponse).Own :=
  ⟨Plain.fresh h, Unframed.fresh code reason body⟩

theorem Own.setHeader {r : HttpResponse} (h : r.Own) {key value : Bytes}
    (hkey : ¬ crlf <:+: key ∧ (58 : UInt8) ∉ key ∧ ¬ IsFramingName key)
    (hvalue : ¬ crlf <:+: value) : (r.setHeader key value).Own :=
  ⟨h.plain.setHeader ⟨hkey.1, hkey.2.1⟩ hvalue, h.unframed.setHeader hkey.2.2 value⟩

theorem Own.setBody {r : HttpResponse} (h : r.Own) (body : Bytes) : (r.setBody body).Own :=
  ⟨h.plain.setBody body, h.unframed.setBody body⟩

theorem Own.setStatus {r : HttpResponse} (h : r.Own) (code : Int) {reason : Bytes}
    (hreason : ¬ crlf <:+: reason) : (r.setStatus code reason).Own :=
  ⟨⟨⟨hreason, h.plain.clean.header⟩, h.plain.colonFree⟩, h.unframed⟩

theorem Own.framed_build {r : HttpResponse} (h : r.Own) (ord : HeaderOrder) :
    Framed (r.build ord) :=
  (h.plain.framed_build_iff ord).mpr h.unframed.lengthFits

/-- `Content-Type` can be set to anything without a CRLF. -/
theorem Own.typed {r : HttpResponse} (h : r.Own) {contentType : Bytes}
    (htype : ¬ crlf <:+: contentType) : (r.setHeader (bytes "Content-Type") contentType).Own :=
  h.setHeader (by decide) htype

theorem own_ok (body : Bytes) {contentType : Bytes} (h : ¬ crlf <:+: contentType) :
    (ok body contentType).Own := by
  have hreason : ¬ crlf <:+: bytes "OK" := by decide
  exact ((Own.fresh hreason).typed h).setBody body

theorem own_notFound (body : Bytes) : (notFound body).Own := by
  have hreason : ¬ crlf <:+: bytes "Not Found" := by decide
  have htype : ¬ crlf <:+: bytes "text/html" := by decide
  exact ((Own.fresh hreason).typed htype).setBody _

theorem own_forbidden (body : Bytes) : (forbidden body).Own := by
  have hreason : ¬ crlf <:+: bytes "Forbidden" := by decide
  have htype : ¬ crlf <:+: bytes "text/plain" := by decide
  exact ((Own.fresh hreason).typed htype).setBody _

theorem own_methodNotAllowed {allowed : Bytes} (h : ¬ crlf <:+: allowed) :
    (methodNotAllowed allowed).Own := by
  have hreason : ¬ crlf <:+: bytes "Method Not Allowed" := by decide
  have htype : ¬ crlf <:+: bytes "text/plain" := by decide
  exact (((Own.fresh hreason).typed htype).setHeader (by decide) h).setBody _

theorem own_internalError (body : Bytes) : (internalError body).Own := by
  have hreason : ¬ crlf <:+: bytes "Internal Server Error" := by decide
  have htype : ¬ crlf <:+: bytes "text/html" := by decide
  exact ((Own.fresh hreason).typed htype).setBody _

end HttpResponse

end VeloxServe
