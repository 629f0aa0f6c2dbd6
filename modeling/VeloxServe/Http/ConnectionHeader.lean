import VeloxServe.Http.ResponseFraming

/-! # The Connection Header

    A response tells what becomes of the connection after it: in one `Connection`
    line, with the option `keep-alive` or without it. `build` adds the line where
    the spelling `Connection` is not set, so another spelling in the header map
    makes two lines of it.
-/

namespace VeloxServe

open StdString Message

/-- The options of a `Connection` header. -/
def connectionOptions (value : Bytes) : List Bytes :=
  (value.splitOn 44).map fun option => toLower (strip (fun b => b == 32 || b == 9) option)

/-- Whether a `Connection` header announces that the connection stays open. -/
def announcesKeepAlive (value : Bytes) : Bool :=
  decide (bytes "keep-alive" ∈ connectionOptions value)

/-- **The response tells whether the connection is kept**, and tells it once. -/
def TellsPersistence (m : Bytes) (keepOpen : Bool) : Prop :=
  ∃ line, fields (bytes "connection") m = [line] ∧
    announcesKeepAlive (fieldValue line) = keepOpen

namespace HttpResponse

/-- What the header map must be like before `Connection` is set for a connection that is kept. -/
structure ConnectionFits (keepAlive : Bool) (r : HttpResponse) : Prop where
  spelling : r.SpeltAs (bytes "Connection")
  value : keepAlive = false → ∀ v, r.headers.lookup (bytes "Connection") = some v →
    announcesKeepAlive (strip (fun b => b == 32 || b == 9) v) = false

/-- No header of that name, which is given in lower case. -/
def Lacks (name : Bytes) (r : HttpResponse) : Prop := ∀ k ∈ r.headers, toLower k ≠ name

/-! ## Built Responses -/

/-- The Connection value that is written. -/
def connectionValue (r : HttpResponse) : Bytes := r.getHeader (bytes "Connection") (bytes "close")

theorem mem_builtHeaders_connection (ord : HeaderOrder) (r : HttpResponse) :
    (bytes "Connection", r.connectionValue) ∈ r.builtHeaders ord := by
  unfold connectionValue getHeader
  cases hlook : r.headers.lookup (bytes "Connection") with
  | none =>
    have hno : bytes "Connection" ∉ r.headers := by
      rw [← AList.lookup_isSome, hlook]
      simp
    apply List.mem_append_right
    simp [addedHeaders, hno]
  | some v => exact List.mem_append_left _ (ord.mem_order.mpr hlook)

/-- The header lines of a built response tell what the one value says, if there is one. -/
theorem filter_built_connection (ord : HeaderOrder) (r : HttpResponse) (kv : Bytes × Bytes) :
    ((r.builtHeaders ord).filter fun kv => toLower kv.1 = bytes "connection") = [kv] ↔
      r.SpeltAs (bytes "Connection") ∧ kv = (bytes "Connection", r.connectionValue) := by
  have hlower : toLower (bytes "Connection") = bytes "connection" := by decide
  rw [← hlower]
  exact filter_built_iff ord (by simp [addedNames]) (mem_builtHeaders_connection ord r) kv

theorem fieldValue_connection (v : Bytes) :
    fieldValue (fieldLine (bytes "Connection", v)) = strip (fun b => b == 32 || b == 9) v := by
  have hname : (58 : UInt8) ∉ bytes "Connection" := by decide
  exact fieldValue_fieldLine hname

theorem Plain.tellsPersistence_build_iff {r : HttpResponse} (hplain : r.Plain) (ord : HeaderOrder)
    (keepOpen : Bool) :
    TellsPersistence (r.build ord) keepOpen ↔
      r.SpeltAs (bytes "Connection") ∧
        announcesKeepAlive (strip (fun b => b == 32 || b == 9) r.connectionValue) = keepOpen := by
  have hlower : toLower (bytes "Connection") = bytes "connection" := by decide
  have hone := hplain.fields_build_iff ord (by simp [addedNames]) (mem_builtHeaders_connection ord r)
  rw [hlower] at hone
  unfold TellsPersistence
  -- the one line is the one `build` writes for the spelling `Connection`
  constructor
  · rintro ⟨line, hline, hvalue⟩
    obtain ⟨hspelt, rfl⟩ := (hone line).mp hline
    rw [fieldValue_connection] at hvalue
    exact ⟨hspelt, hvalue⟩
  · rintro ⟨hspelt, hvalue⟩
    exact ⟨_, (hone _).mpr ⟨hspelt, rfl⟩, by rw [fieldValue_connection]; exact hvalue⟩

theorem speltAs_setHeader_self (r : HttpResponse) (k v : Bytes) :
    (r.setHeader k v).SpeltAs k ↔ r.SpeltAs k := by
  constructor
  · intro h k' hk'
    exact h k' (UnorderedMap.mem_set.mpr (.inr hk'))
  · intro h k' hk' hname
    rcases UnorderedMap.mem_set.mp hk' with heq | hk'
    · exact heq
    · exact h k' hk' hname

/-- What the last step of `process_request` before `build` does to the header. -/
theorem connectionFits_iff {r sent : HttpResponse} {keepAlive : Bool}
    (hsent : sent = if keepAlive then r.setHeader (bytes "Connection") (bytes "keep-alive") else r) :
    sent.SpeltAs (bytes "Connection") ∧
        announcesKeepAlive (strip (fun b => b == 32 || b == 9) sent.connectionValue) = keepAlive ↔
      r.ConnectionFits keepAlive := by
  rw [hsent]
  cases keepAlive with
  -- `keep-alive` overwrites what is set under this spelling
  | true =>
    have hset : (r.setHeader (bytes "Connection") (bytes "keep-alive")).connectionValue =
        bytes "keep-alive" := by
      unfold connectionValue getHeader
      rw [setHeader_headers, UnorderedMap.lookup_set_self]
      rfl
    have hannounces : announcesKeepAlive
        (strip (fun b => b == 32 || b == 9) (bytes "keep-alive")) = true := by decide +kernel
    show (r.setHeader (bytes "Connection") (bytes "keep-alive")).SpeltAs _ ∧ announcesKeepAlive
      (strip _ (r.setHeader (bytes "Connection") (bytes "keep-alive")).connectionValue) = true ↔ _
    rw [hset, speltAs_setHeader_self]
    constructor
    · rintro ⟨hspelt, -⟩
      exact ⟨hspelt, fun hclose => by cases hclose⟩
    · exact fun h => ⟨h.spelling, hannounces⟩
  -- what is set is kept, and `close` added where nothing is
  | false =>
    have hclose : announcesKeepAlive
        (strip (fun b => b == 32 || b == 9) (bytes "close")) = false := by decide +kernel
    show r.SpeltAs _ ∧ announcesKeepAlive (strip _ r.connectionValue) = false ↔ _
    constructor
    · rintro ⟨hspelt, hvalue⟩
      refine ⟨hspelt, fun _ v hlook => ?_⟩
      unfold connectionValue getHeader at hvalue
      rw [hlook] at hvalue
      exact hvalue
    · intro h
      refine ⟨h.spelling, ?_⟩
      unfold connectionValue getHeader
      cases hlook : r.headers.lookup (bytes "Connection") with
      | none => exact hclose
      | some v => exact h.value rfl v hlook

/-- **A response tells what becomes of the connection exactly when its header map fits.** -/
theorem tellsPersistence_iff {r sent : HttpResponse} {keepAlive : Bool}
    (hsent : sent = if keepAlive then r.setHeader (bytes "Connection") (bytes "keep-alive") else r)
    (hplain : sent.Plain) (ord : HeaderOrder) :
    TellsPersistence (sent.build ord) keepAlive ↔ r.ConnectionFits keepAlive := by
  rw [hplain.tellsPersistence_build_iff, connectionFits_iff hsent]

/-! ## Changing a Response -/

/-- Other headers do not matter. -/
theorem connectionFits_setHeader (keepAlive : Bool) (r : HttpResponse) {key : Bytes}
    (hkey : toLower key ≠ bytes "connection") (value : Bytes) :
    (r.setHeader key value).ConnectionFits keepAlive ↔ r.ConnectionFits keepAlive := by
  have hlower : toLower (bytes "Connection") = bytes "connection" := by decide
  have hne : bytes "Connection" ≠ key := by
    rintro rfl
    exact hkey hlower
  have hlook : (r.setHeader key value).headers.lookup (bytes "Connection") =
      r.headers.lookup (bytes "Connection") := UnorderedMap.lookup_set_ne _ _ hne
  have hspelt : (r.setHeader key value).SpeltAs (bytes "Connection") ↔
      r.SpeltAs (bytes "Connection") := by
    constructor
    · intro h k hk
      exact h k (UnorderedMap.mem_set.mpr (.inr hk))
    · intro h k hk hname
      rcases UnorderedMap.mem_set.mp hk with rfl | hk
      · rw [hlower] at hname
        exact absurd hname hkey
      · exact h k hk hname
  constructor
  · exact fun h => ⟨hspelt.mp h.spelling, fun hclose v hv => h.value hclose v (hlook.trans hv)⟩
  · exact fun h => ⟨hspelt.mpr h.spelling, fun hclose v hv => h.value hclose v (hlook.symm.trans hv)⟩

theorem Lacks.fresh (name : Bytes) (code : Int) (reason body : Bytes) :
    ({ statusCode := code, statusText := reason, body := body } : HttpResponse).Lacks name := by
  intro k hk
  cases hk

theorem Lacks.setHeader {name : Bytes} {r : HttpResponse} (h : r.Lacks name) {key : Bytes}
    (hkey : toLower key ≠ name) (value : Bytes) : (r.setHeader key value).Lacks name := by
  intro k hk
  rcases UnorderedMap.mem_set.mp hk with rfl | hk
  · exact hkey
  · exact h k hk

theorem Lacks.setBody {name : Bytes} {r : HttpResponse} (h : r.Lacks name) (body : Bytes) :
    (r.setBody body).Lacks name := h

/-- `build` adds the line where there is none. -/
theorem Lacks.connectionFits {r : HttpResponse} (h : r.Lacks (bytes "connection"))
    (keepAlive : Bool) : r.ConnectionFits keepAlive where
  spelling := by
    have hlower : toLower (bytes "Connection") = bytes "connection" := by decide
    intro k hk hname
    exact absurd (hname.trans hlower) (h k hk)
  value := by
    have hlower : toLower (bytes "Connection") = bytes "connection" := by decide
    intro _ v hlook
    exact absurd hlower (h _ (AList.lookup_isSome.mp (hlook ▸ rfl)))

/-- A response with one header called `Content-Type`. -/
theorem lacks_typed (code : Int) (reason contentType body : Bytes) :
    ((({ statusCode := code, statusText := reason } : HttpResponse).setHeader
      (bytes "Content-Type") contentType).setBody body).Lacks (bytes "connection") := by
  have hname : toLower (bytes "Content-Type") ≠ bytes "connection" := by decide
  exact ((Lacks.fresh _ code reason _).setHeader hname contentType).setBody body

theorem lacks_ok (body contentType : Bytes) : (ok body contentType).Lacks (bytes "connection") :=
  lacks_typed _ _ _ _

theorem lacks_notFound (body : Bytes) : (notFound body).Lacks (bytes "connection") :=
  lacks_typed _ _ _ _

theorem lacks_badRequest (body : Bytes) : (badRequest body).Lacks (bytes "connection") :=
  lacks_typed _ _ _ _

theorem lacks_forbidden (body : Bytes) : (forbidden body).Lacks (bytes "connection") :=
  lacks_typed _ _ _ _

theorem lacks_internalError (body : Bytes) : (internalError body).Lacks (bytes "connection") :=
  lacks_typed _ _ _ _

theorem lacks_methodNotAllowed (allowed : Bytes) :
    (methodNotAllowed allowed).Lacks (bytes "connection") := by
  have hname : toLower (bytes "Allow") ≠ bytes "connection" := by decide
  have htyped := lacks_typed 405 (bytes "Method Not Allowed") (bytes "text/plain") []
  exact (htyped.setHeader hname allowed).setBody _

end HttpResponse

end VeloxServe
