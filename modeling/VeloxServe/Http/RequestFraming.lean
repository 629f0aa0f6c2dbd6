import VeloxServe.Http.HttpParser

/-! # Request Framing

    What a fresh parser decides about a buffer depends on a prefix of it: the
    header section up to the first blank line fixes the content length, and
    with it where the request ends. So no complete request is a proper prefix
    of another one, and a byte stream splits into requests in one way only.
-/

namespace VeloxServe

open StdString Message

/-! ## The Client Address

    `process_request` enters the client address into the request before
    parsing; the parser neither reads nor changes it. -/

/-- The same request from another client. -/
def HttpRequest.withIp (ip : Bytes) (req : HttpRequest) : HttpRequest := { req with clientIp := ip }

namespace HttpParser

variable (ip : Bytes)

theorem setUri_withIp (uri : Bytes) (req : HttpRequest) :
    setUri uri (req.withIp ip) = (setUri uri req).withIp ip := by
  unfold setUri HttpRequest.withIp
  cases find (bytes "?") uri <;> dsimp only <;> split <;> rfl

theorem parseRequestLine_withIp (line : Bytes) (req : HttpRequest) :
    parseRequestLine line (req.withIp ip) =
      ((parseRequestLine line req).1, (parseRequestLine line req).2.withIp ip) := by
  unfold parseRequestLine
  rcases extractWord line with _ | ⟨method, stream⟩
  · rfl
  · dsimp only
    rcases extractWord stream with _ | ⟨uri, stream'⟩
    · rfl
    · dsimp only
      rcases extractWord stream' with _ | ⟨version, rest⟩
      · rfl
      · dsimp only
        split
        · rfl
        · split
          · rfl
          · rw [← setUri_withIp]
            rfl

theorem parseHeaderLine_withIp (req : HttpRequest) (line : Bytes) :
    parseHeaderLine (req.withIp ip) line = (parseHeaderLine req line).withIp ip := by
  unfold parseHeaderLine
  dsimp only
  generalize (if line.getLast? = some 13 then line.dropLast else line) = line
  split
  · rfl
  · cases find (bytes ":") line <;> rfl

theorem foldl_parseHeaderLine_withIp (lines : List Bytes) (req : HttpRequest) :
    lines.foldl parseHeaderLine (req.withIp ip) = (lines.foldl parseHeaderLine req).withIp ip := by
  induction lines generalizing req with
  | nil => rfl
  | cons line lines ih =>
    rw [List.foldl_cons, parseHeaderLine_withIp, ih]
    rfl

theorem parseHeaderSection_withIp (headerSection : Bytes) (req : HttpRequest) :
    parseHeaderSection headerSection (req.withIp ip) =
      ((parseHeaderSection headerSection req).1,
        (parseHeaderSection headerSection req).2.withIp ip) := by
  unfold parseHeaderSection
  rcases splitRequestLine headerSection with ⟨requestLine, remainingHeaders⟩
  dsimp only
  rw [parseRequestLine_withIp]
  rcases parseRequestLine requestLine req with ⟨_ | _, req'⟩
  · rfl
  · dsimp only
    split
    · rfl
    · unfold parseHeaders
      rw [foldl_parseHeaderLine_withIp]

theorem parseBody_withIp (p : HttpParser) (req : HttpRequest) :
    p.parseBody (req.withIp ip) =
      ((p.parseBody req).1, (p.parseBody req).2.1, (p.parseBody req).2.2.withIp ip) := by
  unfold parseBody
  split
  · split <;> rfl
  · rfl

/-- **The parser is blind to the client address.** -/
theorem parse_withIp (p : HttpParser) (data : Bytes) (req : HttpRequest) :
    p.parse data (req.withIp ip) =
      ((p.parse data req).1, (p.parse data req).2.1, (p.parse data req).2.2.withIp ip) := by
  unfold parse
  dsimp only
  split
  · exact parseBody_withIp ip _ req
  · cases find blankLine (p.buffer ++ data) with
    | none => rfl
    | some headerEnd =>
      dsimp only
      rw [parseHeaderSection_withIp]
      rcases parseHeaderSection ((p.buffer ++ data).take headerEnd) req with ⟨_ | _, req'⟩
      · rfl
      · exact parseBody_withIp ip _ req'

end HttpParser

/-! ## Complete Requests -/

/-- A fresh parser takes the text as one complete valid request, with nothing left over. -/
def IsRequest (w : Bytes) : Prop :=
  (({} : HttpParser).parse w {}).1 = true ∧
  (({} : HttpParser).parse w {}).2.2.isValid = true ∧
  (({} : HttpParser).parse w {}).2.1.buffer = []

instance (w : Bytes) : Decidable (IsRequest w) := inferInstanceAs (Decidable (_ ∧ _ ∧ _))

/-- The request line and headers in front of the first blank line are accepted. -/
theorem parse_fresh {w : Bytes} {e : Nat} {req : HttpRequest} (he : find blankLine w = some e)
    (hsection : HttpParser.parseHeaderSection (w.take e) {} = (true, req)) :
    ({} : HttpParser).parse w {} =
      HttpParser.parseBody
        { buffer := w.drop (e + 4)
          headersParsed := true
          contentLength := HttpParser.headerContentLength req } req := by
  unfold HttpParser.parse
  simp only [List.nil_append, he, hsection]
  rfl

/-- An unfinished or rejected request is not marked valid. -/
theorem parseHeaderSection_isValid {headerSection : Bytes} {req₀ req : HttpRequest}
    (h : HttpParser.parseHeaderSection headerSection req₀ = (false, req)) : req.isValid = false := by
  unfold HttpParser.parseHeaderSection at h
  generalize HttpParser.splitRequestLine headerSection = lines at h
  obtain ⟨requestLine, remainingHeaders⟩ := lines
  dsimp only at h
  generalize parseRequestLine requestLine req₀ = parsed at h
  rcases parsed with ⟨_ | _, req'⟩
  · obtain ⟨-, rfl⟩ := Prod.mk.inj h
    rfl
  · dsimp only at h
    split at h
    · cases h
    · cases h

/-- **Where a request ends**: the headers fix the content length, and the body
    has exactly that many bytes. -/
theorem IsRequest.length_eq {w : Bytes} (h : IsRequest w) :
    ∃ e req, find blankLine w = some e ∧
      HttpParser.parseHeaderSection (w.take e) {} = (true, req) ∧
      w.length = e + 4 + HttpParser.headerContentLength req := by
  obtain ⟨hdone, hvalid, hrest⟩ := h
  rcases he : find blankLine w with _ | e
  · have hfalse : (({} : HttpParser).parse w {}).1 = false := by
      unfold HttpParser.parse
      simp [he]
    rw [hfalse] at hdone
    cases hdone
  rcases hsection : HttpParser.parseHeaderSection (w.take e) {} with ⟨_ | _, req⟩
  · have hparse : (({} : HttpParser).parse w {}).2.2 = req := by
      unfold HttpParser.parse
      simp [he, hsection]
    rw [hparse, parseHeaderSection_isValid hsection] at hvalid
    cases hvalid
  refine ⟨e, req, rfl, hsection, ?_⟩
  have hlen : e + 4 ≤ w.length := find_add_length_le he (by decide)
  have hdrop : (w.drop (e + 4)).length = w.length - (e + 4) := List.length_drop
  rw [parse_fresh he hsection] at hdone hrest
  unfold HttpParser.parseBody at hdone hrest
  dsimp only at hdone hrest
  split at hrest
  · next hpos =>
    rw [if_pos hpos] at hdone
    split at hrest
    · have hnil := List.drop_eq_nil_iff.mp hrest
      omega
    · next hshort =>
      rw [if_neg hshort] at hdone
      cases hdone
  · have hnil := List.drop_eq_nil_iff.mp hrest
    omega

/-- A complete request contains the end of its header block. -/
theorem IsRequest.blankLine_infix {w : Bytes} (h : IsRequest w) : blankLine <:+: w := by
  obtain ⟨e, -, he, -, -⟩ := h.length_eq
  rw [← find_isSome_iff, he]
  rfl

theorem IsRequest.ne_nil {w : Bytes} (h : IsRequest w) : w ≠ [] := by
  rintro rfl
  exact absurd h.blankLine_infix (by decide)

/-- **Requests are prefix free.** -/
theorem IsRequest.eq_of_prefix {a b c : Bytes} (ha : IsRequest a) (hb : IsRequest b)
    (hac : a <+: c) (hbc : b <+: c) : a = b := by
  obtain ⟨e, req, he, hsection, hlen⟩ := ha.length_eq
  obtain ⟨e', req', he', hsection', hlen'⟩ := hb.length_eq
  obtain ⟨s, rfl⟩ := hac
  obtain ⟨t, ht⟩ := hbc
  -- both header blocks are the one of the common extension
  have hfind := find_append s he
  have hfind' := find_append t he'
  rw [ht, hfind] at hfind'
  obtain rfl : e = e' := Option.some.inj hfind'
  have hle := find_add_length_le he (by decide)
  have hle' := find_add_length_le he' (by decide)
  have htake : a.take e = b.take e := by
    have h₁ : (a ++ s).take e = a.take e := List.take_append_of_le_length (by omega)
    have h₂ : (b ++ t).take e = b.take e := List.take_append_of_le_length (by omega)
    rw [← h₁, ← ht, h₂]
  rw [htake, hsection'] at hsection
  obtain rfl : req' = req := (Prod.mk.inj hsection).2
  have hboth : b <+: a ++ s := ⟨t, ht⟩
  have hpre := List.prefix_of_prefix_length_le (List.prefix_append a s) hboth (by omega)
  exact hpre.eq_of_length (by omega)

end VeloxServe
