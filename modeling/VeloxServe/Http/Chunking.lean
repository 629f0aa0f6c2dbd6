import VeloxServe.Http.RequestFraming

/-! # Chunked Input

    The incremental parser does not see how its input is cut into chunks. Two
    facts carry this: a call that needs more data leaves the parser where one
    call on all the data would take it up again, and a call that is done stays
    done, with the same request, when more data follows.
-/

namespace VeloxServe

open StdString Message

namespace HttpParser

/-! ## One Call on a Fresh Parser -/

/-- What one call makes of the text `w`, by where the header block ends. -/
inductive FreshCase (w : Bytes) (req₀ : HttpRequest) : Bool × HttpParser × HttpRequest → Prop where
  | noHeaders (hfind : find blankLine w = none) :
      FreshCase w req₀ (false, { buffer := w }, req₀)
  | invalid {e : Nat} {req : HttpRequest} (hfind : find blankLine w = some e)
      (hsection : parseHeaderSection (w.take e) req₀ = (false, req)) :
      FreshCase w req₀ (true, { buffer := w }, req)
  | noBody {e : Nat} {req : HttpRequest} (hfind : find blankLine w = some e)
      (hsection : parseHeaderSection (w.take e) req₀ = (true, req))
      (hlength : w.length < e + 4 + headerContentLength req) :
      FreshCase w req₀
        (false, ⟨w.drop (e + 4), true, headerContentLength req⟩, req)
  | complete {e : Nat} {req : HttpRequest} (hfind : find blankLine w = some e)
      (hsection : parseHeaderSection (w.take e) req₀ = (true, req))
      (hlength : e + 4 + headerContentLength req ≤ w.length) :
      FreshCase w req₀
        (true, ⟨w.drop (e + 4 + headerContentLength req), true, headerContentLength req⟩,
          { req with
            body := if headerContentLength req = 0 then req.body
              else (w.drop (e + 4)).take (headerContentLength req)
            isComplete := true
            isValid := true })

/-- An accepted header section leads to the body. -/
theorem parse_of_section {w : Bytes} {req₀ req : HttpRequest} {e : Nat}
    (hfind : find blankLine w = some e)
    (hsection : parseHeaderSection (w.take e) req₀ = (true, req)) :
    ({} : HttpParser).parse w req₀ =
      parseBody ⟨w.drop (e + 4), true, headerContentLength req⟩ req := by
  unfold parse
  dsimp only [List.nil_append]
  rw [if_neg (by simp), hfind]
  dsimp only
  rw [hsection]

/-- A body that is all there. -/
theorem parseBody_enough {buffer : Bytes} {n : Nat} (req : HttpRequest) (h : n ≤ buffer.length) :
    parseBody ⟨buffer, true, n⟩ req =
      (true, ⟨buffer.drop n, true, n⟩,
        { req with
          body := if n = 0 then req.body else buffer.take n
          isComplete := true
          isValid := true }) := by
  unfold parseBody
  dsimp only
  by_cases hzero : n = 0
  · rw [if_neg (by omega), if_pos hzero, hzero]
    rfl
  · rw [if_pos (by omega), if_pos h, if_neg hzero]

theorem parse_freshCase (w : Bytes) (req₀ : HttpRequest) :
    FreshCase w req₀ (({} : HttpParser).parse w req₀) := by
  cases hfind : find blankLine w with
  | none =>
    unfold parse
    dsimp only [List.nil_append]
    rw [if_neg (by simp), hfind]
    exact .noHeaders hfind
  | some e =>
    have hle : e + 4 ≤ w.length := find_add_length_le hfind (by decide)
    have hlen : (w.drop (e + 4)).length = w.length - (e + 4) := List.length_drop
    -- the header section is refused, or the body is there or not
    rcases hsection : parseHeaderSection (w.take e) req₀ with ⟨_ | _, req⟩
    · unfold parse
      dsimp only [List.nil_append]
      rw [if_neg (by simp), hfind]
      dsimp only
      rw [hsection]
      exact .invalid hfind hsection
    · rw [parse_of_section hfind hsection]
      by_cases henough : e + 4 + headerContentLength req ≤ w.length
      · rw [parseBody_enough req (by omega), List.drop_drop]
        exact .complete hfind hsection henough
      · unfold parseBody
        dsimp only
        rw [if_pos (by omega), if_neg (by omega)]
        exact .noBody hfind hsection (by omega)

/-- The header section of a text does not change when data is appended. -/
theorem take_append_of_find {w : Bytes} {e : Nat} (hfind : find blankLine w = some e) (data : Bytes) :
    (w ++ data).take e = w.take e ∧ (w ++ data).drop (e + 4) = w.drop (e + 4) ++ data := by
  have hle : e + 4 ≤ w.length := find_add_length_le hfind (by decide)
  exact ⟨List.take_append_of_le_length (by omega), List.drop_append_of_le_length hle⟩

/-- **Resuming**: after a call that needs more data, the next call does what one
    call on all the data does. -/
theorem parse_resume {w : Bytes} {req₀ req : HttpRequest} {p : HttpParser}
    (h : ({} : HttpParser).parse w req₀ = (false, p, req)) (data : Bytes) :
    p.parse data req = ({} : HttpParser).parse (w ++ data) req₀ := by
  have hcase := parse_freshCase w req₀
  rw [h] at hcase
  cases hcase with
  | noHeaders hfind => rfl
  | noBody hfind hsection hlength =>
    obtain ⟨htake, hdrop⟩ := take_append_of_find hfind data
    have hfind' := find_append data hfind
    unfold parse
    dsimp only [List.nil_append]
    rw [if_pos rfl, if_neg (by simp), hfind', ← hdrop]
    dsimp only
    rw [htake, hsection]

/-- **Stability**: a call that is done is done with the same request when more
    data follows, which stays in the buffer. -/
theorem parse_extend {w : Bytes} {req₀ req : HttpRequest} {p : HttpParser}
    (h : ({} : HttpParser).parse w req₀ = (true, p, req)) (data : Bytes) :
    ({} : HttpParser).parse (w ++ data) req₀ =
      (true, { p with buffer := p.buffer ++ data }, req) := by
  have hcase := parse_freshCase w req₀
  rw [h] at hcase
  cases hcase with
  -- the header block has been refused, whatever follows it
  | invalid hfind hsection =>
    obtain ⟨htake, -⟩ := take_append_of_find hfind data
    unfold parse
    dsimp only [List.nil_append]
    rw [if_neg (by simp), find_append data hfind]
    dsimp only
    rw [htake, hsection]
  | @complete e req hfind hsection hlength =>
    obtain ⟨htake, hdrop⟩ := take_append_of_find hfind data
    have hlen : (w.drop (e + 4)).length = w.length - (e + 4) := List.length_drop
    have hbody : headerContentLength req ≤ (w.drop (e + 4)).length := by omega
    rw [parse_of_section (find_append data hfind) (htake ▸ hsection), hdrop,
      parseBody_enough req (by rw [List.length_append]; omega),
      List.drop_append_of_le_length hbody, List.take_append_of_le_length hbody, List.drop_drop]

/-! ## Where a Request Ends -/

/-- The request ends after `n` bytes of `s`: no shorter part of it is enough. -/
structure EndsAt (req₀ : HttpRequest) (s : Bytes) (n : Nat) : Prop where
  le : n ≤ s.length
  done : (({} : HttpParser).parse (s.take n) req₀).1 = true
  first : ∀ m < n, (({} : HttpParser).parse (s.take m) req₀).1 = false

theorem EndsAt.append {req₀ : HttpRequest} {s : Bytes} {n : Nat} (h : EndsAt req₀ s n) (t : Bytes) :
    EndsAt req₀ (s ++ t) n := by
  have htake : ∀ m ≤ n, (s ++ t).take m = s.take m := fun m hm =>
    List.take_append_of_le_length (hm.trans h.le)
  refine ⟨?_, ?_, fun m hm => ?_⟩
  · have hle := h.le
    rw [List.length_append]
    omega
  · rw [htake n (Nat.le_refl n)]
    exact h.done
  · rw [htake m (Nat.le_of_lt hm)]
    exact h.first m hm

/-- The first part of a text that contains the end of its header block. -/
theorem find_take {w : Bytes} {e n : Nat} (hfind : find blankLine w = some e) (h : e + 4 ≤ n) :
    find blankLine (w.take n) = some e := by
  have hcut : blankLine <+: (w.take n).drop e := by
    rw [List.drop_take, List.prefix_take_iff]
    exact ⟨find_spec hfind, by show 4 ≤ n - e; omega⟩
  have hin : blankLine <:+: w.take n := hcut.isInfix.trans (List.drop_suffix e _).isInfix
  obtain ⟨j, hj⟩ := Option.isSome_iff_exists.mp (find_isSome_iff.mpr hin)
  have hwhole := find_append (w.drop n) hj
  rw [List.take_append_drop, hfind] at hwhole
  rw [hj, hwhole]

/-- **What is left in the buffer** is what follows the end of the request. -/
theorem buffer_eq_drop {w : Bytes} {req₀ req : HttpRequest} {p : HttpParser}
    (h : ({} : HttpParser).parse w req₀ = (true, p, req)) (hvalid : req.isValid = true) :
    ∃ n, EndsAt req₀ w n ∧ p.buffer = w.drop n := by
  have hcase := parse_freshCase w req₀
  rw [h] at hcase
  cases hcase with
  | invalid hfind hsection =>
    rw [parseHeaderSection_isValid hsection] at hvalid
    cases hvalid
  | @complete e req hfind hsection hlength =>
    have hle : e + 4 ≤ w.length := find_add_length_le hfind (by decide)
    refine ⟨e + 4 + headerContentLength req, ⟨hlength, ?_, ?_⟩, rfl⟩
    · -- the bytes up to the end are enough
      have hsection' : parseHeaderSection
          ((w.take (e + 4 + headerContentLength req)).take e) req₀ = (true, req) := by
        rw [List.take_take, Nat.min_eq_left (by omega), hsection]
      have hfind' : find blankLine (w.take (e + 4 + headerContentLength req)) = some e :=
        find_take hfind (by omega)
      rw [parse_of_section hfind' hsection', parseBody_enough]
      rw [List.length_drop, List.length_take]
      omega
    · -- and fewer are not
      intro m hm
      have hcase := parse_freshCase (w.take m) req₀
      generalize ({} : HttpParser).parse (w.take m) req₀ = r at hcase
      -- a shorter text has the same header block, or none
      have hsame : ∀ e', find blankLine (w.take m) = some e' → e' = e := by
        intro e' he'
        have hwhole := find_append (w.drop m) he'
        rw [List.take_append_drop, hfind] at hwhole
        exact (Option.some.inj hwhole).symm
      have htake : ∀ e', find blankLine (w.take m) = some e' → (w.take m).take e = w.take e := by
        intro e' he'
        have hin := find_add_length_le he' (by decide)
        have hlen : (w.take m).length = min m w.length := List.length_take
        have hfour : blankLine.length = 4 := rfl
        rw [List.take_take, Nat.min_eq_left (by have := hsame e' he'; omega)]
      cases hcase with
      | noHeaders _ => rfl
      | invalid hfind' hsection' =>
        obtain rfl := hsame _ hfind'
        rw [htake _ hfind', hsection] at hsection'
        cases hsection'
      | noBody _ _ _ => rfl
      | complete hfind' hsection' hlength' =>
        obtain rfl := hsame _ hfind'
        rw [htake _ hfind', hsection] at hsection'
        obtain rfl := (Prod.mk.inj hsection').2
        rw [List.length_take] at hlength'
        omega

/-! ## Feeding Chunks -/

/-- What feeding chunks one by one comes to, with the number of calls. -/
structure Fed where
  calls : Nat
  done : Bool
  parser : HttpParser
  request : HttpRequest

/-- Call `parse` on one chunk after another until it returns true. -/
def feed (p : HttpParser) (request : HttpRequest) : List Bytes → Fed
  | [] => ⟨0, false, p, request⟩
  | chunk :: chunks =>
    match p.parse chunk request with
    | (true, p, request) => ⟨1, true, p, request⟩
    | (false, p, request) =>
      let fed := feed p request chunks
      { fed with calls := fed.calls + 1 }

/-- The outcome of feeding agrees with single calls on the joined chunks. -/
structure AgreesWithSingle (req₀ : HttpRequest) (chunks : List Bytes) (fed : Fed) : Prop where
  calls_le : fed.calls ≤ chunks.length
  /-- No call before the last one could have been done. -/
  pending : ∀ k < fed.calls, (({} : HttpParser).parse (chunks.take k).flatten req₀).1 = false
  done : (({} : HttpParser).parse (chunks.take fed.calls).flatten req₀).1 = fed.done
  all : fed.done = false → fed.calls = chunks.length
  request : fed.done = true →
    (({} : HttpParser).parse (chunks.take fed.calls).flatten req₀).2.2 = fed.request
  whole : fed.done = true → (({} : HttpParser).parse chunks.flatten req₀).1 = true ∧
    (({} : HttpParser).parse chunks.flatten req₀).2.2 = fed.request
  rest : fed.done = true → fed.request.isValid = true →
    ∃ n, EndsAt req₀ chunks.flatten n ∧
      fed.parser.buffer = (chunks.take fed.calls).flatten.drop n

/-- One chunk more in front of chunks that are fed to a parser that needs more data. -/
theorem feed_resume {req₀ : HttpRequest} (chunks : List Bytes) {w : Bytes} {p : HttpParser}
    {req : HttpRequest} (h : ({} : HttpParser).parse w req₀ = (false, p, req)) :
    (∀ k < (feed p req chunks).calls,
      (({} : HttpParser).parse (w ++ (chunks.take k).flatten) req₀).1 = false) ∧
    (feed p req chunks).calls ≤ chunks.length ∧
    ((feed p req chunks).done = false → (feed p req chunks).calls = chunks.length) ∧
    ({} : HttpParser).parse (w ++ (chunks.take (feed p req chunks).calls).flatten) req₀ =
      ((feed p req chunks).done, (feed p req chunks).parser, (feed p req chunks).request) := by
  induction chunks generalizing w p req with
  | nil =>
    refine ⟨fun k hk => absurd hk (Nat.not_lt_zero k), Nat.le_refl 0, fun _ => rfl, ?_⟩
    simpa [feed] using h
  | cons chunk chunks ih =>
    have hstep := parse_resume h chunk
    unfold feed
    -- the parser wants more, or is done with this chunk
    rcases hparse : p.parse chunk req with ⟨_ | _, p', req'⟩
    · rw [hparse] at hstep
      obtain ⟨hpending, hle, hall, hlast⟩ := ih hstep.symm
      refine ⟨?_, Nat.succ_le_succ hle, fun hdone => congrArg (· + 1) (hall hdone), ?_⟩
      · intro k hk
        cases k with
        | zero => simp [h]
        | succ k =>
          have hprev := hpending k (Nat.lt_of_succ_lt_succ hk)
          rw [List.take_succ_cons, List.flatten_cons, ← List.append_assoc]
          exact hprev
      · rw [List.take_succ_cons, List.flatten_cons, ← List.append_assoc]
        exact hlast
    · rw [hparse] at hstep
      dsimp only
      refine ⟨?_, Nat.succ_le_succ (Nat.zero_le _), Bool.noConfusion, ?_⟩
      · intro k hk
        obtain rfl : k = 0 := Nat.lt_one_iff.mp hk
        simp [h]
      · simpa using hstep.symm

/-- **The parser is insensitive to chunking.** -/
theorem feed_agrees (req₀ : HttpRequest) (chunks : List Bytes) :
    AgreesWithSingle req₀ chunks (feed {} req₀ chunks) := by
  have hstart : ({} : HttpParser).parse [] req₀ = (false, {}, req₀) := rfl
  obtain ⟨hpending, hle, hall, hlast⟩ := feed_resume chunks hstart
  generalize feed {} req₀ chunks = fed at hpending hle hall hlast
  rw [List.nil_append] at hlast
  have hsplit : chunks.flatten =
      (chunks.take fed.calls).flatten ++ (chunks.drop fed.calls).flatten := by
    rw [← List.flatten_append, List.take_append_drop]
  -- the chunks that were not fed stay behind in the buffer
  have hextend : fed.done = true → ({} : HttpParser).parse chunks.flatten req₀ =
      (true, { fed.parser with
        buffer := fed.parser.buffer ++ (chunks.drop fed.calls).flatten }, fed.request) := by
    intro hdone
    rw [hdone] at hlast
    rw [hsplit, parse_extend hlast]
  constructor
  · exact hle
  · exact hpending
  · rw [hlast]
  · exact hall
  · intro _
    rw [hlast]
  · intro hdone
    rw [hextend hdone]
    exact ⟨rfl, rfl⟩
  · intro hdone hvalid
    rw [hdone] at hlast
    obtain ⟨n, hend, hbuffer⟩ := buffer_eq_drop hlast hvalid
    exact ⟨n, hsplit ▸ hend.append _, hbuffer⟩

end HttpParser

end VeloxServe
