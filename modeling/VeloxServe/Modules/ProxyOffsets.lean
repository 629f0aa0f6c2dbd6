import VeloxServe.Framework.Traced
import VeloxServe.Modules.ProxyRelay

/-! # Offsets in a Backend's Response

    `parse_backend_response` once more, with the offsets it computes: a `find`
    without a match gives `npos`, sums and differences wrap around at 64 bits,
    `substr` throws for a start behind the end, and the loop runs as long as its
    position says. The starts, the steps of the loop and the results of `stoi`
    are noted.
-/

namespace VeloxServe

open StdString Message Traced

namespace ProxyHandler

namespace Offsets

/-! ## Strings and Offsets -/

/-- A `std::string`: sizes are differences of its iterators. -/
structure Str where
  val : Bytes
  fits : val.length < 2 ^ 63

def Str.size (s : Str) : Nat := s.val.length

/-- `std::string::npos`. -/
def npos : Nat := 2 ^ 64 - 1

/-- `a + b` and `a - b` of two `size_t`. -/
def plus (a b : Nat) : Nat := (a + b) % 2 ^ 64

def minus (a b : Nat) : Nat := (a + (2 ^ 64 - b)) % 2 ^ 64

/-- `s.find(pat, pos)` for a `pat` that is not empty. -/
def find (pat : Bytes) (s : Str) (pos : Nat) : Nat := (findFrom pat s.val pos).getD npos

/-- `s.find_first_not_of(" \t")`. -/
def findFirstNotOf (s : Str) : Nat :=
  let i := s.val.findIdx fun b => !(b == 32 || b == 9)
  if i < s.size then i else npos

/-- What is noted. -/
inductive Event where
  | substr (pos size : Nat)
  | advance (pos next : Nat)
  | stoi (r : Except ConversionError Int)

abbrev Run (α : Type) : Type := Traced Event ConversionError α

def Str.cut (s : Str) (pos count : Nat) : Str where
  val := (s.val.drop pos).take count
  fits := by
    have hfits := s.fits
    rw [List.length_take, List.length_drop]
    omega

/-- `s.substr(pos, count)`. -/
def substr (s : Str) (pos count : Nat) : Run Str := do
  note (.substr pos s.size)
  if s.size < pos then done (.error .outOfRange) else pure (s.cut pos count)

/-- `s.substr(pos)`. -/
def substrFrom (s : Str) (pos : Nat) : Run Str := substr s pos npos

/-- `std::stoi(s)`. -/
def toInt (s : Str) : Run Int := do
  note (.stoi (stoi s.val))
  done (stoi s.val)

/-! ## The Function -/

/-- `"HTTP/1.1 200 OK"`. -/
def parseStatusLine (statusLine : Str) (resp : HttpResponse) : Run HttpResponse :=
  let space1 := find (bytes " ") statusLine 0
  let space2 := find (bytes " ") statusLine (plus space1 1)
  if space1 ≠ npos ∧ space2 ≠ npos then
    catchAll
      (do
        let text ← substr statusLine (plus space1 1) (minus (minus space2 space1) 1)
        let code ← toInt text
        let reason ← substrFrom statusLine (plus space2 1)
        pure (resp.setStatus code reason.val))
      (pure (resp.setStatus 502 (bytes "Bad Gateway")))
  else pure (resp.setStatus 502 (bytes "Bad Gateway"))

/-- Leading blanks of a value. -/
def trimLeading (val : Str) : Run Str :=
  let valStart := findFirstNotOf val
  if valStart ≠ npos then substrFrom val valStart else pure val

/-- One line of the header section. -/
def relayHeaderLine (resp : HttpResponse) (line : Str) : Run HttpResponse :=
  let colon := find (bytes ":") line 0
  if colon ≠ npos then do
    let key ← substr line 0 colon
    let val ← substrFrom line (plus colon 1)
    let val ← trimLeading val
    pure (resp.setHeader key.val val.val)
  else pure resp

/-- The end of the line that starts at `pos`. -/
def lineEnd (s : Str) (pos : Nat) : Nat :=
  let found := find crlf s pos
  if found = npos then s.size else found

/-! ## What the Offsets Are -/

theorem size_lt (s : Str) : s.size < 2 ^ 63 := s.fits

theorem plus_eq {a b : Nat} (h : a + b < 2 ^ 64) : plus a b = a + b := Nat.mod_eq_of_lt h

theorem minus_eq {a b : Nat} (h : b ≤ a) (ha : a < 2 ^ 64) : minus a b = a - b := by
  unfold minus
  have hsum : a + (2 ^ 64 - b) = a - b + 2 ^ 64 := by omega
  rw [hsum, Nat.add_mod_right]
  exact Nat.mod_eq_of_lt (by omega)

/-- What `find` gives, inside the string or `npos`. -/
theorem find_cases {pat : Bytes} (hpat : pat ≠ []) {s : Str} {pos : Nat} (hpos : pos ≤ s.size) :
    (findFrom pat s.val pos = none ∧ find pat s pos = npos) ∨
      ∃ i, findFrom pat s.val pos = some i ∧ find pat s pos = i ∧ pos ≤ i ∧
        i + pat.length ≤ s.size := by
  unfold find
  cases hfind : findFrom pat s.val pos with
  | none => exact .inl ⟨rfl, rfl⟩
  | some i =>
    obtain ⟨hle, hend⟩ := findFrom_bounds hpos hfind hpat
    exact .inr ⟨i, rfl, rfl, hle, hend⟩

theorem lt_npos (s : Str) {i : Nat} (h : i ≤ s.size) : i ≠ npos := by
  have hsize := size_lt s
  unfold npos
  omega

theorem findFrom_zero (pat s : Bytes) : findFrom pat s 0 = StdString.find pat s := by
  simp [findFrom]

theorem lineEnd_cases {s : Str} {pos : Nat} (h : pos ≤ s.size) :
    pos ≤ lineEnd s pos ∧ (findFrom crlf s.val pos = none ∧ lineEnd s pos = s.size ∨
      findFrom crlf s.val pos = some (lineEnd s pos) ∧ lineEnd s pos + 2 ≤ s.size) := by
  unfold lineEnd
  dsimp only
  rcases find_cases (by decide : crlf ≠ []) h with ⟨hnone, hfind⟩ | ⟨i, hsome, hfind, hle, hlen⟩
  · rw [hfind, if_pos rfl]
    exact ⟨h, .inl ⟨hnone, rfl⟩⟩
  · rw [hfind, if_neg (lt_npos s (by omega))]
    exact ⟨hle, .inr ⟨hsome, hlen⟩⟩

/-- As the functions without offsets write it. -/
theorem lineEnd_eq {s : Str} {pos : Nat} (h : pos ≤ s.size) :
    (findFrom crlf s.val pos).getD s.val.length = lineEnd s pos := by
  rcases (lineEnd_cases h).2 with ⟨hnone, heq⟩ | ⟨hsome, -⟩
  · rw [hnone, heq]
    rfl
  · rw [hsome]
    rfl

theorem plus_lineEnd {s : Str} {pos : Nat} (h : pos ≤ s.size) :
    plus (lineEnd s pos) 2 = lineEnd s pos + 2 := by
  have hsize := size_lt s
  have hcases := lineEnd_cases h
  exact plus_eq (by omega)

/-- **The next position is behind the current one.** -/
theorem lt_plus_lineEnd {s : Str} {pos : Nat} (h : pos < s.size) :
    pos < plus (lineEnd s pos) 2 := by
  rw [plus_lineEnd h.le]
  have hcases := lineEnd_cases h.le
  omega

/-- `while (pos < headers.size())`. -/
def headerLoop (headers : Str) (pos : Nat) (resp : HttpResponse) : Run HttpResponse :=
  if _h : pos < headers.size then do
    let line ← substr headers pos (minus (lineEnd headers pos) pos)
    let resp ← relayHeaderLine resp line
    note (.advance pos (plus (lineEnd headers pos) 2))
    headerLoop headers (plus (lineEnd headers pos) 2) resp
  else pure resp
termination_by headers.size - pos
decreasing_by
  have hnext := lt_plus_lineEnd _h
  omega

/-- The headers behind the status line. -/
def relayHeaders (headerSection : Str) (firstLineEnd : Nat) (resp : HttpResponse) :
    Run HttpResponse :=
  if firstLineEnd < headerSection.size then do
    let headers ← substrFrom headerSection (plus firstLineEnd 2)
    headerLoop headers 0 resp
  else pure resp

def parseBackendResponse (rawResponse : Str) : Run HttpResponse :=
  let resp : HttpResponse := {}
  let headerEnd := find blankLine rawResponse 0
  if headerEnd = npos then
    pure ((resp.setStatus 502 (bytes "Bad Gateway")).setBody
      (bytes "Invalid response from upstream"))
  else do
    let headerSection ← substr rawResponse 0 headerEnd
    let bodySection ← substrFrom rawResponse (plus headerEnd 4)
    let firstLineEnd := lineEnd headerSection 0
    let statusLine ← substr headerSection 0 firstLineEnd
    let resp ← parseStatusLine statusLine resp
    let resp ← relayHeaders headerSection firstLineEnd resp
    pure (resp.setBody bodySection.val)

/-! ## What It Does -/

/-- What is promised of the notes of a run that returns `final`. -/
def Event.Good (final : HttpResponse) : Event → Prop
  | .substr pos size => pos ≤ size
  | .advance pos next => pos < next
  | .stoi (.ok code) => final.statusCode = code
  | .stoi (.error _) => final.statusCode = 502

section

variable {final : HttpResponse}

theorem substr_runs {s : Str} {pos : Nat} (h : pos ≤ s.size) (count : Nat) :
    Runs (Event.Good final) (substr s pos count) (.ok (s.cut pos count)) := by
  have hnote : Event.Good final (.substr pos s.size) := h
  apply (Runs.note hnote).bind
  rw [if_neg (by omega)]
  exact Runs.pure _

theorem cut_npos (s : Str) (pos : Nat) : (s.cut pos npos).val = s.val.drop pos := by
  have hsize := size_lt s
  have hlen : (s.val.drop pos).length ≤ npos := by
    rw [List.length_drop]
    unfold npos
    unfold Str.size at hsize
    omega
  exact List.take_of_length_le hlen

theorem cut_zero (s : Str) (count : Nat) : (s.cut 0 count).val = s.val.take count := by
  show (s.val.drop 0).take count = _
  rw [List.drop_zero]

theorem toInt_runs {s : Str} {r : Except ConversionError Int} (hr : stoi s.val = r)
    (hgood : Event.Good final (.stoi r)) : Runs (Event.Good final) (toInt s) r := by
  have hnote : Event.Good final (.stoi (stoi s.val)) := by
    rw [hr]
    exact hgood
  have hdone : Runs (Event.Good final) (done (stoi s.val)) r := by
    rw [hr]
    exact Runs.done r
  exact (Runs.note hnote).bind hdone

/-- The status that is set is the one that the notes of `stoi` speak of. -/
theorem parseStatusLine_runs (statusLine : Str) (resp : HttpResponse)
    (hfinal : final.statusCode = (ProxyHandler.parseStatusLine statusLine.val resp).statusCode) :
    Runs (Event.Good final) (parseStatusLine statusLine resp)
      (.ok (ProxyHandler.parseStatusLine statusLine.val resp)) := by
  have hblank : bytes " " ≠ [] := by decide
  have hlength : (bytes " ").length = 1 := by decide
  have hsize := size_lt statusLine
  unfold ProxyHandler.parseStatusLine at hfinal ⊢
  unfold parseStatusLine
  dsimp only
  rw [← findFrom_zero] at hfinal ⊢
  rcases find_cases hblank (Nat.zero_le statusLine.size) with ⟨hnone, hfind⟩ | ⟨i, hsome, hfind, -, hi⟩
  · rw [hnone, hfind, if_neg (by simp)]
    exact Runs.pure _
  have hplus : plus i 1 = i + 1 := plus_eq (by omega)
  rw [hsome] at hfinal ⊢
  rw [hfind, hplus]
  dsimp only at hfinal ⊢
  rcases find_cases hblank (by omega : i + 1 ≤ statusLine.size) with
    ⟨hnone, hfind'⟩ | ⟨j, hsome', hfind', hij, hj⟩
  · rw [hnone, hfind', if_neg (by simp)]
    exact Runs.pure _
  rw [hsome'] at hfinal ⊢
  rw [hfind', if_pos ⟨lt_npos statusLine (by omega), lt_npos statusLine (by omega)⟩]
  dsimp only at hfinal ⊢
  have hcount : minus (minus j i) 1 = j - i - 1 := by
    rw [minus_eq (by omega : i ≤ j) (by omega), minus_eq (by omega) (by omega)]
  rw [hcount, plus_eq (by omega : j + 1 < 2 ^ 64)]
  cases hcode : stoi ((statusLine.val.drop (i + 1)).take (j - i - 1)) with
  | error e =>
    rw [hcode] at hfinal
    have hint : Runs (Event.Good final) (toInt (statusLine.cut (i + 1) (j - i - 1))) (.error e) :=
      toInt_runs hcode hfinal
    exact Runs.catchAll_error ((substr_runs (by omega) _).bind hint.bind_error) (Runs.pure _)
  | ok code =>
    rw [hcode] at hfinal
    have hint : Runs (Event.Good final) (toInt (statusLine.cut (i + 1) (j - i - 1))) (.ok code) :=
      toInt_runs hcode hfinal
    apply Runs.catchAll
    refine (substr_runs (by omega) _).bind (hint.bind ((substr_runs (by omega) npos).bind ?_))
    rw [cut_npos]
    exact Runs.pure _

theorem trimLeading_runs (val : Str) :
    ∃ trimmed, Runs (Event.Good final) (trimLeading val) (.ok trimmed) ∧
      trimmed.val = ProxyHandler.trimLeading val.val := by
  rw [trimLeading_eq]
  unfold trimLeading findFirstNotOf
  dsimp only
  by_cases hlt : val.val.findIdx (fun b => !(b == 32 || b == 9)) < val.size
  · have hlt' : val.val.findIdx (fun b => !(b == 32 || b == 9)) < val.val.length := hlt
    rw [if_pos hlt, if_pos (lt_npos val hlt.le), if_pos hlt']
    exact ⟨_, substr_runs hlt.le npos, cut_npos _ _⟩
  · have hlt' : ¬ val.val.findIdx (fun b => !(b == 32 || b == 9)) < val.val.length := hlt
    rw [if_neg hlt, if_neg (not_not_intro rfl), if_neg hlt']
    exact ⟨val, Runs.pure _, rfl⟩

theorem relayHeaderLine_runs (resp : HttpResponse) (line : Str) :
    Runs (Event.Good final) (relayHeaderLine resp line)
      (.ok (ProxyHandler.relayHeaderLine resp line.val)) := by
  have hcolon : bytes ":" ≠ [] := by decide
  have hlength : (bytes ":").length = 1 := by decide
  have hsize := size_lt line
  unfold relayHeaderLine ProxyHandler.relayHeaderLine
  dsimp only
  rw [← findFrom_zero]
  rcases find_cases hcolon (Nat.zero_le line.size) with ⟨hnone, hfind⟩ | ⟨i, hsome, hfind, -, hi⟩
  · rw [hnone, hfind, if_neg (not_not_intro rfl)]
    exact Runs.pure _
  · rw [hsome, hfind, if_pos (lt_npos line (by omega)), plus_eq (by omega : i + 1 < 2 ^ 64)]
    have htrimmed : ∃ trimmed, Runs (Event.Good final) (trimLeading (line.cut (i + 1) npos))
        (.ok trimmed) ∧ trimmed.val = ProxyHandler.trimLeading (line.cut (i + 1) npos).val :=
      trimLeading_runs _
    obtain ⟨trimmed, htrim, hval⟩ := htrimmed
    refine (substr_runs (Nat.zero_le _) i).bind ((substr_runs (by omega) npos).bind
      (htrim.bind ?_))
    rw [cut_zero, hval, cut_npos]
    exact Runs.pure _

/-- Any fuel that is enough for what is left gives what the loop gives. -/
theorem headerLoop_runs (headers : Str) (fuel pos : Nat) (resp : HttpResponse)
    (hfuel : headers.size ≤ fuel + pos) :
    Runs (Event.Good final) (headerLoop headers pos resp)
      (.ok (ProxyHandler.headerLoop headers.val fuel pos resp)) := by
  induction fuel generalizing pos resp with
  | zero =>
    rw [headerLoop, dif_neg (by omega)]
    exact Runs.pure _
  | succ fuel ih =>
    rw [headerLoop]
    unfold ProxyHandler.headerLoop
    by_cases hpos : pos < headers.size
    · have hsize := size_lt headers
      have hcases := lineEnd_cases hpos.le
      have hnext : Event.Good final (.advance pos (lineEnd headers pos + 2)) := by
        show pos < lineEnd headers pos + 2
        omega
      have hpos' : pos < headers.val.length := hpos
      rw [dif_pos hpos, if_pos hpos']
      dsimp only
      rw [lineEnd_eq hpos.le, minus_eq hcases.1 (by omega), plus_lineEnd hpos.le]
      refine (substr_runs hpos.le _).bind ((relayHeaderLine_runs resp _).bind
        ((Runs.note hnext).bind ?_))
      exact ih _ _ (by omega)
    · have hpos' : ¬ pos < headers.val.length := hpos
      rw [dif_neg hpos, if_neg hpos']
      exact Runs.pure _

theorem relayHeaders_runs (headerSection : Str) (resp : HttpResponse) :
    Runs (Event.Good final) (relayHeaders headerSection (lineEnd headerSection 0) resp)
      (.ok (if lineEnd headerSection 0 < headerSection.val.length then
        let headers := headerSection.val.drop (lineEnd headerSection 0 + 2)
        ProxyHandler.headerLoop headers headers.length 0 resp
      else resp)) := by
  unfold relayHeaders
  rw [plus_lineEnd (Nat.zero_le _)]
  by_cases hmore : lineEnd headerSection 0 < headerSection.size
  · have hmore' : lineEnd headerSection 0 < headerSection.val.length := hmore
    have hcases := lineEnd_cases (Nat.zero_le headerSection.size)
    rw [if_pos hmore, if_pos hmore']
    refine (substr_runs (by omega) npos).bind ?_
    rw [← cut_npos]
    exact headerLoop_runs _ _ 0 resp (Nat.le_refl _)
  · have hmore' : ¬ lineEnd headerSection 0 < headerSection.val.length := hmore
    rw [if_neg hmore, if_neg hmore']
    exact Runs.pure _

/-- The run gives the response of the function without offsets, which is the one
    its notes speak of. -/
theorem parseBackendResponse_runs (rawResponse : Str) :
    Runs (Event.Good (ProxyHandler.parseBackendResponse rawResponse.val))
      (parseBackendResponse rawResponse)
      (.ok (ProxyHandler.parseBackendResponse rawResponse.val)) := by
  have hsize := size_lt rawResponse
  have hlength : blankLine.length = 4 := rfl
  generalize hfinal : ProxyHandler.parseBackendResponse rawResponse.val = final
  unfold ProxyHandler.parseBackendResponse at hfinal
  unfold parseBackendResponse
  dsimp only at hfinal ⊢
  rw [← findFrom_zero] at hfinal
  rcases find_cases (by decide : blankLine ≠ []) (Nat.zero_le rawResponse.size) with
    ⟨hnone, hfind⟩ | ⟨i, hsome, hfind, -, hi⟩
  · rw [hnone] at hfinal
    rw [hfind, if_pos rfl, ← hfinal]
    exact Runs.pure _
  · rw [hsome] at hfinal
    dsimp only at hfinal
    have hsection := cut_zero rawResponse i
    have hline := cut_zero (rawResponse.cut 0 i) (lineEnd (rawResponse.cut 0 i) 0)
    rw [← hsection, ← findFrom_zero, lineEnd_eq (Nat.zero_le _), ← hline] at hfinal
    have hstatus : final.statusCode = (ProxyHandler.parseStatusLine
        ((rawResponse.cut 0 i).cut 0 (lineEnd (rawResponse.cut 0 i) 0)).val {}).statusCode := by
      rw [← hfinal, HttpResponse.setBody_statusCode]
      split
      · rw [headerLoop_eq _ _ _ (Nat.le_add_left _ _)]
        exact (relayed_status _ _).1
      · rfl
    rw [hfind, if_neg (lt_npos rawResponse (by omega)), plus_eq (by omega : i + 4 < 2 ^ 64)]
    refine (substr_runs (Nat.zero_le _) i).bind ((substr_runs (by omega) npos).bind
      ((substr_runs (Nat.zero_le _) _).bind ((parseStatusLine_runs _ {} hstatus).bind
        ((relayHeaders_runs _ _).bind ?_))))
    rw [cut_npos, ← hfinal]
    exact Runs.pure _

end

/-- What is returned as the body: the bytes behind the first blank line, or the fixed
    text when there is none. -/
def IsBody (rawResponse body : Bytes) : Prop :=
  (∃ headerSection, rawResponse = headerSection ++ blankLine ++ body ∧
    ∀ i < headerSection.length, ¬ blankLine <+: rawResponse.drop i) ∨
  (¬ blankLine <:+: rawResponse ∧ body = bytes "Invalid response from upstream")

theorem isBody_parseBackendResponse (rawResponse : Bytes) :
    IsBody rawResponse (ProxyHandler.parseBackendResponse rawResponse).body := by
  unfold ProxyHandler.parseBackendResponse
  cases hfind : StdString.find blankLine rawResponse with
  | none => exact .inr ⟨find_eq_none_iff.mp hfind, rfl⟩
  | some headerEnd =>
    refine .inl ⟨rawResponse.take headerEnd, find_split hfind, ?_⟩
    intro i hi
    have hle := List.length_take_le headerEnd rawResponse
    exact find_minimal hfind (by omega)

/-- **Whatever a backend sends, a response is returned**, the one of the function without
    offsets: every start of a `substr` is inside its string, every iteration moves the
    position up, a status that is no number becomes 502, and the body is what stands
    behind the first blank line. -/
theorem parseBackendResponse_returns (rawResponse : Str) :
    ∃ resp, (parseBackendResponse rawResponse).result = .ok resp ∧
      resp = ProxyHandler.parseBackendResponse rawResponse.val ∧
      (∀ event ∈ (parseBackendResponse rawResponse).trace, event.Good resp) ∧
      IsBody rawResponse.val resp.body ∧
      (¬ blankLine <:+: rawResponse.val → resp.statusCode = 502) := by
  have hruns := parseBackendResponse_runs rawResponse
  refine ⟨_, hruns.result, rfl, hruns.notes, isBody_parseBackendResponse _, ?_⟩
  intro hnone
  unfold ProxyHandler.parseBackendResponse
  rw [find_eq_none_iff.mpr hnone]
  rfl

end Offsets

end ProxyHandler

end VeloxServe
