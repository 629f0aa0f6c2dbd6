import VeloxServe.Framework.StdString

/-! # CRLF Text Messages

    How a recipient reads a message of the shape

        start line CRLF (header line CRLF)* CRLF content

    The definitions go by lines: a text is cut at every CRLF, the header lines
    are those after the start line and before the first empty one, and the
    content is what follows the empty line.
-/

namespace Message

open StdString

/-- The line terminator. -/
def crlf : Bytes := [13, 10]

/-- The end of a header block: `"\r\n\r\n"`. -/
def blankLine : Bytes := crlf ++ crlf

/-- Put a byte in front of the first line. -/
def consHead (b : UInt8) : List Bytes → List Bytes
  | [] => [[b]]
  | line :: lines => (b :: line) :: lines

/-- The pieces between consecutive CRLFs. -/
def splitLines : Bytes → List Bytes
  | [] => [[]]
  | [b] => [[b]]
  | a :: b :: s =>
    if a = 13 ∧ b = 10 then [] :: splitLines s else consHead a (splitLines (b :: s))

/-- Lines put back together with a CRLF between them. -/
def joinLines : List Bytes → Bytes
  | [] => []
  | [line] => line
  | line :: lines => line ++ crlf ++ joinLines lines

/-- Each line followed by a CRLF. -/
def writeLines (lines : List Bytes) : Bytes := lines.flatMap (· ++ crlf)

/-- The header lines of a message. -/
def headerLines (m : Bytes) : List Bytes := (splitLines m).tail.takeWhile (· ≠ [])

/-- The bytes that follow the blank line. -/
def content (m : Bytes) : Bytes := joinLines ((splitLines m).tail.dropWhile (· ≠ [])).tail

/-! ## Splitting and Joining -/

@[simp] theorem consHead_append (b : UInt8) (ls ms : List Bytes) (h : ls ≠ []) :
    consHead b (ls ++ ms) = consHead b ls ++ ms := by
  cases ls with
  | nil => exact absurd rfl h
  | cons line lines => rfl

theorem consHead_ne_nil (b : UInt8) (ls : List Bytes) : consHead b ls ≠ [] := by
  cases ls <;> simp [consHead]

@[simp] theorem splitLines_ne_nil (s : Bytes) : splitLines s ≠ [] := by
  fun_cases splitLines s <;> simp [consHead_ne_nil]

/-- Cutting at a CRLF cuts the lines. -/
theorem splitLines_append (x y : Bytes) :
    splitLines (x ++ crlf ++ y) = splitLines x ++ splitLines y := by
  fun_induction splitLines x with
  | case1 => simp [crlf, splitLines]
  | case2 b => simp [crlf, splitLines, consHead]
  | case3 a b s h ih =>
    obtain ⟨rfl, rfl⟩ := h
    simp only [List.cons_append, splitLines, and_self, if_true]
    rw [ih]
  | case4 a b s h ih =>
    simp only [List.cons_append, splitLines, if_neg h] at ih ⊢
    rw [ih, consHead_append _ _ _ (splitLines_ne_nil _)]

theorem splitLines_cons {b : UInt8} (h : b ≠ 13) (s : Bytes) :
    splitLines (b :: s) = consHead b (splitLines s) := by
  cases s with
  | nil => rfl
  | cons c s =>
    have hno : ¬ (b = 13 ∧ c = 10) := fun hbc => h hbc.1
    show (if b = 13 ∧ c = 10 then _ else _) = _
    rw [if_neg hno]

/-- A text without CR only lengthens the first line of what follows it. -/
theorem splitLines_append_left {x : Bytes} (h : (13 : UInt8) ∉ x) (s : Bytes) :
    ∃ first, splitLines (x ++ s) = (x ++ first) :: (splitLines s).tail := by
  induction x with
  | nil =>
    rcases hs : splitLines s with _ | ⟨first, rest⟩
    · exact absurd hs (splitLines_ne_nil s)
    · exact ⟨first, hs⟩
  | cons b x ih =>
    obtain ⟨hb, hx⟩ : ¬ (13 : UInt8) = b ∧ (13 : UInt8) ∉ x := by simpa using h
    obtain ⟨first, hfirst⟩ := ih hx
    have hne : b ≠ 13 := fun heq => hb heq.symm
    refine ⟨first, ?_⟩
    rw [List.cons_append, splitLines_cons hne, hfirst]
    rfl

/-- A text without CRLF is one line. -/
theorem splitLines_oneLine {s : Bytes} (h : ¬ crlf <:+: s) : splitLines s = [s] := by
  fun_induction splitLines s with
  | case1 => rfl
  | case2 b => rfl
  | case3 a b s hab ih =>
    obtain ⟨rfl, rfl⟩ := hab
    exact absurd ⟨[], s, rfl⟩ h
  | case4 a b s hab ih =>
    rw [ih fun hin => h (List.infix_cons_iff.mpr (.inr hin))]
    rfl

/-- The first line ends at the first CRLF. -/
theorem splitLines_of_find_crlf {s : Bytes} {i : Nat} (h : find crlf s = some i) :
    splitLines s = s.take i :: splitLines (s.drop (i + 2)) := by
  have hs := find_split h
  have hlen : crlf.length = 2 := rfl
  rw [hlen] at hs
  conv => lhs; rw [hs]
  rw [splitLines_append, splitLines_oneLine (not_infix_take_of_find h (by decide))]
  rfl

theorem find_crlf {x : Bytes} (h : ¬ crlf <:+: x) (y : Bytes) :
    find crlf (x ++ crlf ++ y) = some x.length := by
  have hin : crlf <:+: x ++ crlf ++ y := ⟨x, y, rfl⟩
  obtain ⟨i, hi⟩ := Option.isSome_iff_exists.mp (find_isSome_iff.mpr hin)
  have hlines := splitLines_of_find_crlf hi
  rw [splitLines_append, splitLines_oneLine h] at hlines
  have htake : x = (x ++ crlf ++ y).take i := (List.cons.inj hlines).1
  have hle := find_add_length_le hi (by decide)
  have hlen := congrArg List.length htake
  rw [List.length_take, Nat.min_eq_left (by omega)] at hlen
  rw [hi, hlen]

theorem joinLines_cons {lines : List Bytes} (line : Bytes) (h : lines ≠ []) :
    joinLines (line :: lines) = line ++ crlf ++ joinLines lines := by
  cases lines with
  | nil => exact absurd rfl h
  | cons line' lines => rfl

theorem joinLines_consHead (b : UInt8) (lines : List Bytes) :
    joinLines (consHead b lines) = b :: joinLines lines := by
  rcases lines with _ | ⟨line, _ | ⟨line', lines⟩⟩ <;> simp [consHead, joinLines]

@[simp] theorem joinLines_splitLines (s : Bytes) : joinLines (splitLines s) = s := by
  fun_induction splitLines s with
  | case1 => rfl
  | case2 b => rfl
  | case3 a b s h ih =>
    obtain ⟨rfl, rfl⟩ := h
    rw [joinLines_cons _ (splitLines_ne_nil s), ih]
    rfl
  | case4 a b s h ih => rw [joinLines_consHead, ih]

/-- No line contains a CRLF. -/
theorem not_infix_of_mem_splitLines {s line : Bytes} (h : line ∈ splitLines s) :
    ¬ crlf <:+: line := by
  have hnil : ¬ crlf <:+: ([] : Bytes) := by decide
  fun_induction splitLines s generalizing line with
  | case1 =>
    obtain rfl : line = [] := by simpa using h
    exact hnil
  | case2 b =>
    obtain rfl : line = [b] := by simpa using h
    intro hin
    exact absurd hin.length_le (by simp [crlf])
  | case3 a b s hab ih =>
    rcases List.mem_cons.mp h with rfl | hmem
    · exact hnil
    · exact ih hmem
  | case4 a b s hab ih =>
    have hjoin := joinLines_splitLines (b :: s)
    rcases hs : splitLines (b :: s) with _ | ⟨l₀, ls⟩
    · exact absurd hs (splitLines_ne_nil _)
    rw [hs] at h ih hjoin
    rcases List.mem_cons.mp h with rfl | hmem
    · -- a CRLF in `a :: l₀` would have to start at `a`, so `b` would be a newline
      intro hin
      rcases List.infix_cons_iff.mp hin with hpre | hin
      · obtain ⟨rfl, hl₀⟩ := List.cons_prefix_cons.mp hpre
        obtain ⟨t, rfl⟩ := hl₀
        have hb : b = 10 := by
          rcases ls with _ | ⟨l₁, ls⟩ <;>
            simpa [joinLines] using (congrArg List.head? hjoin).symm
        exact hab ⟨rfl, hb⟩
      · exact ih (by simp) hin
    · exact ih (by simp [hmem])

theorem splitLines_writeLines (lines : List Bytes) (s : Bytes) :
    splitLines (writeLines lines ++ s) = lines.flatMap splitLines ++ splitLines s := by
  induction lines with
  | nil => rfl
  | cons line lines ih =>
    have hsplit : writeLines (line :: lines) ++ s = line ++ crlf ++ (writeLines lines ++ s) := by
      simp [writeLines]
    rw [hsplit, splitLines_append, ih]
    simp

theorem flatMap_splitLines {lines : List Bytes} (h : ∀ line ∈ lines, ¬ crlf <:+: line) :
    lines.flatMap splitLines = lines := by
  induction lines with
  | nil => rfl
  | cons line lines ih =>
    rw [List.flatMap_cons, splitLines_oneLine (h line (by simp)),
      ih fun l hl => h l (by simp [hl])]
    rfl

theorem joinLines_append {ls ms : List Bytes} (hl : ls ≠ []) (hm : ms ≠ []) :
    joinLines (ls ++ ms) = joinLines ls ++ crlf ++ joinLines ms := by
  induction ls with
  | nil => exact absurd rfl hl
  | cons line ls ih =>
    by_cases hls : ls = []
    · subst hls
      exact joinLines_cons line hm
    · have hne : ls ++ ms ≠ [] := by simp [hls]
      rw [List.cons_append, joinLines_cons _ hne, ih hls, joinLines_cons _ hls]
      simp

theorem writeLines_eq_joinLines {lines : List Bytes} (h : lines ≠ []) :
    writeLines lines = joinLines lines ++ crlf := by
  induction lines with
  | nil => exact absurd rfl h
  | cons line lines ih =>
    by_cases hlines : lines = []
    · simp [hlines, writeLines, joinLines]
    · rw [joinLines_cons _ hlines, List.append_assoc, ← ih hlines]
      simp [writeLines]

/-- A text without CR contains no CRLF. -/
theorem not_infix_of_not_mem {x : Bytes} (h : (13 : UInt8) ∉ x) : ¬ crlf <:+: x := by
  intro hin
  exact h (hin.subset (by simp [crlf]))

theorem not_infix_decimal (n : Nat) : ¬ crlf <:+: decimal n := by
  apply not_infix_of_not_mem
  intro hmem
  exact absurd (isDigit_of_mem_decimal hmem) (by decide)

/-! ## The Blank Line -/

/-- The first blank line found by a text search ends the header lines. -/
theorem splitLines_of_find {m : Bytes} {e : Nat} (h : find blankLine m = some e) :
    splitLines m = splitLines (m.take e) ++ [] :: splitLines (m.drop (e + 4)) ∧
      [] ∉ (splitLines (m.take e)).tail := by
  have hm := find_split h
  have hlen : blankLine.length = 4 := rfl
  rw [hlen] at hm
  constructor
  · have hcut : m = m.take e ++ crlf ++ ([] ++ crlf ++ m.drop (e + 4)) := by
      conv => lhs; rw [hm]
      simp [blankLine]
    conv => lhs; rw [hcut]
    rw [splitLines_append, splitLines_append]
    rfl
  · intro hmem
    rcases hs : splitLines (m.take e) with _ | ⟨l₀, ls⟩
    · exact splitLines_ne_nil _ hs
    rw [hs] at hmem
    obtain ⟨pre, post, rfl⟩ := List.append_of_mem hmem
    -- an empty line inside the block is an earlier blank line
    have htake : m.take e = joinLines (l₀ :: pre) ++ crlf ++ joinLines ([] :: post) := by
      rw [← joinLines_append (by simp) (by simp), List.cons_append, ← hs, joinLines_splitLines]
    have hnext : ∃ t, joinLines ([] :: post) ++ blankLine ++ m.drop (e + 4) = crlf ++ t := by
      rcases post with _ | ⟨l₁, post⟩
      · exact ⟨crlf ++ m.drop (e + 4), by simp [joinLines, blankLine]⟩
      · exact ⟨joinLines (l₁ :: post) ++ blankLine ++ m.drop (e + 4), by simp [joinLines]⟩
    obtain ⟨t, ht⟩ := hnext
    have hm' : m = joinLines (l₀ :: pre) ++ (blankLine ++ t) := by
      conv => lhs; rw [hm, htake]
      simpa [blankLine] using ht
    have hearly : (joinLines (l₀ :: pre)).length < e := by
      have hle : (m.take e).length ≤ e := List.length_take_le e m
      rw [htake] at hle
      simp [crlf] at hle
      omega
    refine find_minimal h hearly ?_
    conv => rhs; rw [hm']
    simp

/-- An empty line among the later ones is a blank line of the text. -/
theorem nil_mem_tail_splitLines_iff {s : Bytes} (h : ¬ crlf <:+ s) :
    [] ∈ (splitLines s).tail ↔ blankLine <:+: s := by
  constructor
  · intro hmem
    rcases hs : splitLines s with _ | ⟨first, lines⟩
    · exact absurd hs (splitLines_ne_nil s)
    rw [hs] at hmem
    obtain ⟨pre, post, rfl⟩ := List.append_of_mem hmem
    have hjoin : s = joinLines (first :: pre) ++ crlf ++ joinLines ([] :: post) := by
      rw [← joinLines_append (by simp) (by simp), List.cons_append, ← hs, joinLines_splitLines]
    cases post with
    | nil => exact absurd ⟨joinLines (first :: pre), by simpa [joinLines] using hjoin.symm⟩ h
    | cons next post =>
      have hnext : joinLines ([] :: next :: post) = [] ++ crlf ++ joinLines (next :: post) :=
        joinLines_cons [] (by simp)
      rw [hnext] at hjoin
      exact ⟨joinLines (first :: pre), joinLines (next :: post), by rw [hjoin]; simp [blankLine]⟩
  · intro hin
    obtain ⟨e, he⟩ := Option.isSome_iff_exists.mp (find_isSome_iff.mpr hin)
    rw [(splitLines_of_find he).1, List.tail_append_of_ne_nil (splitLines_ne_nil _)]
    simp

/-- Reading a message whose lines are known. -/
theorem read_of_splitLines {m start : Bytes} {headers rest : List Bytes}
    (h : splitLines m = start :: headers ++ [] :: rest) (hne : [] ∉ headers) :
    headerLines m = headers ∧ content m = joinLines rest := by
  have hpos : ∀ line ∈ headers, decide (line ≠ []) = true := by
    intro line hl
    have hline : line ≠ [] := fun heq => hne (heq ▸ hl)
    simpa using hline
  unfold headerLines content
  rw [h, List.cons_append, List.tail_cons, List.takeWhile_append_of_pos hpos,
    List.dropWhile_append_of_pos hpos]
  simp

/-- Lines cut at the first empty one. -/
theorem cut_at_empty {lines : List Bytes} (h : [] ∈ lines) :
    lines = lines.takeWhile (· ≠ []) ++ [] :: (lines.dropWhile (· ≠ [])).tail := by
  induction lines with
  | nil => cases h
  | cons line lines ih =>
    by_cases hline : line = []
    · subst hline
      simp
    · have hrest : [] ∈ lines := (List.mem_cons.mp h).resolve_left (Ne.symm hline)
      rw [List.takeWhile_cons_of_pos (by simpa using hline),
        List.dropWhile_cons_of_pos (by simpa using hline), List.cons_append, ← ih hrest]

section

variable {m start : Bytes} {before lines after rest : List Bytes}

/-- Lines with an empty one among them end the header block they stand in. -/
theorem read_of_empty (h : splitLines m = start :: (before ++ lines ++ after) ++ rest)
    (hbefore : [] ∉ before) (hempty : [] ∈ lines) :
    headerLines m = before ++ lines.takeWhile (· ≠ []) ∧
      content m = joinLines ((lines.dropWhile (· ≠ [])).tail ++ after ++ rest) := by
  have hne : [] ∉ before ++ lines.takeWhile (· ≠ []) := by
    intro hmem
    rcases List.mem_append.mp hmem with hmem | hmem
    · exact hbefore hmem
    · simpa using List.mem_takeWhile_imp hmem
  have hcut : splitLines m = start :: (before ++ lines.takeWhile (· ≠ [])) ++
      [] :: ((lines.dropWhile (· ≠ [])).tail ++ after ++ rest) := by
    rw [h]
    conv => lhs; rw [cut_at_empty hempty]
    simp
  exact read_of_splitLines hcut hne

/-- Other lines leave the block as long as it was written. -/
theorem read_of_nonempty (h : splitLines m = start :: (before ++ lines ++ after) ++ [] :: rest)
    (hbefore : [] ∉ before) (hlines : [] ∉ lines) (hafter : [] ∉ after) :
    headerLines m = before ++ lines ++ after ∧ content m = joinLines rest := by
  have hne : [] ∉ before ++ lines ++ after := by
    simp [hbefore, hlines, hafter]
  exact read_of_splitLines h hne

end

theorem read_of_find {m : Bytes} {e : Nat} (h : find blankLine m = some e) :
    headerLines m = (splitLines (m.take e)).tail ∧ content m = m.drop (e + 4) := by
  obtain ⟨hs, hne⟩ := splitLines_of_find h
  rcases hl : splitLines (m.take e) with _ | ⟨l₀, ls⟩
  · exact absurd hl (splitLines_ne_nil _)
  rw [hl] at hs hne
  obtain ⟨hh, hc⟩ := read_of_splitLines hs hne
  exact ⟨hh, by rw [hc, joinLines_splitLines]⟩

/-- A written header block ends where its writer ended it. -/
theorem find_blankLine {start : Bytes} {headers : List Bytes} (body : Bytes)
    (hstart : ¬ crlf <:+: start) (h : ∀ line ∈ headers, line ≠ [] ∧ ¬ crlf <:+: line) :
    find blankLine (writeLines (start :: headers) ++ crlf ++ body) =
      some (joinLines (start :: headers)).length := by
  set m := writeLines (start :: headers) ++ crlf ++ body with hm
  have hlines : ∀ line ∈ start :: headers, ¬ crlf <:+: line := by
    intro line hl
    rcases List.mem_cons.mp hl with rfl | hl
    · exact hstart
    · exact (h line hl).2
  have hsplit : splitLines m = start :: headers ++ [] :: splitLines body := by
    have hcut : splitLines (crlf ++ body) = [] :: splitLines body := splitLines_append [] body
    rw [hm, List.append_assoc, splitLines_writeLines, flatMap_splitLines hlines, hcut]
  have hin : blankLine <:+: m := by
    refine ⟨joinLines (start :: headers), body, ?_⟩
    rw [hm, writeLines_eq_joinLines (by simp)]
    simp [blankLine]
  obtain ⟨e, he⟩ := Option.isSome_iff_exists.mp (find_isSome_iff.mpr hin)
  obtain ⟨hs, hne⟩ := splitLines_of_find he
  rcases hl : splitLines (m.take e) with _ | ⟨l₀, ls⟩
  · exact absurd hl (splitLines_ne_nil _)
  rw [hl] at hs hne
  -- both descriptions of the lines put the first empty line in the same place
  have hblock : ls = headers :=
    (read_of_splitLines hs hne).1.symm.trans
      (read_of_splitLines hsplit fun hmem => (h _ hmem).1 rfl).1
  have hhead : l₀ = start := by
    rw [hsplit] at hs
    exact (List.cons.inj hs).1.symm
  have htake : m.take e = joinLines (start :: headers) := by
    rw [← joinLines_splitLines (m.take e), hl, hblock, hhead]
  have hle := find_add_length_le he (by decide)
  rw [he, ← htake, List.length_take, Nat.min_eq_left (by omega)]

/-! ## Header Fields -/

/-- The name of a field line: what is in front of the colon. -/
def fieldName (line : Bytes) : Bytes := line.takeWhile (· ≠ 58)

/-- Whether a header line is a field called `name` (given in lower case); field
    names are compared case-insensitively. -/
def isField (name line : Bytes) : Bool := line.contains 58 && toLower (fieldName line) == name

/-- The value of a field line: what follows the colon, without surrounding blanks. -/
def fieldValue (line : Bytes) : Bytes :=
  strip (fun b => b == 32 || b == 9) (line.dropWhile (· ≠ 58)).tail

/-- The fields called `name` in the header block of a message. -/
def fields (name m : Bytes) : List Bytes := (headerLines m).filter (isField name)

end Message
