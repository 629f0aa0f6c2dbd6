import Mathlib.Data.List.Chain
import VeloxServe.Config.ConfigParser

/-! # The Layout of a Configuration

    How a list of tokens can be written as a text: whitespace and comments may
    stand in front of each token and after the last one, and must stand between
    two words. The tokenizer finds the tokens again whatever the layout is, each
    in the line it was written in.
-/

namespace VeloxServe

open StdString ConfigParser

/-! ## Layouts -/

namespace ConfigLayout

/-- One thing that separates tokens. -/
inductive Separator where
  | space (b : UInt8) (h : isSpace b = true)
  | comment (text : Bytes) (h : (10 : UInt8) ∉ text)

def Separator.text : Separator → Bytes
  | .space b _ => [b]
  | .comment text _ => 35 :: (text ++ [10])

abbrev Gap : Type := List Separator

def Gap.text (gap : Gap) : Bytes := gap.flatMap Separator.text

/-- A word is written in bytes that go on with a word. -/
def IsWritten : Lexeme → Prop
  | .word w => ∀ b ∈ w.val, isWordByte b = true
  | _ => True

/-- Two words need something between them. -/
def Apart (first second : Gap × Lexeme) : Prop :=
  first.2.type = .word → second.2.type = .word → second.1 ≠ []

/-- **A layout**: tokens with what stands in front of them, and the end of the text. -/
structure Layout where
  items : List (Gap × Lexeme)
  written : ∀ item ∈ items, IsWritten item.2
  apart : items.IsChain Apart
  trailing : Gap
  /-- A comment that the text ends in. -/
  unfinished : Option { text : Bytes // (10 : UInt8) ∉ text }

def itemsText (items : List (Gap × Lexeme)) : Bytes :=
  items.flatMap fun item => Gap.text item.1 ++ item.2.value

namespace Layout

variable (l : Layout)

def endText : Bytes :=
  Gap.text l.trailing ++ match l.unfinished with
    | none => []
    | some comment => 35 :: comment.val

def text : Bytes := itemsText l.items ++ l.endText

/-- The tokens that were written. -/
def lexemes : List Lexeme := l.items.map Prod.snd

end Layout

/-- The number of the line that a text ends in. -/
def lineAfter (before : Bytes) : Int := 1 + before.count 10

/-- Tokens with the lines they stand in, when `before` stands in front of them. -/
def tokensAfter (before : Bytes) : List (Gap × Lexeme) → List Token
  | [] => []
  | (gap, lexeme) :: items =>
    ⟨lexeme, lineAfter (before ++ Gap.text gap)⟩ ::
      tokensAfter (before ++ Gap.text gap ++ lexeme.value) items

end ConfigLayout

/-! ## One Step of the Tokenizer -/

open ConfigLayout

section

variable {line : Int}

theorem tokenizeFrom_nil : tokenizeFrom line [] = [] := by
  rw [tokenizeFrom]

/-- Whitespace is passed over; a newline counts. -/
theorem tokenizeFrom_space {b : UInt8} (h : isSpace b = true) (rest : Bytes) :
    tokenizeFrom line (b :: rest) = tokenizeFrom (line + ([b].count 10 : Nat)) rest := by
  rw [tokenizeFrom]
  by_cases hnewline : b = 10
  · rw [if_pos hnewline, hnewline]
    rfl
  · rw [if_neg hnewline, dif_pos h, List.count_singleton]
    simp [hnewline]

/-- A comment is passed over up to its newline. -/
theorem tokenizeFrom_hash (rest : Bytes) :
    tokenizeFrom line (35 :: rest) = tokenizeFrom line (rest.dropWhile (· ≠ 10)) := by
  rw [tokenizeFrom, if_neg (by decide), dif_neg (by decide), dif_pos rfl]

theorem tokenizeFrom_comment {text : Bytes} (h : (10 : UInt8) ∉ text) (rest : Bytes) :
    tokenizeFrom line (35 :: (text ++ 10 :: rest)) = tokenizeFrom (line + 1) rest := by
  have hall : ∀ b ∈ text, decide (b ≠ 10) = true := by
    intro b hb
    have hne : b ≠ 10 := fun heq => h (heq ▸ hb)
    simpa using hne
  rw [tokenizeFrom_hash, List.dropWhile_append_of_pos hall, List.dropWhile_cons_of_neg (by simp),
    tokenizeFrom_space (by decide)]
  rfl

/-- A comment without a newline goes on to the end. -/
theorem tokenizeFrom_unfinished {text : Bytes} (h : (10 : UInt8) ∉ text) :
    tokenizeFrom line (35 :: text) = [] := by
  have hall : text.dropWhile (· ≠ 10) = [] := by
    rw [List.dropWhile_eq_nil_iff]
    intro b hb
    have hne : b ≠ 10 := fun heq => h (heq ▸ hb)
    simpa using hne
  rw [tokenizeFrom_hash, hall, tokenizeFrom_nil]

theorem tokenizeFrom_word {w : Word} (hw : ∀ b ∈ w.val, isWordByte b = true) {rest : Bytes}
    (hrest : ∀ b ∈ rest.head?, isWordByte b = false) :
    tokenizeFrom line (w.val ++ rest) = ⟨.word w, line⟩ :: tokenizeFrom line rest := by
  obtain ⟨s, hs⟩ := w
  obtain ⟨c, t, rfl⟩ := List.exists_cons_of_ne_nil hs.ne_nil
  have hc : isWordByte c = true := hw c List.mem_cons_self
  have ht : ∀ b ∈ t, isWordByte b = true := fun b hb => hw b (List.mem_cons_of_mem _ hb)
  -- the word ends where the rest begins
  have htake : rest.takeWhile isWordByte = [] ∧ rest.dropWhile isWordByte = rest := by
    cases rest with
    | nil => exact ⟨rfl, rfl⟩
    | cons b rest =>
      have hb := hrest b rfl
      simp [hb]
  have hword : (c :: (t ++ rest)).takeWhile isWordByte = c :: t := by
    rw [← List.cons_append, List.takeWhile_append_of_pos hw, htake.1, List.append_nil]
  have hafter : (t ++ rest).dropWhile isWordByte = rest := by
    rw [List.dropWhile_append_of_pos ht, htake.2]
  have hbyte := hc
  unfold isWordByte at hbyte
  simp only [Bool.and_eq_true, Bool.not_eq_true', decide_eq_true_eq] at hbyte
  obtain ⟨⟨⟨⟨hspace, hlbrace⟩, hrbrace⟩, hsemicolon⟩, hhash⟩ := hbyte
  have hnewline : c ≠ 10 := by
    intro heq
    rw [heq] at hspace
    exact absurd hspace (by decide)
  show tokenizeFrom line (c :: (t ++ rest)) = _
  rw [tokenizeFrom, if_neg hnewline, dif_neg (by simp [hspace]), dif_neg hhash, dif_neg hlbrace,
    dif_neg hrbrace, dif_neg hsemicolon]
  simp only [hword, hafter]

/-- **A lexeme is read as one token**, where no word can go on behind it. -/
theorem tokenizeFrom_lexeme {lexeme : Lexeme} (hwritten : IsWritten lexeme) {rest : Bytes}
    (hrest : lexeme.type = .word → ∀ b ∈ rest.head?, isWordByte b = false) :
    tokenizeFrom line (lexeme.value ++ rest) = ⟨lexeme, line⟩ :: tokenizeFrom line rest := by
  cases lexeme with
  | word w => exact tokenizeFrom_word hwritten (hrest rfl)
  | lbrace =>
    show tokenizeFrom line (123 :: rest) = _
    rw [tokenizeFrom, if_neg (by decide), dif_neg (by decide), dif_neg (by decide), dif_pos rfl]
  | rbrace =>
    show tokenizeFrom line (125 :: rest) = _
    rw [tokenizeFrom, if_neg (by decide), dif_neg (by decide), dif_neg (by decide),
      dif_neg (by decide), dif_pos rfl]
  | semicolon =>
    show tokenizeFrom line (59 :: rest) = _
    rw [tokenizeFrom, if_neg (by decide), dif_neg (by decide), dif_neg (by decide),
      dif_neg (by decide), dif_neg (by decide), dif_pos rfl]

theorem tokenizeFrom_separator (separator : Separator) (rest : Bytes) :
    tokenizeFrom line (separator.text ++ rest) =
      tokenizeFrom (line + (separator.text.count 10 : Nat)) rest := by
  cases separator with
  | space b h => exact tokenizeFrom_space h rest
  | comment text h =>
    have hone : (Separator.comment text h).text.count 10 = 1 := by
      show (35 :: (text ++ [10])).count 10 = 1
      rw [List.count_cons, List.count_append, List.count_eq_zero.mpr h]
      rfl
    have hcut : (Separator.comment text h).text ++ rest = 35 :: (text ++ 10 :: rest) := by
      simp [Separator.text]
    rw [hone, hcut]
    exact tokenizeFrom_comment h rest

theorem tokenizeFrom_gap (gap : Gap) (rest : Bytes) :
    tokenizeFrom line (Gap.text gap ++ rest) =
      tokenizeFrom (line + ((Gap.text gap).count 10 : Nat)) rest := by
  induction gap generalizing line with
  | nil => simp [Gap.text]
  | cons separator gap ih =>
    have hcons : Gap.text (separator :: gap) = separator.text ++ Gap.text gap := rfl
    rw [hcons, List.append_assoc, tokenizeFrom_separator, ih, List.count_append]
    push_cast
    rw [Int.add_assoc]

end

/-! ## Where a Word Ends -/

theorem Separator.head (separator : Separator) (rest : Bytes) :
    ∀ b ∈ (separator.text ++ rest).head?, isWordByte b = false := by
  intro b hb
  cases separator with
  | space c h =>
    obtain rfl := Option.some.inj hb
    simp [isWordByte, h]
  | comment text h =>
    obtain rfl := Option.some.inj hb
    decide

/-- No word goes on behind a gap with something in it. -/
theorem gap_head {gap : Gap} (h : gap ≠ []) (rest : Bytes) :
    ∀ b ∈ (Gap.text gap ++ rest).head?, isWordByte b = false := by
  obtain ⟨separator, gap, rfl⟩ := List.exists_cons_of_ne_nil h
  have hcons : Gap.text (separator :: gap) ++ rest = separator.text ++ (Gap.text gap ++ rest) :=
    List.append_assoc _ _ _
  rw [hcons]
  exact Separator.head separator _

/-- Nor does it behind a token that is no word. -/
theorem lexeme_head {lexeme : Lexeme} (h : lexeme.type ≠ .word) (rest : Bytes) :
    ∀ b ∈ (lexeme.value ++ rest).head?, isWordByte b = false := by
  intro b hb
  cases lexeme with
  | word w => exact absurd rfl h
  | lbrace =>
    obtain rfl := Option.some.inj hb
    decide
  | rbrace =>
    obtain rfl := Option.some.inj hb
    decide
  | semicolon =>
    obtain rfl := Option.some.inj hb
    decide

namespace ConfigLayout.Layout

theorem endText_head (l : Layout) : ∀ b ∈ l.endText.head?, isWordByte b = false := by
  unfold endText
  by_cases hgap : l.trailing = []
  · rw [hgap]
    cases l.unfinished with
    | none => exact fun b hb => by cases hb
    | some comment =>
      intro b hb
      obtain rfl := Option.some.inj hb
      decide
  · exact gap_head hgap _

/-- No word goes on at the end of a text, or where the next token is kept apart. -/
theorem itemsText_head (l : Layout) {first : Gap × Lexeme} {items : List (Gap × Lexeme)}
    (hapart : (first :: items).IsChain Apart) (hword : first.2.type = .word) :
    ∀ b ∈ (itemsText items ++ l.endText).head?, isWordByte b = false := by
  cases items with
  | nil => exact l.endText_head
  | cons second items =>
    obtain ⟨gap, lexeme⟩ := second
    have happart := (List.isChain_cons_cons.mp hapart).1
    have hcons : itemsText ((gap, lexeme) :: items) ++ l.endText =
        Gap.text gap ++ (lexeme.value ++ (itemsText items ++ l.endText)) := by
      simp [itemsText]
    rw [hcons]
    by_cases hsecond : lexeme.type = .word
    · exact gap_head (happart hword hsecond) _
    · by_cases hgap : gap = []
      · rw [hgap]
        exact lexeme_head hsecond _
      · exact gap_head hgap _

/-! ## The Tokens of a Layout -/

theorem tokenizeFrom_endText (l : Layout) (line : Int) : tokenizeFrom line l.endText = [] := by
  unfold endText
  rw [tokenizeFrom_gap]
  cases l.unfinished with
  | none => exact tokenizeFrom_nil
  | some comment => exact tokenizeFrom_unfinished comment.property

theorem count_value {lexeme : Lexeme} (h : IsWritten lexeme) : lexeme.value.count 10 = 0 := by
  cases lexeme with
  | word w =>
    refine List.count_eq_zero.mpr fun hmem => ?_
    exact absurd (h 10 hmem) (by decide)
  | lbrace => decide
  | rbrace => decide
  | semicolon => decide

theorem lineAfter_append (before text : Bytes) :
    lineAfter (before ++ text) = lineAfter before + (text.count 10 : Nat) := by
  unfold lineAfter
  rw [List.count_append]
  omega

/-- A token has no newline in it. -/
theorem lineAfter_value {lexeme : Lexeme} (h : IsWritten lexeme) (before : Bytes) :
    lineAfter (before ++ lexeme.value) = lineAfter before := by
  rw [lineAfter_append, count_value h]
  exact Int.add_zero _

theorem tokensAfter_lexemes (items : List (Gap × Lexeme)) (before : Bytes) :
    (tokensAfter before items).map Token.lexeme = items.map Prod.snd := by
  induction items generalizing before with
  | nil => rfl
  | cons item items ih =>
    show item.2 :: (tokensAfter _ items).map Token.lexeme = _
    rw [ih]
    rfl

/-- The tokenizer reads item after item, and counts the newlines in front of each. -/
theorem tokenizeFrom_itemsText (l : Layout) {items : List (Gap × Lexeme)} (before : Bytes)
    (hwritten : ∀ item ∈ items, IsWritten item.2) (hapart : items.IsChain Apart) :
    tokenizeFrom (lineAfter before) (itemsText items ++ l.endText) = tokensAfter before items := by
  induction items generalizing before with
  | nil => exact l.tokenizeFrom_endText _
  | cons item items ih =>
    obtain ⟨gap, lexeme⟩ := item
    have hlexeme : IsWritten lexeme := hwritten _ List.mem_cons_self
    have hcons : itemsText ((gap, lexeme) :: items) ++ l.endText =
        Gap.text gap ++ (lexeme.value ++ (itemsText items ++ l.endText)) := by
      simp [itemsText]
    have hrest := ih (before ++ Gap.text gap ++ lexeme.value)
      (fun item hitem => hwritten item (List.mem_cons_of_mem _ hitem)) hapart.tail
    rw [lineAfter_value hlexeme] at hrest
    rw [hcons, tokenizeFrom_gap, ← lineAfter_append,
      tokenizeFrom_lexeme hlexeme fun hword => l.itemsText_head hapart hword, hrest]
    rfl

theorem tokenize_eq (l : Layout) : tokenize l.text = tokensAfter [] l.items := by
  have hstart : lineAfter [] = 1 := rfl
  unfold tokenize text
  rw [← hstart]
  exact l.tokenizeFrom_itemsText [] l.written l.apart

theorem tokenize_lexemes (l : Layout) : (tokenize l.text).map Token.lexeme = l.lexemes := by
  rw [l.tokenize_eq]
  exact tokensAfter_lexemes l.items []

/-- **Every layout is read as the tokens that were written in it**, each in the
    line that its text stands in. -/
theorem tokenize_text (l : Layout) :
    tokenize l.text = tokensAfter [] l.items ∧ (tokenize l.text).map Token.lexeme = l.lexemes :=
  ⟨l.tokenize_eq, l.tokenize_lexemes⟩

end ConfigLayout.Layout

end VeloxServe
