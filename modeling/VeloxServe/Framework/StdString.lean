import Mathlib.Algebra.Group.Int.Defs
import Mathlib.Algebra.Group.Nat.Defs
import Mathlib.Data.List.Infix
import Mathlib.Data.List.TakeDrop
import Mathlib.Data.List.TakeWhile

/-! # The C++ String Library on Byte Lists

    `std::string` and the parts of `<cctype>`, `<sstream>` and `<string>` that
    text-handling C++ code rests on, as functions on lists of bytes:

    * searching (`find`), with the facts a caller of `find` and `substr` needs;
    * the "C" locale character classes and `tolower`;
    * `std::getline` and `operator>>` on an input string stream;
    * `std::to_string`, `std::stoul` and `std::stoi`.
-/

namespace StdString

/-- The bytes of a `std::string`. -/
abbrev Bytes : Type := List UInt8

/-- Statements about every byte can be decided by going through the 256 bytes. -/
instance decidableForallByte (p : UInt8 → Prop) [DecidablePred p] : Decidable (∀ b, p b) :=
  decidable_of_iff (∀ n : Fin 256, p (UInt8.ofFin n))
    ⟨fun h b => by simpa using h b.toFin, fun h n => h _⟩

/-- Statements about the bytes of a string need only these. -/
instance decidableForallMem (p : UInt8 → Prop) [DecidablePred p] (s : Bytes) :
    Decidable (∀ b ∈ s, p b) := s.decidableBAll p

/-- Membership in a list of strings is decided by comparing. -/
instance decidableMem (s : Bytes) (lines : List Bytes) : Decidable (s ∈ lines) :=
  inferInstanceAs (Decidable (s ∈ lines))

/-- A source string literal, encoded as the compiler does (UTF-8). -/
def bytes (s : String) : Bytes := s.toList.flatMap String.utf8EncodeChar

/-! ## Searching -/

/-- `s.find(pat)`: the first position of `pat` in `s`, `none` for `npos`. -/
def find (pat : Bytes) : Bytes → Option Nat
  | [] => if pat = [] then some 0 else none
  | b :: s => if pat.isPrefixOf (b :: s) then some 0 else (find pat s).map (· + 1)

theorem find_cons (pat : Bytes) (b : UInt8) (s : Bytes) :
    find pat (b :: s) =
      if pat <+: b :: s then some 0 else (find pat s).map (· + 1) := by
  simp [find]

theorem find_of_prefix {pat s : Bytes} (h : pat <+: s) : find pat s = some 0 := by
  cases s with
  | nil => simp [find, List.prefix_nil.mp h]
  | cons b s => simp [find_cons, h]

/-- A found position is an occurrence. -/
theorem find_spec {pat s : Bytes} {i : Nat} (h : find pat s = some i) : pat <+: s.drop i := by
  induction s generalizing i with
  | nil =>
    simp only [find] at h
    split at h
    · next hpat => simp [hpat]
    · cases h
  | cons b s ih =>
    rw [find_cons] at h
    split at h
    · next hpre =>
      obtain rfl : 0 = i := Option.some.inj h
      simpa using hpre
    · obtain ⟨j, hj, rfl⟩ := Option.map_eq_some_iff.mp h
      simpa using ih hj

/-- No occurrence starts before a found position. -/
theorem find_minimal {pat s : Bytes} {i j : Nat} (h : find pat s = some i) (hj : j < i) :
    ¬ pat <+: s.drop j := by
  induction s generalizing i j with
  | nil =>
    simp only [find] at h
    split at h
    · obtain rfl : 0 = i := Option.some.inj h
      omega
    · cases h
  | cons b s ih =>
    rw [find_cons] at h
    split at h
    · obtain rfl : 0 = i := Option.some.inj h
      omega
    · next hpre =>
      obtain ⟨k, hk, rfl⟩ := Option.map_eq_some_iff.mp h
      cases j with
      | zero => simpa using hpre
      | succ j => simpa using ih hk (by omega)

theorem find_add_length_le {pat s : Bytes} {i : Nat} (h : find pat s = some i)
    (hpat : pat ≠ []) : i + pat.length ≤ s.length := by
  have hle := (find_spec h).length_le
  have hpos : 0 < pat.length := List.length_pos_iff.mpr hpat
  rw [List.length_drop] at hle
  omega

/-- The text splits at a found position. -/
theorem find_split {pat s : Bytes} {i : Nat} (h : find pat s = some i) :
    s = s.take i ++ pat ++ s.drop (i + pat.length) := by
  obtain ⟨t, ht⟩ := find_spec h
  have hdrop : s.drop (i + pat.length) = t := by
    rw [← List.drop_drop, ← ht, List.drop_left]
  rw [hdrop, List.append_assoc, ht, List.take_append_drop]

theorem find_eq_none_iff {pat s : Bytes} : find pat s = none ↔ ¬ pat <:+: s := by
  induction s with
  | nil => by_cases h : pat = [] <;> simp [find, h]
  | cons b s ih =>
    rw [find_cons, List.infix_cons_iff]
    by_cases h : pat <+: b :: s
    · simp [h]
    · simp [h, ih]

theorem find_isSome_iff {pat s : Bytes} : (find pat s).isSome ↔ pat <:+: s := by
  rw [← not_iff_not, ← find_eq_none_iff]
  cases find pat s <;> simp

/-- **Stability under extension**: bytes that arrive later do not move the
    first occurrence. -/
theorem find_append {pat s : Bytes} {i : Nat} (t : Bytes) (h : find pat s = some i) :
    find pat (s ++ t) = some i := by
  induction s generalizing i with
  | nil =>
    simp only [find] at h
    split at h
    · next hpat =>
      obtain rfl : 0 = i := Option.some.inj h
      exact find_of_prefix (by simp [hpat])
    · cases h
  | cons b s ih =>
    rw [find_cons] at h
    rw [List.cons_append, find_cons]
    split at h
    · next hpre =>
      have hp : pat <+: b :: (s ++ t) := hpre.trans (List.prefix_append (b :: s) t)
      rw [if_pos hp]
      exact h
    · next hpre =>
      obtain ⟨j, hj, rfl⟩ := Option.map_eq_some_iff.mp h
      have hlen := (find_spec hj).length_le
      have hno : ¬ pat <+: b :: (s ++ t) := by
        intro hp
        apply hpre
        by_cases hnil : pat = []
        · simp [hnil]
        · have hle := find_add_length_le hj hnil
          refine List.prefix_of_prefix_length_le hp (List.prefix_append (b :: s) t) ?_
          simp only [List.length_cons]
          omega
      rw [if_neg hno, ih hj]
      rfl

/-- Nothing in front of the first occurrence contains another one. -/
theorem not_infix_take_of_find {pat s : Bytes} {i : Nat} (h : find pat s = some i)
    (hpat : pat ≠ []) : ¬ pat <:+: s.take i := by
  intro hin
  obtain ⟨j, hj⟩ := Option.isSome_iff_exists.mp (find_isSome_iff.mpr hin)
  have hlen := find_add_length_le hj hpat
  have hpos : 0 < pat.length := List.length_pos_iff.mpr hpat
  have hfound := find_append (s.drop i) hj
  rw [List.take_append_drop, h] at hfound
  obtain rfl : i = j := Option.some.inj hfound
  have htake : (s.take i).length ≤ i := List.length_take_le i s
  omega

/-- No occurrence of a text goes across a byte it does not contain. -/
theorem infix_append_cons {pat x y : Bytes} {b : UInt8} (hb : b ∉ pat)
    (h : pat <:+: x ++ b :: y) : pat <:+: x ∨ pat <:+: y := by
  rcases List.infix_append_iff.mp h with hx | hy | ⟨left, right, rfl, hleft, hright⟩
  · exact .inl hx
  · rcases List.infix_cons_iff.mp hy with hpre | hy
    · cases pat with
      | nil => exact .inl (List.nil_infix)
      | cons c pat =>
        obtain ⟨rfl, -⟩ := List.cons_prefix_cons.mp hpre
        exact absurd List.mem_cons_self hb
    · exact .inr hy
  · -- the part that reaches into `b :: y` would begin with `b`
    cases right with
    | nil =>
      rw [List.append_nil]
      exact .inl hleft.isInfix
    | cons c right =>
      obtain ⟨rfl, -⟩ := List.cons_prefix_cons.mp hright
      exact absurd (List.mem_append_right left List.mem_cons_self) hb

/-- The first occurrence of a single byte. -/
theorem find_singleton {c : UInt8} {a : Bytes} (b : Bytes) (h : c ∉ a) :
    find [c] (a ++ c :: b) = some a.length := by
  induction a with
  | nil => exact find_of_prefix (by simp)
  | cons x a ih =>
    obtain ⟨hx, ha⟩ : c ≠ x ∧ c ∉ a := by simpa using h
    have hno : ¬ [c] <+: x :: (a ++ c :: b) := by
      intro hp
      exact hx (List.cons_prefix_cons.mp hp).1
    rw [List.cons_append, find_cons, if_neg hno, ih ha]
    rfl

theorem find_singleton_eq_none {c : UInt8} {s : Bytes} : find [c] s = none ↔ c ∉ s := by
  rw [find_eq_none_iff, List.singleton_infix_iff]

/-- A byte search splits the text at the first such byte. -/
theorem find_singleton_split {c : UInt8} {s : Bytes} {i : Nat} (h : find [c] s = some i) :
    ∃ a b, s = a ++ c :: b ∧ c ∉ a ∧ i = a.length := by
  induction s generalizing i with
  | nil => simp [find] at h
  | cons x s ih =>
    rw [find_cons] at h
    by_cases hx : c = x
    · subst hx
      rw [if_pos (by simp)] at h
      exact ⟨[], s, rfl, by simp, by simpa using h.symm⟩
    · rw [if_neg (fun hp => hx (List.cons_prefix_cons.mp hp).1)] at h
      obtain ⟨j, hj, rfl⟩ := Option.map_eq_some_iff.mp h
      obtain ⟨a, b, rfl, ha, rfl⟩ := ih hj
      exact ⟨x :: a, b, rfl, by simp [hx, ha], rfl⟩

/-! ## Character classes of the "C" locale -/

/-- `std::isspace`: tab, newline, vertical tab, form feed, carriage return, space. -/
def isSpace (b : UInt8) : Bool := b == 32 || (9 ≤ b && b ≤ 13)

/-- `std::isdigit`. -/
def isDigit (b : UInt8) : Bool := 48 ≤ b && b ≤ 57

/-- `std::isxdigit`. -/
def isXDigit (b : UInt8) : Bool :=
  isDigit b || (65 ≤ b && b ≤ 70) || (97 ≤ b && b ≤ 102)

/-- The value of a hexadecimal digit. -/
def hexValue (b : UInt8) : UInt8 :=
  if isDigit b then b - 48 else if 97 ≤ b then b - 87 else b - 55

/-- `::tolower` on one character. -/
def toLowerByte (b : UInt8) : UInt8 := if 65 ≤ b && b ≤ 90 then b + 32 else b

/-- `std::transform(..., ::tolower)`. -/
def toLower (s : Bytes) : Bytes := s.map toLowerByte

theorem toLowerByte_idem (b : UInt8) : toLowerByte (toLowerByte b) = toLowerByte b := by
  revert b
  decide +kernel

@[simp] theorem toLower_toLower (s : Bytes) : toLower (toLower s) = toLower s := by
  simp [toLower, toLowerByte_idem]

/-- Strip the bytes of `blank` from both ends. -/
def strip (blank : UInt8 → Bool) (s : Bytes) : Bytes :=
  ((s.dropWhile blank).reverse.dropWhile blank).reverse

/-- Neither end is blank. -/
structure Stripped (blank : UInt8 → Bool) (s : Bytes) : Prop where
  first : ∀ b ∈ s.head?, blank b = false
  last : ∀ b ∈ s.getLast?, blank b = false

section Strip

variable {blank : UInt8 → Bool} {s : Bytes}

theorem dropWhile_head (p : UInt8 → Bool) (s : Bytes) : ∀ b ∈ (s.dropWhile p).head?, p b = false := by
  intro b hb
  have hnot := List.head?_dropWhile_not p s
  rw [hb] at hnot
  simpa using hnot

theorem dropWhile_eq_self {p : UInt8 → Bool} (h : ∀ b ∈ s.head?, p b = false) :
    s.dropWhile p = s := by
  cases s with
  | nil => rfl
  | cons b s => exact List.dropWhile_cons_of_neg (by simp [h b rfl])

theorem strip_sublist (blank : UInt8 → Bool) (s : Bytes) : (strip blank s).Sublist s := by
  have h : (strip blank s).reverse.Sublist (s.dropWhile blank).reverse := by
    unfold strip
    rw [List.reverse_reverse]
    exact List.dropWhile_sublist _
  exact (List.reverse_sublist.mp h).trans (List.dropWhile_sublist _)

theorem strip_stripped (blank : UInt8 → Bool) (s : Bytes) : Stripped blank (strip blank s) where
  last := by
    unfold strip
    rw [List.getLast?_reverse]
    exact dropWhile_head blank _
  first := by
    intro b hb
    obtain ⟨t, ht⟩ : (strip blank s) <+: s.dropWhile blank := by
      unfold strip
      rw [← List.reverse_suffix, List.reverse_reverse]
      exact List.dropWhile_suffix _
    apply dropWhile_head blank s b
    rw [← ht, List.head?_append, hb]
    rfl

theorem Stripped.strip_eq (h : Stripped blank s) : strip blank s = s := by
  unfold strip
  have hlast : ∀ b ∈ s.reverse.head?, blank b = false := by
    rw [List.head?_reverse]
    exact h.last
  rw [dropWhile_eq_self h.first, dropWhile_eq_self hlast, List.reverse_reverse]

theorem strip_cons {b : UInt8} (hb : blank b = true) (s : Bytes) :
    strip blank (b :: s) = strip blank s := by
  unfold strip
  rw [List.dropWhile_cons_of_pos hb]

theorem dropWhile_congr {p q : UInt8 → Bool} (h : ∀ b ∈ s, p b = q b) :
    s.dropWhile p = s.dropWhile q := by
  induction s with
  | nil => rfl
  | cons b s ih =>
    rw [List.dropWhile_cons, List.dropWhile_cons, h b List.mem_cons_self,
      ih fun c hc => h c (List.mem_cons_of_mem _ hc)]

theorem strip_congr {p q : UInt8 → Bool} (h : ∀ b ∈ s, p b = q b) : strip p s = strip q s := by
  unfold strip
  rw [dropWhile_congr h]
  congr 1
  apply dropWhile_congr
  intro b hb
  exact h b ((List.dropWhile_suffix q).subset (List.mem_reverse.mp hb))

theorem Stripped.map {f : UInt8 → UInt8} (hf : ∀ b, blank (f b) = blank b) (h : Stripped blank s) :
    Stripped blank (s.map f) where
  first := by
    intro b hb
    rw [List.head?_map] at hb
    obtain ⟨a, ha, rfl⟩ := Option.map_eq_some_iff.mp hb
    rw [hf]
    exact h.first a ha
  last := by
    intro b hb
    rw [List.getLast?_map] at hb
    obtain ⟨a, ha, rfl⟩ := Option.map_eq_some_iff.mp hb
    rw [hf]
    exact h.last a ha

end Strip

/-! ## Input string streams -/

/-- The lines `std::getline(stream, line, delim)` reads one after another: a
    delimiter at the very end does not open another line. -/
def getlines (delim : UInt8) : Bytes → List Bytes
  | [] => []
  | b :: s =>
    if b = delim then [] :: getlines delim s
    else match getlines delim s with
      | [] => [[b]]
      | line :: lines => (b :: line) :: lines

/-- `stream >> word`: skip blanks, then read up to the next blank; `none` when
    the stream fails because nothing is left. -/
def extractWord (s : Bytes) : Option (Bytes × Bytes) :=
  let rest := s.dropWhile isSpace
  match rest with
  | [] => none
  | _ :: _ => some (rest.takeWhile (!isSpace ·), rest.dropWhile (!isSpace ·))

theorem getlines_cons (delim b : UInt8) (s : Bytes) :
    getlines delim (b :: s) =
      if b = delim then [] :: getlines delim s
      else match getlines delim s with
        | [] => [[b]]
        | line :: lines => (b :: line) :: lines := rfl

theorem getlines_append {delim : UInt8} {line : Bytes} (h : delim ∉ line) (rest : Bytes) :
    getlines delim (line ++ delim :: rest) = line :: getlines delim rest := by
  induction line with
  | nil => simp [getlines_cons]
  | cons b line ih =>
    obtain ⟨hb, hline⟩ : delim ≠ b ∧ delim ∉ line := by simpa using h
    rw [List.cons_append, getlines_cons, if_neg hb.symm, ih hline]

theorem getlines_of_not_mem {delim : UInt8} {line : Bytes} (h : delim ∉ line) :
    getlines delim line = if line = [] then [] else [line] := by
  induction line with
  | nil => rfl
  | cons b line ih =>
    obtain ⟨hb, hline⟩ : delim ≠ b ∧ delim ∉ line := by simpa using h
    rw [getlines_cons, if_neg hb.symm, ih hline]
    by_cases hnil : line = [] <;> simp [hnil]

/-- No line contains the delimiter. -/
theorem not_mem_of_mem_getlines {delim : UInt8} {s line : Bytes} (h : line ∈ getlines delim s) :
    delim ∉ line := by
  induction s generalizing line with
  | nil => cases h
  | cons b s ih =>
    rw [getlines_cons] at h
    split at h
    · rcases List.mem_cons.mp h with rfl | h
      · exact List.not_mem_nil
      · exact ih h
    · next hb =>
      have hne : delim ≠ b := fun h' => hb h'.symm
      split at h
      · obtain rfl := List.mem_singleton.mp h
        simpa using hne
      · next first lines heq =>
        rw [heq] at ih
        rcases List.mem_cons.mp h with rfl | h
        · have hfirst := ih List.mem_cons_self
          simp [hne, hfirst]
        · exact ih (List.mem_cons_of_mem _ h)

/-- An extracted word is not empty and has no blanks. -/
theorem extractWord_word {s word rest : Bytes} (h : extractWord s = some (word, rest)) :
    word ≠ [] ∧ ∀ b ∈ word, isSpace b = false := by
  unfold extractWord at h
  dsimp only at h
  split at h
  · cases h
  · next b t heq =>
    obtain ⟨rfl, -⟩ := Prod.mk.inj (Option.some.inj h)
    have hb : isSpace b = false := dropWhile_head isSpace s b (by rw [heq]; rfl)
    rw [heq]
    refine ⟨by simp [hb], fun c hc => ?_⟩
    simpa using List.mem_takeWhile_imp hc

theorem extractWord_space {b : UInt8} (hb : isSpace b = true) (s : Bytes) :
    extractWord (b :: s) = extractWord s := by
  unfold extractWord
  rw [List.dropWhile_cons_of_pos hb]

/-- A word in front of a blank or of the end is extracted. -/
theorem extractWord_append {word rest : Bytes} (hne : word ≠ [])
    (hword : ∀ b ∈ word, isSpace b = false) (hrest : ∀ b ∈ rest.head?, isSpace b = true) :
    extractWord (word ++ rest) = some (word, rest) := by
  cases word with
  | nil => exact absurd rfl hne
  | cons b word =>
    have hskip : ((b :: word) ++ rest).dropWhile isSpace = (b :: word) ++ rest :=
      dropWhile_eq_self fun c hc => hword c (by simpa using Or.inl hc.symm)
    have hpos : ∀ c ∈ b :: word, (!isSpace c) = true := fun c hc => by simp [hword c hc]
    have hstop : ∀ c ∈ rest.head?, (!isSpace c) = false := fun c hc => by simp [hrest c hc]
    unfold extractWord
    rw [hskip, List.cons_append]
    dsimp only
    rw [← List.cons_append, List.takeWhile_append_of_pos hpos, List.dropWhile_append_of_pos hpos,
      dropWhile_eq_self hstop]
    cases rest with
    | nil => simp
    | cons c rest => simp [hrest c rfl]

/-! ## Numbers -/

/-- `std::to_string` of an unsigned number. -/
def decimal (n : Nat) : Bytes := (Nat.toDigits 10 n).map fun c => c.toNat.toUInt8

/-- `std::to_string` of an `int`. -/
def intDecimal : Int → Bytes
  | .ofNat n => decimal n
  | .negSucc n => 45 :: decimal (n + 1)

theorem isDigit_of_mem_decimal {n : Nat} {b : UInt8} (h : b ∈ decimal n) : isDigit b := by
  obtain ⟨c, hc, rfl⟩ := List.mem_map.mp h
  have hdigit := Nat.isDigit_of_mem_toDigits (by decide) (by decide) hc
  rw [Char.isDigit_iff_toNat] at hdigit
  obtain ⟨hlo, hhi⟩ : 48 ≤ c.toNat ∧ c.toNat ≤ 57 := hdigit
  have hlt : c.toNat < 256 := by omega
  have hval : (c.toNat.toUInt8).toNat = c.toNat := by
    simpa using Nat.mod_eq_of_lt hlt
  simp only [isDigit, Bool.and_eq_true, decide_eq_true_eq, UInt8.le_iff_toNat_le, hval]
  exact ⟨hlo, hhi⟩

/-- A printed `int` consists of digits and at most a minus sign. -/
theorem mem_intDecimal {i : Int} {b : UInt8} (h : b ∈ intDecimal i) : b = 45 ∨ isDigit b := by
  cases i with
  | ofNat n => exact .inr (isDigit_of_mem_decimal h)
  | negSucc n =>
    rcases List.mem_cons.mp h with rfl | hmem
    · exact .inl rfl
    · exact .inr (isDigit_of_mem_decimal hmem)

/-- The two exceptions the number conversions throw. -/
inductive ConversionError where
  | invalidArgument
  | outOfRange
  deriving DecidableEq, Repr

/-- The number written by decimal digits. -/
def digitsValue (ds : Bytes) : Nat := ds.foldl (fun n b => 10 * n + (b - 48).toNat) 0

/-- What `strtol` and `strtoul` read: blanks, a sign, then as many digits as there
    are. `none` when there is no digit. -/
def scanInteger (s : Bytes) : Option (Bool × Nat) :=
  let s := s.dropWhile isSpace
  let (negative, s) := match s with
    | [] => (false, [])
    | b :: t => if b = 45 then (true, t) else if b = 43 then (false, t) else (false, b :: t)
  let ds := s.takeWhile isDigit
  if ds = [] then none else some (negative, digitsValue ds)

/-- `std::stoul` on a 64-bit `unsigned long`: a minus sign negates modulo `2^64`. -/
def stoul (s : Bytes) : Except ConversionError Nat :=
  match scanInteger s with
  | none => .error .invalidArgument
  | some (negative, n) =>
    if 2 ^ 64 ≤ n then .error .outOfRange
    else .ok (if negative then (2 ^ 64 - n) % 2 ^ 64 else n)

/-- `std::stoi` on a 32-bit `int`. -/
def stoi (s : Bytes) : Except ConversionError Int :=
  match scanInteger s with
  | none => .error .invalidArgument
  | some (negative, n) =>
    let v : Int := if negative then -n else n
    if -2 ^ 31 ≤ v ∧ v < 2 ^ 31 then .ok v else .error .outOfRange

/-- What is known of a text that is converted. -/
theorem stoi_cases {s : Bytes} {v : Int} (h : stoi s = .ok v) :
    ∃ negative n, scanInteger s = some (negative, n) ∧ v = (if negative then -(n : Int) else n) ∧
      -2 ^ 31 ≤ v ∧ v < 2 ^ 31 := by
  unfold stoi at h
  split at h
  · cases h
  · next negative n hscan =>
    dsimp only at h
    generalize hvalue : (if negative = true then -(n : Int) else n) = value at h
    split at h
    · next hrange =>
      obtain rfl := Except.ok.inj h
      exact ⟨negative, n, hscan, hvalue.symm, hrange⟩
    · cases h

theorem stoul_cases {s : Bytes} {v : Nat} (h : stoul s = .ok v) :
    ∃ negative n, scanInteger s = some (negative, n) ∧
      v = if negative then (2 ^ 64 - n) % 2 ^ 64 else n := by
  unfold stoul at h
  split at h
  · cases h
  · next negative n hscan =>
    split at h
    · cases h
    · exact ⟨negative, n, hscan, (Except.ok.inj h).symm⟩

theorem stoi_range {s : Bytes} {v : Int} (h : stoi s = .ok v) : -2 ^ 31 ≤ v ∧ v < 2 ^ 31 := by
  obtain ⟨-, -, -, -, hrange⟩ := stoi_cases h
  exact hrange

/-- A decimal numeral: digits, at least one of them. -/
structure IsNumeral (v : Bytes) (n : Nat) : Prop where
  ne_nil : v ≠ []
  digits : ∀ b ∈ v, isDigit b = true
  value : digitsValue v = n

theorem digitsValue_map {l : List Char} (h : ∀ c ∈ l, c.isDigit = true) (init : Nat) :
    (l.map fun c => c.toNat.toUInt8).foldl (fun n b => 10 * n + (b - 48).toNat) init =
      Nat.ofDigitChars 10 l init := by
  induction l generalizing init with
  | nil => rfl
  | cons c l ih =>
    have hdigit := h c List.mem_cons_self
    rw [Char.isDigit_iff_toNat] at hdigit
    obtain ⟨hlo, hhi⟩ : 48 ≤ c.toNat ∧ c.toNat ≤ 57 := hdigit
    have hval : (c.toNat.toUInt8 - 48).toNat = c.toNat - 48 := by
      have hnat : (c.toNat.toUInt8).toNat = c.toNat := by
        simpa using Nat.mod_eq_of_lt (by omega : c.toNat < 256)
      have hle : (48 : UInt8) ≤ c.toNat.toUInt8 := by
        rw [UInt8.le_iff_toNat_le, hnat]
        exact hlo
      rw [UInt8.toNat_sub_of_le _ _ hle, hnat]
      rfl
    rw [List.map_cons, List.foldl_cons, hval, ih fun c' hc' => h c' (List.mem_cons_of_mem _ hc'),
      Nat.ofDigitChars_cons]
    rfl

/-- A printed number reads back as itself. -/
theorem isNumeral_decimal (n : Nat) : IsNumeral (decimal n) n where
  ne_nil := by simp [decimal]
  digits := fun _ hb => isDigit_of_mem_decimal hb
  value := by
    have hdigits : ∀ c ∈ Nat.toDigits 10 n, c.isDigit = true := fun c hc =>
      Nat.isDigit_of_mem_toDigits (by decide) (by decide) hc
    unfold digitsValue decimal
    rw [digitsValue_map hdigits, Nat.ofDigitChars_toDigits (by decide) (by decide)]

theorem isDigit_plain : ∀ b, isDigit b = true → isSpace b = false ∧ b ≠ 45 ∧ b ≠ 43 := by
  decide +kernel

theorem takeWhile_digits {v : Bytes} (h : ∀ b ∈ v, isDigit b = true) : v.takeWhile isDigit = v := by
  rw [List.takeWhile_eq_self_iff]
  exact h

theorem IsNumeral.scanInteger {v : Bytes} {n : Nat} (h : IsNumeral v n) :
    scanInteger v = some (false, n) := by
  obtain ⟨b, t, rfl⟩ := List.exists_cons_of_ne_nil h.ne_nil
  obtain ⟨hspace, hminus, hplus⟩ := isDigit_plain b (h.digits b List.mem_cons_self)
  unfold StdString.scanInteger
  rw [List.dropWhile_cons_of_neg (by simp [hspace])]
  simp only [if_neg hminus, if_neg hplus, takeWhile_digits h.digits, if_neg h.ne_nil, h.value]

theorem IsNumeral.stoul {v : Bytes} {n : Nat} (h : IsNumeral v n) (hn : n < 2 ^ 64) :
    stoul v = .ok n := by
  unfold StdString.stoul
  rw [h.scanInteger]
  dsimp only
  rw [if_neg (by omega)]
  rfl

/-- `std::stoi` undoes `std::to_string`. -/
theorem stoi_intDecimal {i : Int} (hlo : -2 ^ 31 ≤ i) (hhi : i < 2 ^ 31) :
    stoi (intDecimal i) = .ok i := by
  cases i with
  | ofNat n =>
    unfold stoi
    rw [intDecimal, (isNumeral_decimal n).scanInteger]
    exact if_pos ⟨hlo, hhi⟩
  | negSucc n =>
    have hdigits := isNumeral_decimal (n + 1)
    have hscan : scanInteger (45 :: decimal (n + 1)) = some (true, n + 1) := by
      unfold scanInteger
      rw [List.dropWhile_cons_of_neg (by decide)]
      simp only [if_true, takeWhile_digits hdigits.digits, if_neg hdigits.ne_nil, hdigits.value]
    unfold stoi
    rw [intDecimal, hscan]
    exact if_pos ⟨hlo, hhi⟩

end StdString
