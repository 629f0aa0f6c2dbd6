import Mathlib.Data.List.TakeWhile

/-! # Quoted Fields

    Reading a line of text that was put together from parts:

    * **Single lines**: a text with one end of line, at its end.
    * **Quoted field**: what stands between the first two quotes.
    * **Outer words**: a field cut at its first and at its last separator.

    Each is read back when the parts do not hold the sign they are cut at.
-/

namespace QuotedFields

universe u

variable {α : Type u}

/-! ## Single Lines -/

/-- The only end of line is the last sign. -/
def IsLine (newline : α) (text : List α) : Prop :=
  ∃ entry, text = entry ++ [newline] ∧ newline ∉ entry

/-- **Single lines**: the last sign is counted alone. -/
theorem isLine_append_iff [DecidableEq α] {newline : α} {entry : List α} :
    IsLine newline (entry ++ [newline]) ↔ (entry ++ [newline]).count newline = 1 := by
  have hcount : (entry ++ [newline]).count newline = entry.count newline + 1 := by
    rw [List.count_append, List.count_singleton_self]
  rw [hcount]
  constructor
  · intro h
    obtain ⟨entry', heq, hno⟩ := h
    rw [(List.append_inj' heq rfl).1, List.count_eq_zero_of_not_mem hno]
  · intro hone
    exact ⟨entry, rfl, List.count_eq_zero.mp (by omega)⟩

/-! ## Cutting -/

section

variable [DecidableEq α]

theorem takeWhile_ne_append {sign : α} {front : List α} (h : sign ∉ front) (back : List α) :
    (front ++ sign :: back).takeWhile (fun a => decide (a ≠ sign)) = front := by
  have hfront : ∀ a ∈ front, decide (a ≠ sign) = true := by
    intro a ha
    exact decide_eq_true fun heq => h (heq ▸ ha)
  rw [List.takeWhile_append_of_pos hfront]
  simp

theorem dropWhile_ne_append {sign : α} {front : List α} (h : sign ∉ front) (back : List α) :
    (front ++ sign :: back).dropWhile (fun a => decide (a ≠ sign)) = sign :: back := by
  have hfront : ∀ a ∈ front, decide (a ≠ sign) = true := by
    intro a ha
    exact decide_eq_true fun heq => h (heq ▸ ha)
  rw [List.dropWhile_append_of_pos hfront]
  simp

/-- Where something is left, the sign comes first in it. -/
theorem eq_of_dropWhile_ne {sign a : α} {text back : List α}
    (h : text.dropWhile (fun a => decide (a ≠ sign)) = a :: back) :
    text = text.takeWhile (fun a => decide (a ≠ sign)) ++ sign :: back := by
  have hhead : a = sign := by
    have hno := List.head?_dropWhile_not (fun a => decide (a ≠ sign)) text
    rw [h] at hno
    simpa using hno
  have hsplit := List.takeWhile_append_dropWhile (p := fun a => decide (a ≠ sign)) (l := text)
  rw [h, hhead] at hsplit
  exact hsplit.symm

/-! ## Quoted Field -/

/-- The text between the first quote and the next one. -/
def quoted (quote : α) (text : List α) : List α :=
  (text.dropWhile fun a => decide (a ≠ quote)).tail.takeWhile fun a => decide (a ≠ quote)

/-- **Quoted field**: it holds no quote. -/
theorem not_mem_quoted (quote : α) (text : List α) : quote ∉ quoted quote text := by
  intro hmem
  have hne := List.mem_takeWhile_imp hmem
  simp at hne

theorem quoted_append {quote : α} {front field : List α} (hfront : quote ∉ front)
    (hfield : quote ∉ field) (back : List α) :
    quoted quote (front ++ quote :: (field ++ quote :: back)) = field := by
  unfold quoted
  rw [dropWhile_ne_append hfront]
  exact takeWhile_ne_append hfield back

/-! ## Outer Words -/

/-- What stands in front of the first separator, between the two, and behind the last one. -/
def outerWords (separator : α) (text : List α) : Option (List α × List α × List α) :=
  match text.dropWhile fun a => decide (a ≠ separator) with
  | [] => none
  | _ :: rest =>
    match rest.reverse.dropWhile fun a => decide (a ≠ separator) with
    | [] => none
    | _ :: middle =>
      some (text.takeWhile fun a => decide (a ≠ separator), middle.reverse,
        (rest.reverse.takeWhile fun a => decide (a ≠ separator)).reverse)

/-- **Outer words**: the middle may hold separators. -/
theorem outerWords_append {separator : α} {first last : List α} (hfirst : separator ∉ first)
    (hlast : separator ∉ last) (middle : List α) :
    outerWords separator (first ++ separator :: (middle ++ separator :: last)) =
      some (first, middle, last) := by
  have hreverse : (middle ++ separator :: last).reverse =
      last.reverse ++ separator :: middle.reverse := by
    simp
  have hlast' : separator ∉ last.reverse := fun hmem => hlast (List.mem_reverse.mp hmem)
  unfold outerWords
  rw [dropWhile_ne_append hfirst, takeWhile_ne_append hfirst]
  dsimp only
  rw [hreverse, dropWhile_ne_append hlast', takeWhile_ne_append hlast']
  simp

theorem eq_of_outerWords {separator : α} {text first middle last : List α}
    (h : outerWords separator text = some (first, middle, last)) :
    text = first ++ separator :: (middle ++ separator :: last) := by
  unfold outerWords at h
  split at h
  · cases h
  next rest hrest =>
  split at h
  · cases h
  next back hback =>
  simp only [Option.some.injEq, Prod.mk.injEq] at h
  obtain ⟨hfirst, hmiddle, hlast⟩ := h
  have htail := congrArg List.reverse (eq_of_dropWhile_ne hback)
  rw [List.reverse_reverse, List.reverse_append, List.reverse_cons, hmiddle, hlast,
    List.append_assoc, List.singleton_append] at htail
  have htext := eq_of_dropWhile_ne hrest
  rw [hfirst, htail] at htext
  exact htext

end

end QuotedFields
