import Mathlib.Data.List.Infix
import Mathlib.Logic.Relation

/-! # Cancellation in a Word

    The letters of a word are of two kinds: some go up and cancel the nearest
    letter in front of them that is not cancelled yet, the others wait to be
    cancelled. A word is overdrawn when some prefix of it has more letters that
    go up than others; a word that is not has exactly one normal form, and a
    stack computes it.
-/

namespace Cancellation

open Relation

variable {α : Type u} (up : α → Prop)

/-! ## Cancelling -/

/-- A letter that goes up is cancelled together with the letter in front of it. -/
inductive Step : List α → List α → Prop where
  | cancel {a : List α} {x u : α} {b : List α} (hx : ¬ up x) (hu : up u) :
      Step (a ++ x :: u :: b) (a ++ b)

/-- What is left of a word after some cancellations. -/
def Cancels : List α → List α → Prop := ReflTransGen (Step up)

/-- What is left of a word when everything has been cancelled. -/
structure Normalises (word kept : List α) : Prop where
  cancels : Cancels up word kept
  noUp : ∀ x ∈ kept, ¬ up x

/-- Some prefix of the word has more letters that go up than others. -/
def Overdrawn [DecidablePred up] (word : List α) : Prop :=
  ∃ front, front <+: word ∧ front.countP (fun x => ¬ up x) < front.countP (fun x => up x)

/-! ## The Stack -/

/-- Read a word with a stack, its top first; `none` when the stack runs out. -/
def stack [DecidablePred up] : List α → List α → Option (List α)
  | top, [] => some top
  | top, x :: word =>
    if up x then
      match top with
      | [] => none
      | _ :: below => stack below word
    else stack (x :: top) word

variable [DecidablePred up] {up}

@[simp] theorem stack_nil (top : List α) : stack up top [] = some top := rfl

theorem stack_push {x : α} (hx : ¬ up x) (top word : List α) :
    stack up top (x :: word) = stack up (x :: top) word := by
  conv => lhs; unfold stack
  rw [if_neg hx]

theorem stack_pop {u : α} (hu : up u) (x : α) (below word : List α) :
    stack up (x :: below) (u :: word) = stack up below word := by
  conv => lhs; unfold stack
  rw [if_pos hu]

theorem stack_empty {u : α} (hu : up u) (word : List α) : stack up [] (u :: word) = none := by
  unfold stack
  rw [if_pos hu]

/-- A cancellation does not change what the stack ends with. -/
theorem Step.stack_eq {word word' : List α} (h : Step up word word') (top : List α) :
    stack up top word = stack up top word' := by
  obtain @⟨a, x, u, b, hx, hu⟩ := h
  induction a generalizing top with
  | nil =>
    show stack up top (x :: u :: b) = stack up top b
    rw [stack_push hx, stack_pop hu]
  | cons y a ih =>
    show stack up top (y :: (a ++ x :: u :: b)) = stack up top (y :: (a ++ b))
    by_cases hy : up y
    · cases top with
      | nil => rw [stack_empty hy, stack_empty hy]
      | cons z below => rw [stack_pop hy, stack_pop hy, ih]
    · rw [stack_push hy, stack_push hy, ih]

theorem Cancels.stack_eq {word word' : List α} (h : Cancels up word word') :
    stack up [] word = stack up [] word' := by
  induction h with
  | refl => rfl
  | tail _ hstep ih => rw [ih, hstep.stack_eq]

/-- A word with nothing that goes up is put on the stack. -/
theorem stack_of_noUp {word : List α} (h : ∀ x ∈ word, ¬ up x) (top : List α) :
    stack up top word = some (word.reverse ++ top) := by
  induction word generalizing top with
  | nil => rfl
  | cons x word ih =>
    rw [stack_push (h x List.mem_cons_self), ih fun y hy => h y (List.mem_cons_of_mem _ hy)]
    simp

/-- What the stack ends with is left of the word under it and the word. -/
theorem cancels_of_stack {top word found : List α} (htop : ∀ x ∈ top, ¬ up x)
    (h : stack up top word = some found) :
    Cancels up (top.reverse ++ word) found.reverse ∧ ∀ x ∈ found, ¬ up x := by
  induction word generalizing top with
  | nil =>
    obtain rfl : top = found := by simpa using h
    rw [List.append_nil]
    exact ⟨.refl, htop⟩
  | cons x word ih =>
    by_cases hx : up x
    · cases top with
      | nil =>
        rw [stack_empty hx] at h
        cases h
      | cons y below =>
        rw [stack_pop hx] at h
        have hbelow : ∀ z ∈ below, ¬ up z := fun z hz => htop z (List.mem_cons_of_mem _ hz)
        have hstep : Step up (below.reverse ++ y :: x :: word) (below.reverse ++ word) :=
          .cancel (htop y List.mem_cons_self) hx
        obtain ⟨hcancels, hfound⟩ := ih hbelow h
        have hword : (y :: below).reverse ++ x :: word = below.reverse ++ y :: x :: word := by simp
        rw [hword]
        exact ⟨.head hstep hcancels, hfound⟩
    · rw [stack_push hx] at h
      have hpushed : ∀ z ∈ x :: top, ¬ up z := by
        intro z hz
        rcases List.mem_cons.mp hz with rfl | hz
        · exact hx
        · exact htop z hz
      have hmoved := ih hpushed h
      simpa using hmoved

/-- The stack runs out when some prefix takes more than there is. -/
theorem stack_eq_none_iff (top word : List α) :
    stack up top word = none ↔ ∃ front, front <+: word ∧
      top.length + front.countP (fun x => ¬ up x) < front.countP (fun x => up x) := by
  induction word generalizing top with
  | nil => simp
  | cons x word ih =>
    -- a prefix that takes too much is not empty
    have hsplit : (∃ front, front <+: x :: word ∧
        top.length + front.countP (fun x => ¬ up x) < front.countP (fun x => up x)) ↔
        ∃ front, front <+: word ∧
          top.length + (x :: front).countP (fun x => ¬ up x) <
            (x :: front).countP (fun x => up x) := by
      constructor
      · intro ⟨front, hfront, hlt⟩
        rcases List.prefix_cons_iff.mp hfront with rfl | ⟨front', rfl, hfront'⟩
        · simp at hlt
        · exact ⟨front', hfront', hlt⟩
      · intro ⟨front, hfront, hlt⟩
        exact ⟨x :: front, (List.prefix_cons_inj x).mpr hfront, hlt⟩
    rw [hsplit]
    by_cases hx : up x
    · cases top with
      | nil =>
        rw [stack_empty hx]
        simp only [true_iff]
        exact ⟨[], List.nil_prefix, by simp [hx]⟩
      | cons y below =>
        rw [stack_pop hx, ih]
        have hstep : ∀ front : List α, below.length + front.countP (fun x => ¬ up x) <
            front.countP (fun x => up x) ↔
            (y :: below).length + (x :: front).countP (fun x => ¬ up x) <
              (x :: front).countP (fun x => up x) := by
          intro front
          simp only [List.countP_cons, List.length_cons, hx, not_true, decide_true, decide_false,
            if_true, Bool.false_eq_true, if_false]
          omega
        simp only [hstep]
    · rw [stack_push hx, ih]
      have hstep : ∀ front : List α, (x :: top).length + front.countP (fun x => ¬ up x) <
          front.countP (fun x => up x) ↔
          top.length + (x :: front).countP (fun x => ¬ up x) <
            (x :: front).countP (fun x => up x) := by
        intro front
        simp only [List.countP_cons, List.length_cons, hx, not_false_eq_true, decide_true,
          decide_false, if_true, Bool.false_eq_true, if_false]
        omega
      simp only [hstep]

/-! ## Normal Forms -/

theorem Normalises.stack_eq {word kept : List α} (h : Normalises up word kept) :
    stack up [] word = some kept.reverse := by
  rw [h.cancels.stack_eq, stack_of_noUp h.noUp, List.append_nil]

/-- A word has at most one normal form. -/
theorem Normalises.unique {word kept kept' : List α} (h : Normalises up word kept)
    (h' : Normalises up word kept') : kept = kept' := by
  have heq := h.stack_eq.symm.trans h'.stack_eq
  exact List.reverse_injective (Option.some.inj heq)

theorem overdrawn_iff (word : List α) : Overdrawn up word ↔ stack up [] word = none := by
  rw [stack_eq_none_iff]
  simp [Overdrawn]

/-- The stack holds the normal form. -/
theorem normalises_iff (word kept : List α) :
    Normalises up word kept ↔ stack up [] word = some kept.reverse := by
  constructor
  · intro h
    exact h.stack_eq
  · intro h
    obtain ⟨hcancels, hnoUp⟩ := cancels_of_stack (by simp) h
    rw [List.reverse_reverse] at hcancels
    exact ⟨hcancels, fun x hx => hnoUp x (List.mem_reverse.mpr hx)⟩

end Cancellation
