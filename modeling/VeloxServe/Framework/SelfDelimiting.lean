import Mathlib.Data.List.Basic
import Mathlib.Data.List.Infix

/-! # Self-Delimiting Messages

    A stream in which one message follows the other, and a reader that takes them
    off one by one.

    * **Stability**: a reader decides where the first message ends by the message
      alone, so what comes behind it does not matter, and it waits until all of it
      is there.
    * **Delimited**: a message the reader takes off as a whole. Of a stream of such
      messages, however far it has come, the reader sees those that have come whole,
      and nothing else.
    * **Announced lengths**: a message may tell its length before all of it is
      there. So every message has its place in the stream, also one of which only a
      part has come, and marks along the stream fall into different messages as long
      as a message ends between one mark and the next.
-/

namespace SelfDelimiting

universe u

/-- A reader of streams. -/
structure Reader (α : Type u) where
  /-- The length of the first message, once it is there. -/
  size : List α → Option Nat
  pos : ∀ {s n}, size s = some n → 0 < n
  le : ∀ {s n}, size s = some n → n ≤ s.length
  stable : ∀ {s n}, size s = some n → ∀ rest, size (s ++ rest) = some n

variable {α : Type u}

namespace Reader

/-- The messages of a stream. -/
def messages (R : Reader α) (s : List α) : List (List α) :=
  match _h : R.size s with
  | none => []
  | some n => s.take n :: R.messages (s.drop n)
termination_by s.length
decreasing_by
  have hpos := R.pos _h
  have hle := R.le _h
  rw [List.length_drop]
  omega

/-- The reader takes this off as one message. -/
def Delimited (R : Reader α) (m : List α) : Prop := R.size m = some m.length

variable (R : Reader α)

theorem messages_none {s : List α} (h : R.size s = none) : R.messages s = [] := by
  rw [messages]
  split
  · rfl
  · next n hsome =>
    rw [h] at hsome
    cases hsome

theorem messages_some {s : List α} {n : Nat} (h : R.size s = some n) :
    R.messages s = s.take n :: R.messages (s.drop n) := by
  rw [messages]
  split
  · next hnone =>
    rw [h] at hnone
    cases hnone
  · next n' hsome =>
    obtain rfl : n = n' := Option.some.inj (h.symm.trans hsome)
    rfl

variable {R}

/-- A message is taken off whatever follows it. -/
theorem Delimited.messages_append {m : List α} (h : R.Delimited m) (rest : List α) :
    R.messages (m ++ rest) = m :: R.messages rest := by
  have hsize := R.stable h rest
  rw [R.messages_some hsize, List.take_left, List.drop_left]

/-- A part of a message is not taken for one. -/
theorem Delimited.size_part {m part : List α} (h : R.Delimited m) (hpart : part <+: m)
    (hne : part.length < m.length) : R.size part = none := by
  cases hsize : R.size part with
  | none => rfl
  | some n =>
    obtain ⟨rest, rfl⟩ := hpart
    -- what is read of the part is read of the message
    have hwhole := R.stable hsize rest
    have hlength : n = (part ++ rest).length := Option.some.inj (hwhole.symm.trans h)
    have hle := R.le hsize
    omega

/-- **What is read of a stream that has come so far** are the messages that have
    come whole: the first ones, and as many of them as there are. -/
theorem messages_of_prefix {ms : List (List α)} (h : ∀ m ∈ ms, R.Delimited m) {s : List α}
    (hs : s <+: ms.flatten) :
    R.messages s <+: ms ∧ ∀ k, (ms.take k).flatten <+: s → ms.take k <+: R.messages s := by
  induction ms generalizing s with
  | nil =>
    obtain rfl : s = [] := List.prefix_nil.mp hs
    have hnone : R.size ([] : List α) = none := by
      cases hsize : R.size ([] : List α) with
      | none => rfl
      | some n =>
        have hpos := R.pos hsize
        have hle := R.le hsize
        rw [List.length_nil] at hle
        omega
    rw [R.messages_none hnone]
    refine ⟨List.nil_prefix, fun k _ => ?_⟩
    rw [List.take_nil]
  | cons m ms ih =>
    have hm := h m List.mem_cons_self
    rw [List.flatten_cons] at hs
    rcases Nat.lt_or_ge s.length m.length with hshort | hlong
    · -- the first message is not there yet
      have hpart : s <+: m :=
        List.prefix_of_prefix_length_le hs (List.prefix_append _ _) (Nat.le_of_lt hshort)
      rw [R.messages_none (hm.size_part hpart hshort)]
      refine ⟨List.nil_prefix, fun k hk => ?_⟩
      cases k with
      | zero => exact List.nil_prefix
      | succ k =>
        have hlength := hk.length_le
        rw [List.take_succ_cons, List.flatten_cons, List.length_append] at hlength
        omega
    · have hwhole : m <+: s := List.prefix_of_prefix_length_le (List.prefix_append _ _) hs hlong
      obtain ⟨rest, rfl⟩ := hwhole
      have hrest : rest <+: ms.flatten := (List.prefix_append_right_inj m).mp hs
      obtain ⟨hmessages, hmost⟩ := ih (fun m' hm' => h m' (List.mem_cons_of_mem _ hm')) hrest
      rw [hm.messages_append]
      refine ⟨(List.prefix_cons_inj m).mpr hmessages, fun k hk => ?_⟩
      cases k with
      | zero => exact List.nil_prefix
      | succ k =>
        rw [List.take_succ_cons, List.flatten_cons, List.prefix_append_right_inj] at hk
        rw [List.take_succ_cons, List.prefix_cons_inj]
        exact hmost k hk

end Reader

/-! ## Announced Lengths -/

/-- What the beginning of a stream tells of the length of its first message. -/
structure Announcer (α : Type u) where
  size : List α → Option Nat
  pos : ∀ {s n}, size s = some n → 0 < n
  nil : size [] = none
  stable : ∀ {s n}, size s = some n → ∀ rest, size (s ++ rest) = some n

namespace Announcer

variable (A : Announcer α)

/-- A message of the stream begins here and has this length. -/
inductive MessageAt (s : List α) : Nat → Nat → Prop where
  | first {n : Nat} (h : A.size s = some n) : MessageAt s 0 n
  | next {i m n : Nat} (hbefore : MessageAt s i m) (h : A.size (s.drop (i + m)) = some n) :
      MessageAt s (i + m) n

variable {A} {s : List α} {i n : Nat}

theorem MessageAt.size (h : A.MessageAt s i n) : A.size (s.drop i) = some n := by
  cases h with
  | first h => rwa [List.drop_zero]
  | next _ h => exact h

theorem MessageAt.pos (h : A.MessageAt s i n) : 0 < n := A.pos h.size

/-- Nothing is told of what has not begun. -/
theorem le_length {j k : Nat} (h : A.size (s.drop j) = some k) : j ≤ s.length := by
  by_contra hlt
  rw [List.drop_of_length_le (by omega), A.nil] at h
  cases h

/-- A message stays where it is when the stream goes on. -/
theorem MessageAt.append (h : A.MessageAt s i n) (rest : List α) : A.MessageAt (s ++ rest) i n := by
  induction h with
  | first h => exact .first (A.stable h rest)
  | next _ h ih =>
    refine .next ih ?_
    rw [List.drop_append_of_le_length (le_length h)]
    exact A.stable h rest

/-- A message was there already when its length and those before it had been told. -/
theorem MessageAt.of_append {rest : List α} (h : A.MessageAt (s ++ rest) i n)
    (htold : ∀ j ≤ i, (A.size (s.drop j)).isSome) : A.MessageAt s i n := by
  -- what has been told does not change
  have hsame : ∀ j k, (A.size (s.drop j)).isSome → A.size ((s ++ rest).drop j) = some k →
      A.size (s.drop j) = some k := by
    intro j k hsome hsize
    obtain ⟨k', hk'⟩ := Option.isSome_iff_exists.mp hsome
    rw [List.drop_append_of_le_length (le_length hk'), A.stable hk' rest] at hsize
    rw [hk', hsize]
  induction h with
  | first h => exact .first (hsame 0 _ (htold 0 (Nat.le_refl 0)) h)
  | next _ h ih =>
    exact .next (ih fun j hj => htold j (by omega)) (hsame _ _ (htold _ (Nat.le_refl _)) h)

/-- **Messages do not overlap.** -/
theorem MessageAt.le_of_lt {i' n' : Nat} (h : A.MessageAt s i n) (h' : A.MessageAt s i' n')
    (hlt : i < i') : i + n ≤ i' := by
  -- on the place of the later message
  induction i' using Nat.strong_induction_on generalizing i n n' with
  | _ i' ih =>
    cases h' with
    | first _ => omega
    | @next j m _ hbefore _ =>
      have hpos := hbefore.pos
      rcases Nat.lt_trichotomy i j with hij | rfl | hji
      · have hle := ih j (by omega) h hbefore hij
        omega
      · obtain rfl : n = m := Option.some.inj (h.size.symm.trans hbefore.size)
        exact Nat.le_refl _
      · have hle := ih i hlt hbefore h hji
        omega

/-- **Every place is in a message**, as far as lengths have been told. -/
theorem exists_messageAt {p : Nat} (htold : ∀ j ≤ p, (A.size (s.drop j)).isSome) :
    ∃ i n, A.MessageAt s i n ∧ i ≤ p ∧ p < i + n := by
  induction p with
  | zero =>
    obtain ⟨n, hn⟩ := Option.isSome_iff_exists.mp (htold 0 (Nat.le_refl 0))
    have hfirst : A.MessageAt s 0 n := .first hn
    have hpos := hfirst.pos
    exact ⟨0, n, hfirst, Nat.le_refl 0, by omega⟩
  | succ p ih =>
    obtain ⟨i, n, hmessage, hle, hlt⟩ := ih fun j hj => htold j (by omega)
    by_cases hin : p + 1 < i + n
    · exact ⟨i, n, hmessage, by omega, hin⟩
    · -- the next message begins here
      obtain hend : i + n = p + 1 := by omega
      obtain ⟨k, hk⟩ := Option.isSome_iff_exists.mp (htold (p + 1) (Nat.le_refl _))
      have hnext : A.MessageAt s (i + n) k := .next hmessage (by rw [hend]; exact hk)
      have hpos := hnext.pos
      exact ⟨i + n, k, hnext, by omega, by omega⟩

/-! ## Marks -/

/-- How many of the marks are in the `n` places from `i` on. -/
def marksIn (marks : List Nat) (i n : Nat) : Nat := marks.countP fun p => i ≤ p ∧ p < i + n

/-- No message has two of the marks. -/
def Apart (A : Announcer α) (s : List α) (marks : List Nat) : Prop :=
  ∀ i n, A.MessageAt s i n → marksIn marks i n ≤ 1

theorem apart_nil : A.Apart s [] := fun _ _ _ => Nat.zero_le 1

/-- Marks stay apart when the stream goes on behind the messages they are in. -/
theorem Apart.append {marks : List Nat} (h : A.Apart s marks)
    (htold : ∀ p ∈ marks, ∀ j ≤ p, (A.size (s.drop j)).isSome) (rest : List α) :
    A.Apart (s ++ rest) marks := by
  intro i n hmessage
  by_cases hnone : marksIn marks i n = 0
  · omega
  · obtain ⟨p, hp, hin⟩ := List.countP_pos_iff.mp (Nat.pos_of_ne_zero hnone)
    have hle : i ≤ p := (of_decide_eq_true hin).1
    exact h i n (hmessage.of_append fun j hj => htold p hp j (by omega))

/-- **The next mark** is in a message of its own if and only if a message ends
    between it and the mark before. -/
theorem apart_concat_iff {marks : List Nat} {p c : Nat} (hlast : ∀ q ∈ marks ++ [p], q ≤ p)
    (hpc : p ≤ c) (htold : ∀ j ≤ p, (A.size (s.drop j)).isSome) :
    A.Apart s (marks ++ [p] ++ [c]) ↔
      A.Apart s (marks ++ [p]) ∧ ∃ i n, A.MessageAt s i n ∧ p < i + n ∧ i + n ≤ c := by
  have hsplit : ∀ i n, marksIn (marks ++ [p] ++ [c]) i n =
      marksIn (marks ++ [p]) i n + if i ≤ c ∧ c < i + n then 1 else 0 := by
    intro i n
    unfold marksIn
    rw [List.countP_append, List.countP_singleton]
    simp only [decide_eq_true_eq]
  constructor
  · intro h
    refine ⟨fun i n hmessage => ?_, ?_⟩
    · have hle := h i n hmessage
      rw [hsplit] at hle
      omega
    · -- the message the mark before is in ends before the next mark
      obtain ⟨i, n, hmessage, hle, hlt⟩ := exists_messageAt htold
      refine ⟨i, n, hmessage, hlt, ?_⟩
      by_contra hover
      have htwo := h i n hmessage
      rw [hsplit, if_pos ⟨by omega, by omega⟩] at htwo
      have hone : 0 < marksIn (marks ++ [p]) i n :=
        List.countP_pos_iff.mpr ⟨p, by simp, decide_eq_true ⟨hle, hlt⟩⟩
      omega
  · rintro ⟨h, i, n, hmessage, hlt, hle⟩ i' n' hmessage'
    rw [hsplit]
    by_cases hin : i' ≤ c ∧ c < i' + n'
    · -- no mark before is in the message of the new one
      have hnone : marksIn (marks ++ [p]) i' n' = 0 := by
        refine List.countP_eq_zero.mpr fun q hq hq' => ?_
        obtain ⟨hq₁, -⟩ := of_decide_eq_true hq'
        have hqp := hlast q hq
        rcases Nat.lt_trichotomy i i' with hii | rfl | hii
        · have := hmessage.le_of_lt hmessage' hii
          omega
        · obtain rfl : n = n' := Option.some.inj (hmessage.size.symm.trans hmessage'.size)
          omega
        · have := hmessage'.le_of_lt hmessage hii
          have := hmessage.pos
          omega
      rw [hnone, if_pos hin]
    · rw [if_neg hin]
      exact h i' n' hmessage'

end Announcer

end SelfDelimiting
