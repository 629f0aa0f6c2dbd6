import Mathlib.Algebra.Order.Field.Basic
import Mathlib.Data.List.Basic
import Mathlib.Tactic.Linarith
import Mathlib.Tactic.Ring

/-! # Token Buckets

    A bucket gains tokens over time, up to a capacity, and each admission takes
    one. How much it holds is decided by the times of the admissions alone: it
    holds `x` exactly when every window that begins with an admission has room
    for `x` more. A bucket that is refilled late, or thrown away while it is
    full, stands for the same admissions.
-/

universe u v

/-- What a bucket gains between two times. -/
structure Refill (T : Type u) [LE T] (K : Type v) [Field K] [LinearOrder K]
    [IsStrictOrderedRing K] where
  gain : T → T → K
  add : ∀ r s t, gain r s + gain s t = gain r t
  nonneg : ∀ s t, s ≤ t → 0 ≤ gain s t

namespace Refill

variable {K : Type v} [Field K] [LinearOrder K] [IsStrictOrderedRing K]

/-! ## Levels, Windows and Buckets -/

section

variable {T : Type u} [LE T] (refill : Refill T K) (cap : K)

/-- What a full bucket holds at a time after some admissions, latest first. -/
def level : List T → T → K
  | [], _ => cap
  | s :: past, t => min cap (level past s - 1 + refill.gain s t)

/-- Every window that begins with an admission has room for the request at a time. -/
def Fits (past : List T) (t : T) : Prop :=
  ∀ newer s older, past = newer ++ s :: older → (newer.length + 2 : K) ≤ cap + refill.gain s t

/-- Each admission fitted when it was made. -/
def AllFit : List T → Prop
  | [] => True
  | t :: past => refill.Fits cap past t ∧ AllFit past

/-- What a bucket that is made full on demand holds at a time; `none` is one that
    has not been made. -/
def stock : Option (K × T) → T → K
  | none, _ => cap
  | some (tokens, lastRefill), t => min cap (tokens + refill.gain lastRefill t)

/-- From now on a bucket holds what the admissions leave. -/
def StandsFor (bucket : Option (K × T)) (past : List T) (now : T) : Prop :=
  ∀ t, now ≤ t → refill.stock cap bucket t = refill.level cap past t

end

/-! ## What a Level Says -/

variable {T : Type u} [Preorder T] {refill : Refill T K} {cap : K}

@[simp] theorem level_cons (s : T) (past : List T) (t : T) :
    refill.level cap (s :: past) t = min cap (refill.level cap past s - 1 + refill.gain s t) := rfl

theorem gain_mono {r s t u : T} (hrs : r ≤ s) (htu : t ≤ u) :
    refill.gain s t ≤ refill.gain r u := by
  have hleft := refill.nonneg r s hrs
  have hright := refill.nonneg t u htu
  have hsplit : refill.gain r u = refill.gain r s + (refill.gain s t + refill.gain t u) := by
    rw [refill.add, refill.add]
  linarith

/-- **The level is the tightest window.** -/
theorem le_level_iff {x : K} {past : List T} {t : T} :
    x ≤ refill.level cap past t ↔
      x ≤ cap ∧ ∀ newer s older, past = newer ++ s :: older →
        x + (newer.length + 1) ≤ cap + refill.gain s t := by
  induction past generalizing x t with
  | nil =>
    constructor
    · intro hx
      refine ⟨hx, fun newer s older h => ?_⟩
      cases newer <;> cases h
    · exact fun h => h.1
  | cons s past ih =>
    have hstep : x ≤ refill.level cap (s :: past) t ↔
        x ≤ cap ∧ x + 1 - refill.gain s t ≤ refill.level cap past s := by
      rw [level_cons, le_min_iff]
      constructor
      · rintro ⟨hcap, hx⟩
        exact ⟨hcap, by linarith⟩
      · rintro ⟨hcap, hx⟩
        exact ⟨hcap, by linarith⟩
    rw [hstep, ih]
    constructor
    · rintro ⟨hcap, hfirst, hrest⟩
      refine ⟨hcap, fun newer s' older h => ?_⟩
      cases newer with
      | nil =>
        -- the window of the latest admission
        obtain ⟨rfl, rfl⟩ := List.cons.inj h
        rw [List.length_nil, Nat.cast_zero]
        linarith
      | cons n newer =>
        obtain ⟨rfl, hpast⟩ := List.cons.inj h
        have hwindow := hrest newer s' older hpast
        have hsplit := refill.add s' s t
        rw [List.length_cons, Nat.cast_add, Nat.cast_one]
        linarith
    · rintro ⟨hcap, hall⟩
      have hfirst := hall [] s past rfl
      rw [List.length_nil, Nat.cast_zero] at hfirst
      refine ⟨hcap, by linarith, fun newer s' older h => ?_⟩
      have hwindow := hall (s :: newer) s' older (by rw [h, List.cons_append])
      have hsplit := refill.add s' s t
      rw [List.length_cons, Nat.cast_add, Nat.cast_one] at hwindow
      linarith

/-- A token is left exactly when the request fits. -/
theorem one_le_level_iff (hcap : 1 ≤ cap) {past : List T} {t : T} :
    1 ≤ refill.level cap past t ↔ refill.Fits cap past t := by
  have hsum : ∀ n : Nat, (1 : K) + (n + 1) = n + 2 := by
    intro n
    ring
  rw [le_level_iff]
  unfold Fits
  simp only [hsum]
  exact ⟨fun h => h.2, fun h => ⟨hcap, h⟩⟩

/-- What came after a time of the window lies in the window, unless it came too late. -/
theorem filter_window [DecidableLE T] {newer older : List T} {s first last : T}
    (hsorted : (newer ++ s :: older).Pairwise (· ≥ ·)) (hfirst : first ≤ s)
    (hlast : ∀ t ∈ newer, t ≤ last) :
    newer.filter (fun t => first ≤ t ∧ t ≤ last) = newer := by
  apply List.filter_eq_self.mpr
  intro t ht
  rw [List.pairwise_append] at hsorted
  have hst : s ≤ t := hsorted.2.2 t ht s List.mem_cons_self
  have hin : first ≤ t ∧ t ≤ last := ⟨hfirst.trans hst, hlast t ht⟩
  simpa using hin

/-- **No window sees more admissions than the capacity and what is gained in it.** -/
theorem AllFit.window [DecidableLE T] (hcap : 1 ≤ cap) {past : List T}
    (hfit : refill.AllFit cap past) (hsorted : past.Pairwise (· ≥ ·)) {first last : T}
    (hle : first ≤ last) :
    ((past.filter fun t => first ≤ t ∧ t ≤ last).length : K) ≤ cap + refill.gain first last := by
  have hgain := refill.nonneg first last hle
  induction past with
  | nil =>
    rw [List.filter_nil, List.length_nil, Nat.cast_zero]
    linarith
  | cons t past ih =>
    obtain ⟨hnew, hold⟩ := hfit
    rw [List.pairwise_cons] at hsorted
    by_cases ht : first ≤ t ∧ t ≤ last
    · rw [List.filter_cons_of_pos (by simpa using ht), List.length_cons]
      rcases List.eq_nil_or_concat (past.filter fun t => first ≤ t ∧ t ≤ last) with
        hnil | ⟨newer, s, hlast⟩
      · -- the new admission is alone in the window
        rw [hnil, List.length_nil, Nat.cast_add, Nat.cast_zero, Nat.cast_one]
        linarith
      · -- `s` is the oldest admission of the window
        rw [List.concat_eq_append] at hlast
        obtain ⟨l, l', rfl, hl, hl'⟩ := List.filter_eq_append_iff.mp hlast
        obtain ⟨skipped, older, rfl, hskipped, hs, -⟩ := List.filter_eq_cons_iff.mp hl'
        have hs' : first ≤ s ∧ s ≤ last := by simpa using hs
        have hwhole : l ++ skipped = newer := by
          rw [← List.append_assoc] at hsorted
          have hlate : ∀ x ∈ l ++ skipped, x ≤ last := fun x hx =>
            (hsorted.1 x (List.mem_append_left _ hx)).trans ht.2
          rw [← filter_window hsorted.2 hs'.1 hlate, List.filter_append, hl,
            List.filter_eq_nil_iff.mpr hskipped, List.append_nil]
        have hwindow := hnew (l ++ skipped) s older (by simp)
        have hmono : refill.gain s t ≤ refill.gain first last :=
          gain_mono hs'.1 ht.2
        rw [hwhole] at hwindow
        rw [hlast, List.length_append, List.length_singleton, Nat.cast_add, Nat.cast_add,
          Nat.cast_one]
        linarith
    · rw [List.filter_cons_of_neg (by simpa using ht)]
      exact ih hold hsorted.2

/-! ## Buckets -/

@[simp] theorem stock_none (t : T) : refill.stock cap none t = cap := rfl

@[simp] theorem stock_some (tokens : K) (lastRefill t : T) :
    refill.stock cap (some (tokens, lastRefill)) t =
      min cap (tokens + refill.gain lastRefill t) := rfl

theorem StandsFor.start (now : T) : refill.StandsFor cap none [] now := fun _ _ => rfl

theorem StandsFor.later {bucket : Option (K × T)} {past : List T} {now next : T}
    (h : refill.StandsFor cap bucket past now) (hle : now ≤ next) :
    refill.StandsFor cap bucket past next :=
  fun t ht => h t (hle.trans ht)

theorem stock_refilled (bucket : Option (K × T)) {now t : T} (hle : now ≤ t) :
    refill.stock cap (some (refill.stock cap bucket now, now)) t =
      refill.stock cap bucket t := by
  have hgain := refill.nonneg now t hle
  cases bucket with
  | none => rw [stock_none, stock_some, stock_none, min_eq_left (by linarith)]
  | some b =>
    obtain ⟨tokens, lastRefill⟩ := b
    have hsplit : tokens + refill.gain lastRefill now + refill.gain now t =
        tokens + refill.gain lastRefill t := by
      rw [add_assoc, refill.add]
    rw [stock_some, stock_some, stock_some, ← min_add_add_right, hsplit, ← min_assoc,
      min_eq_left (by linarith : cap ≤ cap + refill.gain now t)]

/-- Refilling in between changes nothing. -/
theorem StandsFor.refilled {bucket : Option (K × T)} {past : List T} {now : T}
    (h : refill.StandsFor cap bucket past now) :
    refill.StandsFor cap (some (refill.stock cap bucket now, now)) past now :=
  fun t ht => (stock_refilled bucket ht).trans (h t ht)

/-- An admission takes a token. -/
theorem StandsFor.admitted {bucket : Option (K × T)} {past : List T} {now : T}
    (h : refill.StandsFor cap bucket past now) :
    refill.StandsFor cap (some (refill.stock cap bucket now - 1, now)) (now :: past) now := by
  intro t _
  rw [stock_some, level_cons, h now le_rfl]

/-- A full bucket can be thrown away. -/
theorem StandsFor.forgotten {bucket : Option (K × T)} {past : List T} {now : T}
    (h : refill.StandsFor cap bucket past now) (hfull : refill.stock cap bucket now = cap) :
    refill.StandsFor cap none past now := by
  intro t ht
  have hgain := refill.nonneg now t ht
  rw [← h t ht, ← stock_refilled bucket ht, hfull, stock_none, stock_some,
    min_eq_left (by linarith)]

end Refill
