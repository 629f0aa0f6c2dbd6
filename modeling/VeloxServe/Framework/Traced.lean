/-! # Traced Computations

    Computations that throw exceptions and note what they do on the way, such
    as the positions they access:

    * **Runs**: a result together with a property of all notes.
    * **Rules** for each way computations are put together. What is noted stays
      noted when an exception is thrown, and when it is caught.
-/

universe u

/-- A result, and what was noted on the way. -/
structure Traced (κ ε α : Type u) where
  result : Except ε α
  trace : List κ

namespace Traced

variable {κ ε α β : Type u}

/-- Note something. -/
def note (k : κ) : Traced κ ε PUnit := ⟨.ok .unit, [k]⟩

/-- A result without notes. -/
def done (r : Except ε α) : Traced κ ε α := ⟨r, []⟩

instance : Monad (Traced κ ε) where
  pure a := done (.ok a)
  bind p f :=
    match p.result with
    | .ok a => ⟨(f a).result, p.trace ++ (f a).trace⟩
    | .error e => ⟨.error e, p.trace⟩

/-- `try { p } catch (...) { handler }`. -/
def catchAll (p handler : Traced κ ε α) : Traced κ ε α :=
  match p.result with
  | .ok _ => p
  | .error _ => ⟨handler.result, p.trace ++ handler.trace⟩

/-- **Runs**: the result is `r`, and all notes are good. -/
structure Runs (P : κ → Prop) (p : Traced κ ε α) (r : Except ε α) : Prop where
  result : p.result = r
  notes : ∀ k ∈ p.trace, P k

/-! ## Rules -/

section

variable {P : κ → Prop} {p handler : Traced κ ε α} {f : α → Traced κ ε β} {a : α} {e : ε}

theorem Runs.note {k : κ} (h : P k) : Runs P (note k : Traced κ ε PUnit) (.ok .unit) where
  result := rfl
  notes := by
    intro k' hk'
    rw [List.mem_singleton.mp hk']
    exact h

theorem Runs.done (r : Except ε α) : Runs P (done r : Traced κ ε α) r :=
  ⟨rfl, fun _ hk => absurd hk List.not_mem_nil⟩

theorem Runs.pure (a : α) : Runs P (pure a : Traced κ ε α) (.ok a) := Runs.done _

/-- What comes next runs behind a value. -/
theorem Runs.bind {r : Except ε β} (hp : Runs P p (.ok a)) (hf : Runs P (f a) r) :
    Runs P (p >>= f) r := by
  have heq : p >>= f = ⟨(f a).result, p.trace ++ (f a).trace⟩ := by
    show (match p.result with
      | .ok a => ⟨(f a).result, p.trace ++ (f a).trace⟩
      | .error e => ⟨.error e, p.trace⟩ : Traced κ ε β) = _
    rw [hp.result]
  rw [heq]
  exact ⟨hf.result, List.forall_mem_append.mpr ⟨hp.notes, hf.notes⟩⟩

/-- Nothing runs behind an exception. -/
theorem Runs.bind_error (hp : Runs P p (.error e)) : Runs P (p >>= f) (.error e) := by
  have heq : p >>= f = ⟨.error e, p.trace⟩ := by
    show (match p.result with
      | .ok a => ⟨(f a).result, p.trace ++ (f a).trace⟩
      | .error e => ⟨.error e, p.trace⟩ : Traced κ ε β) = _
    rw [hp.result]
  rw [heq]
  exact ⟨rfl, hp.notes⟩

/-- A value is not caught. -/
theorem Runs.catchAll (hp : Runs P p (.ok a)) : Runs P (catchAll p handler) (.ok a) := by
  unfold Traced.catchAll
  rw [hp.result]
  exact hp

/-- The handler runs behind an exception. -/
theorem Runs.catchAll_error {r : Except ε α} (hp : Runs P p (.error e)) (hhandler : Runs P handler r) :
    Runs P (Traced.catchAll p handler) r := by
  unfold Traced.catchAll
  rw [hp.result]
  exact ⟨hhandler.result, List.forall_mem_append.mpr ⟨hp.notes, hhandler.notes⟩⟩

end

end Traced
