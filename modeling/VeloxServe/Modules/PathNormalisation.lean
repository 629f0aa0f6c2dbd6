import VeloxServe.Framework.Cancellation
import VeloxServe.Modules.StaticPaths

/-! # The Normal Form of a Request Path

    The segments of a request path are a word in which `..` cancels the nearest
    name in front of it. `sanitize_path` blocks the paths whose word is
    overdrawn and joins the normal form of the others.
-/

namespace VeloxServe

open StdString Message LexicalPath Cancellation

namespace StaticHandler

/-- A segment counts unless it is empty or `.`. -/
def counts (segment : Bytes) : Bool := segment ≠ [] ∧ segment ≠ dot

def segments (path : Bytes) : List Bytes := (components path).filter counts

def GoesUp (segment : Bytes) : Prop := segment = dotDot

instance : DecidablePred GoesUp := fun segment => inferInstanceAs (Decidable (segment = dotDot))

/-- One round of the segment loop, with its depth and its parts. -/
def sanitizeStep (state : Int × List Bytes) (segment : Bytes) : Option (Int × List Bytes) :=
  if segment = [] ∨ segment = bytes "." then some state
  else if segment = bytes ".." then
    if state.1 - 1 < 0 then none else some (state.1 - 1, state.2.dropLast)
  else some (state.1 + 1, state.2 ++ [segment])

theorem sanitizeLoop_eq_foldlM (segments : List Bytes) (depth : Int) (parts : List Bytes) :
    sanitizeLoop segments depth parts =
      (segments.foldlM sanitizeStep (depth, parts)).map Prod.snd := by
  induction segments generalizing depth parts with
  | nil => rfl
  | cons segment segments ih =>
    have hround : sanitizeLoop (segment :: segments) depth parts =
        (sanitizeStep (depth, parts) segment).bind fun next =>
          sanitizeLoop segments next.1 next.2 := by
      conv => lhs; unfold sanitizeLoop
      unfold sanitizeStep
      split
      · rfl
      · split
        · split <;> rfl
        · rfl
    rw [hround, List.foldlM_cons]
    cases sanitizeStep (depth, parts) segment with
    | none => rfl
    | some next => exact ih next.1 next.2

/-! ## Depth -/

/-- One round keeps the depth equal to the number of parts. -/
theorem sanitizeStep_depth {state state' : Int × List Bytes} {segment : Bytes}
    (hstate : state.1 = state.2.length) (h : sanitizeStep state segment = some state') :
    state'.1 = state'.2.length := by
  unfold sanitizeStep at h
  split at h
  · obtain rfl := Option.some.inj h
    exact hstate
  · split at h
    · split at h
      · cases h
      · next hstay =>
        obtain rfl := Option.some.inj h
        show state.1 - 1 = (state.2.dropLast.length : Int)
        rw [List.length_dropLast]
        omega
    · obtain rfl := Option.some.inj h
      show state.1 + 1 = ((state.2 ++ [segment]).length : Int)
      rw [List.length_append, List.length_singleton]
      omega

theorem foldlM_sanitizeStep_depth {segments : List Bytes} {state state' : Int × List Bytes}
    (hstate : state.1 = state.2.length) (h : segments.foldlM sanitizeStep state = some state') :
    state'.1 = state'.2.length := by
  induction segments generalizing state with
  | nil =>
    obtain rfl : state = state' := by simpa using h
    exact hstate
  | cons segment segments ih =>
    rw [List.foldlM_cons] at h
    obtain ⟨next, hnext, hrest⟩ := Option.bind_eq_some_iff.mp h
    exact ih (sanitizeStep_depth hstate hnext) hrest

/-! ## Resolution is Cancellation -/

theorem counts_of_isName {c : Bytes} (h : IsName c) : counts c = true := by
  simp [counts, h.ne_nil, h.ne_dot]

/-- Walking along the components is reading the segments with a stack. -/
theorem resolve_eq_stack {cs : List Bytes} (hcs : ∀ c ∈ cs, (47 : UInt8) ∉ c) (location : List Bytes) :
    resolve location cs = stack GoesUp location (cs.filter counts) := by
  induction cs generalizing location with
  | nil => rfl
  | cons c cs ih =>
    have hrest := ih fun c' hc' => hcs c' (List.mem_cons_of_mem _ hc')
    rcases component_cases (hcs c List.mem_cons_self) with hskip | rfl | hname
    · have hdrop : ¬ counts c = true := by
        rcases hskip with rfl | rfl <;> decide
      rw [resolve_skip hskip, hrest, List.filter_cons_of_neg hdrop]
    · have hkeep : counts dotDot = true := by decide
      have hup : GoesUp dotDot := rfl
      rw [List.filter_cons_of_pos hkeep]
      cases location with
      | nil => rw [resolve_escape, stack_empty hup]
      | cons name parent => rw [resolve_up, stack_pop hup, hrest]
    · have hkeep : counts c = true := counts_of_isName hname
      have hdown : ¬ GoesUp c := hname.ne_dotDot
      rw [resolve_name hname, List.filter_cons_of_pos hkeep, stack_push hdown, hrest]

theorem resolve_components (path : Bytes) :
    resolve [] (components path) = stack GoesUp [] (segments path) :=
  resolve_eq_stack (fun _ hc => not_mem_of_mem_getlines hc) []

/-! ## The Result -/

/-- The segments of joined names are the names. -/
theorem components_joined {kept : List Bytes} (h : ∀ s ∈ kept, IsName s) :
    components (47 :: [47].intercalate kept) = [] :: kept := by
  rcases List.eq_nil_or_concat kept with rfl | ⟨before, last, rfl⟩
  · rfl
  · rw [List.concat_eq_append] at h ⊢
    have hlast := h last (by simp)
    have hbefore : ∀ s ∈ before, (47 : UInt8) ∉ s := fun s hs => (h s (by simp [hs])).noSlash
    have hjoined : 47 :: [47].intercalate (before ++ [last]) = rooted before ++ 47 :: last := by
      rw [intercalate_eq_rooted (by simp)]
      simp [rooted]
    have hcomponents : components last = [last] := by
      unfold components
      rw [getlines_of_not_mem hlast.noSlash, if_neg hlast.ne_nil]
    rw [hjoined, components_rooted hbefore, hcomponents]
    rfl

theorem segments_joined {kept : List Bytes} (h : ∀ s ∈ kept, IsName s) :
    segments (47 :: [47].intercalate kept) = kept := by
  unfold segments
  rw [components_joined h, List.filter_cons_of_neg (by decide), List.filter_eq_self]
  exact fun s hs => counts_of_isName (h s hs)

/-- A blocked path is an overdrawn one. -/
theorem sanitizePath_eq_nil_iff (path : Bytes) :
    sanitizePath path = [] ↔ Overdrawn GoesUp (segments path) := by
  rw [sanitizePath_eq, resolve_components, overdrawn_iff]
  cases stack GoesUp [] (segments path) with
  | none => simp
  | some location => simp

/-- The parts kept of a path that is not blocked. -/
theorem sanitizePath_eq_of_normalises {path : Bytes} {kept : List Bytes}
    (h : Normalises GoesUp (segments path) kept) :
    sanitizePath path = 47 :: [47].intercalate kept := by
  rw [sanitizePath_eq, resolve_components, h.stack_eq]
  show 47 :: [47].intercalate kept.reverse.reverse = 47 :: [47].intercalate kept
  rw [List.reverse_reverse]

theorem exists_normalises {path : Bytes} (h : ¬ Overdrawn GoesUp (segments path)) :
    ∃ kept, Normalises GoesUp (segments path) kept ∧ ∀ s ∈ kept, IsName s := by
  rw [overdrawn_iff] at h
  obtain ⟨location, hlocation⟩ := Option.ne_none_iff_exists'.mp h
  have hnames : ∀ s ∈ location, IsName s := by
    rw [← resolve_components] at hlocation
    exact isName_of_resolve (fun _ hc => not_mem_of_mem_getlines hc) (by simp) hlocation
  refine ⟨location.reverse, (normalises_iff _ _).mpr (by rw [hlocation, List.reverse_reverse]), ?_⟩
  intro s hs
  exact hnames s (List.mem_reverse.mp hs)

/-- Names are their own normal form. -/
theorem normalises_names {kept : List Bytes} (h : ∀ s ∈ kept, IsName s) :
    Normalises GoesUp kept kept :=
  ⟨.refl, fun s hs => (h s hs).ne_dotDot⟩

/-- **`sanitize_path` is the reference normalisation.** Overdrawn paths are
    blocked, of the others the one normal form of the segments is joined; it
    consists of names and is left as it is the next time. In every round the
    depth is the number of parts. -/
theorem sanitizePath_normalises (path : Bytes) :
    ((sanitizePath path = [] ∧ Overdrawn GoesUp (segments path)) ∨
      (¬ Overdrawn GoesUp (segments path) ∧
        ∃ kept, (∀ other, Normalises GoesUp (segments path) other ↔ other = kept) ∧
          sanitizePath path = 47 :: [47].intercalate kept ∧
          components (sanitizePath path) = [] :: kept ∧ (∀ s ∈ kept, IsName s) ∧
          sanitizePath (sanitizePath path) = sanitizePath path)) ∧
    sanitizeLoop (components path) 0 [] =
      ((components path).foldlM sanitizeStep (0, [])).map Prod.snd ∧
    ∀ front, front <+: components path → ∀ state ∈ front.foldlM sanitizeStep (0, []),
      state.1 = state.2.length := by
  refine ⟨?_, sanitizeLoop_eq_foldlM _ _ _, fun front _ state hstate =>
    foldlM_sanitizeStep_depth rfl hstate⟩
  by_cases hover : Overdrawn GoesUp (segments path)
  · exact .inl ⟨(sanitizePath_eq_nil_iff path).mpr hover, hover⟩
  · obtain ⟨kept, hkept, hnames⟩ := exists_normalises hover
    have hresult := sanitizePath_eq_of_normalises hkept
    have hagain : Normalises GoesUp (segments (47 :: [47].intercalate kept)) kept := by
      rw [segments_joined hnames]
      exact normalises_names hnames
    refine .inr ⟨hover, kept, fun other => ⟨fun h => h.unique hkept, fun h => h ▸ hkept⟩, hresult,
      ?_, hnames, ?_⟩
    · rw [hresult]
      exact components_joined hnames
    · rw [hresult]
      exact sanitizePath_eq_of_normalises hagain

end StaticHandler

end VeloxServe
