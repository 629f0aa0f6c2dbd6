import VeloxServe.Framework.StdString

/-! # Pathnames, Lexically

    How a pathname under a root directory resolves when only its text is
    looked at: it is cut at slashes, empty and `.` components stay where they
    are, `..` goes up and anything else goes down. The pathname is contained in
    the root when no `..` leaves it.

    Pathnames reach the operating system as C strings, so what counts is the
    text in front of the first NUL byte. The main lemma says when a path
    joined from ordinary components is still contained after that cut: only a
    first component that turns into `..` leads out.
-/

namespace LexicalPath

open StdString

def dot : Bytes := [46]
def dotDot : Bytes := [46, 46]

/-- The components of a pathname. -/
def components (path : Bytes) : List Bytes := getlines 47 path

/-- Walk along components from a location given by the names below the root,
    innermost first; `none` when a `..` leaves the root. -/
def resolve : List Bytes → List Bytes → Option (List Bytes)
  | location, [] => some location
  | location, c :: cs =>
    if c = [] ∨ c = dot then resolve location cs
    else if c = dotDot then
      match location with
      | [] => none
      | _ :: parent => resolve parent cs
    else resolve (c :: location) cs

/-- What follows the root directory in a pathname stays below it. -/
def Contained (rest : Bytes) : Prop :=
  (rest = [] ∨ rest.head? = some 47) ∧ (resolve [] (components rest)).isSome = true

instance (rest : Bytes) : Decidable (Contained rest) := inferInstanceAs (Decidable (_ ∧ _))

/-- The pathname denotes a location inside `root`. -/
def Inside (root path : Bytes) : Prop := ∃ rest, path = root ++ rest ∧ Contained rest

/-- The text the operating system sees: up to the first NUL byte. -/
def cString (s : Bytes) : Bytes := s.takeWhile (· ≠ 0)

/-- A component that is a name. -/
structure IsName (c : Bytes) : Prop where
  ne_nil : c ≠ []
  ne_dot : c ≠ dot
  ne_dotDot : c ≠ dotDot
  noSlash : (47 : UInt8) ∉ c

/-- The path of components below the root. -/
def rooted (parts : List Bytes) : Bytes := parts.flatMap (47 :: ·)

/-! ## Components -/

theorem components_slash (rest : Bytes) : components (47 :: rest) = [] :: components rest :=
  getlines_append List.not_mem_nil rest

theorem rooted_cons (p : Bytes) (parts : List Bytes) : rooted (p :: parts) = 47 :: p ++ rooted parts := by
  simp [rooted]

/-- The components of joined components, after the empty one in front. -/
theorem components_rooted {parts : List Bytes} (h : ∀ p ∈ parts, (47 : UInt8) ∉ p) (tail : Bytes) :
    components (rooted parts ++ 47 :: tail) = [] :: parts ++ components tail := by
  induction parts with
  | nil => exact components_slash tail
  | cons p parts ih =>
    have hp := h p List.mem_cons_self
    have hrest := ih fun q hq => h q (List.mem_cons_of_mem _ hq)
    -- what follows `p` starts with a slash
    obtain ⟨rest, hslash⟩ : ∃ rest, rooted parts ++ 47 :: tail = 47 :: rest := by
      cases parts with
      | nil => exact ⟨tail, rfl⟩
      | cons q qs => exact ⟨q ++ (rooted qs ++ 47 :: tail), by simp [rooted]⟩
    have hcons : rooted (p :: parts) ++ 47 :: tail = 47 :: (p ++ 47 :: rest) := by
      rw [← hslash]
      simp [rooted]
    rw [hslash, components_slash] at hrest
    have hpart : components (p ++ 47 :: rest) = p :: components rest := getlines_append hp rest
    rw [hcons, components_slash, hpart, (List.cons.inj hrest).2]
    rfl

/-- A slash at the end of a path adds no component. -/
theorem components_concat_slash {path : Bytes} (hne : path ≠ []) (hlast : path.getLast? ≠ some 47) :
    components (path ++ [47]) = components path := by
  -- by induction on the length, one component at a time
  induction hlen : path.length using Nat.strongRecOn generalizing path with
  | ind n ih =>
    by_cases hslash : (47 : UInt8) ∈ path
    · obtain ⟨first, rest, rfl, hfirst⟩ := List.eq_append_cons_of_mem hslash
      have hrest : rest ≠ [] := by
        intro hnil
        simp [hnil] at hlast
      have hend : rest.getLast? ≠ some 47 := by
        intro h
        apply hlast
        rw [List.getLast?_append, List.getLast?_cons, h]
        rfl
      have hshorter : rest.length < n := by
        rw [← hlen, List.length_append, List.length_cons]
        omega
      have hcut : first ++ 47 :: rest ++ [47] = first ++ 47 :: (rest ++ [47]) := by simp
      have htail : components (rest ++ [47]) = components rest := ih _ hshorter hrest hend rfl
      unfold components at htail ⊢
      rw [hcut, getlines_append hfirst, getlines_append hfirst, htail]
    · unfold components
      rw [getlines_append hslash, getlines_of_not_mem hslash, if_neg hne]
      rfl

/-! ## Resolution -/

@[simp] theorem resolve_nil (location : List Bytes) : resolve location [] = some location := by
  unfold resolve
  rfl

theorem resolve_skip {c : Bytes} (hc : c = [] ∨ c = dot) (location cs : List Bytes) :
    resolve location (c :: cs) = resolve location cs := by
  conv => lhs; unfold resolve
  rw [if_pos hc]

theorem resolve_name {c : Bytes} (hc : IsName c) (location cs : List Bytes) :
    resolve location (c :: cs) = resolve (c :: location) cs := by
  have hskip : ¬ (c = [] ∨ c = dot) := by
    rintro (h | h)
    · exact hc.ne_nil h
    · exact hc.ne_dot h
  conv => lhs; unfold resolve
  rw [if_neg hskip, if_neg hc.ne_dotDot]

@[simp] theorem resolve_up (name : Bytes) (parent cs : List Bytes) :
    resolve (name :: parent) (dotDot :: cs) = resolve parent cs := by
  conv => lhs; unfold resolve
  rw [if_neg (by decide), if_pos rfl]

@[simp] theorem resolve_escape (cs : List Bytes) : resolve [] (dotDot :: cs) = none := by
  unfold resolve
  rw [if_neg (by decide), if_pos rfl]

/-- The four things a component can be. -/
theorem component_cases {c : Bytes} (hc : (47 : UInt8) ∉ c) :
    (c = [] ∨ c = dot) ∨ c = dotDot ∨ IsName c := by
  by_cases hskip : c = [] ∨ c = dot
  · exact .inl hskip
  · by_cases hup : c = dotDot
    · exact .inr (.inl hup)
    · exact .inr (.inr ⟨fun h => hskip (.inl h), fun h => hskip (.inr h), hup, hc⟩)

/-- Names lead down. -/
theorem resolve_names {parts : List Bytes} (h : ∀ p ∈ parts, IsName p) (location rest : List Bytes) :
    resolve location (parts ++ rest) = resolve (parts.reverse ++ location) rest := by
  induction parts generalizing location with
  | nil => rfl
  | cons p parts ih =>
    rw [List.cons_append, resolve_name (h p List.mem_cons_self),
      ih fun q hq => h q (List.mem_cons_of_mem _ hq)]
    simp

/-- Where a path leads to consists of names. -/
theorem isName_of_resolve {location cs found : List Bytes} (hcs : ∀ c ∈ cs, (47 : UInt8) ∉ c)
    (hloc : ∀ p ∈ location, IsName p) (h : resolve location cs = some found) :
    ∀ p ∈ found, IsName p := by
  induction cs generalizing location with
  | nil =>
    rw [resolve_nil] at h
    obtain rfl := Option.some.inj h
    exact hloc
  | cons c cs ih =>
    have hrest : ∀ c' ∈ cs, (47 : UInt8) ∉ c' := fun c' hc' => hcs c' (List.mem_cons_of_mem _ hc')
    rcases component_cases (hcs c List.mem_cons_self) with hskip | rfl | hname
    · rw [resolve_skip hskip] at h
      exact ih hrest hloc h
    · cases location with
      | nil => simp at h
      | cons name parent =>
        rw [resolve_up] at h
        exact ih hrest (fun p hp => hloc p (List.mem_cons_of_mem _ hp)) h
    · rw [resolve_name hname] at h
      refine ih hrest (fun p hp => ?_) h
      rcases List.mem_cons.mp hp with rfl | hp
      · exact hname
      · exact hloc p hp

/-- A single last component leads out only as `..` at the root. -/
theorem resolve_last (location : List Bytes) {c : Bytes} (hc : (47 : UInt8) ∉ c) :
    (resolve location (components c)).isSome = true ↔ ¬ (location = [] ∧ c = dotDot) := by
  have hcomponents : components c = if c = [] then [] else [c] := getlines_of_not_mem hc
  rw [hcomponents]
  rcases component_cases hc with hskip | rfl | hname
  · have hne : c ≠ dotDot := by
      rcases hskip with rfl | rfl <;> decide
    by_cases hnil : c = []
    · simp [hnil, dotDot]
    · rw [if_neg hnil, resolve_skip hskip]
      simp [hne]
  · rw [if_neg (by decide)]
    cases location with
    | nil => simp
    | cons name parent => simp
  · rw [if_neg hname.ne_nil, resolve_name hname]
    simp [hname.ne_dotDot]

/-! ## C Strings -/

theorem cString_append_of_not_mem {s : Bytes} (h : (0 : UInt8) ∉ s) (t : Bytes) :
    cString (s ++ t) = s ++ cString t := by
  unfold cString
  refine List.takeWhile_append_of_pos fun b hb => ?_
  have hne : b ≠ 0 := fun h0 => h (h0 ▸ hb)
  simpa using hne

theorem cString_of_not_mem {s : Bytes} (h : (0 : UInt8) ∉ s) : cString s = s := by
  have happ := cString_append_of_not_mem h []
  simpa [cString] using happ

theorem cString_append_of_mem {s : Bytes} (h : (0 : UInt8) ∈ s) (t : Bytes) :
    cString (s ++ t) = cString s := by
  obtain ⟨a, b, rfl, ha⟩ := List.eq_append_cons_of_mem h
  rw [List.append_assoc, cString_append_of_not_mem ha, cString_append_of_not_mem ha]
  simp [cString]

theorem not_mem_cString {b : UInt8} {s : Bytes} (h : b ∉ s) : b ∉ cString s :=
  fun hmem => h ((List.takeWhile_prefix _).subset hmem)

/-- Joined components are cut inside the first one with a NUL byte. -/
theorem cString_rooted (before after : List Bytes) {c : Bytes}
    (hbefore : ∀ p ∈ before, (0 : UInt8) ∉ p) (hc : (0 : UInt8) ∈ c) :
    cString (rooted (before ++ c :: after)) = rooted before ++ 47 :: cString c := by
  induction before with
  | nil =>
    rw [List.nil_append, rooted_cons, List.cons_append, ← List.singleton_append,
      cString_append_of_not_mem (by decide), cString_append_of_mem hc]
    rfl
  | cons p before ih =>
    have hp : (0 : UInt8) ∉ 47 :: p := by simpa using hbefore p List.mem_cons_self
    rw [List.cons_append, rooted_cons, rooted_cons, cString_append_of_not_mem hp,
      ih fun q hq => hbefore q (List.mem_cons_of_mem _ hq), List.append_assoc]

theorem cString_rooted_of_not_mem {parts : List Bytes} (h : ∀ p ∈ parts, (0 : UInt8) ∉ p) :
    cString (rooted parts) = rooted parts := by
  apply cString_of_not_mem
  intro hmem
  obtain ⟨p, hp, hmem⟩ := List.mem_flatMap.mp hmem
  rcases List.mem_cons.mp hmem with hslash | hmem
  · exact absurd hslash (by decide)
  · exact h p hp hmem

/-- A component with a NUL byte in it is read as `..` when it starts so. -/
theorem cString_eq_dotDot {c : Bytes} (hc : (0 : UInt8) ∈ c) :
    cString c = dotDot ↔ [46, 46, 0] <+: c := by
  constructor
  · intro h
    obtain ⟨t, ht⟩ : cString c <+: c := List.takeWhile_prefix _
    rw [h] at ht
    cases t with
    | nil =>
      rw [← ht] at hc
      exact absurd hc (by decide)
    | cons z t =>
      -- the byte after `..` is what the string ends at
      have hz : z = 0 := by
        by_contra hz
        have hlen := congrArg List.length h
        rw [← ht] at hlen
        simp [cString, dotDot, hz] at hlen
      exact ⟨t, by rw [← ht, hz]; rfl⟩
  · rintro ⟨t, rfl⟩
    simp [cString, dotDot]

/-! ## Containment -/

theorem contained_rooted_append {before : List Bytes} (h : ∀ p ∈ before, IsName p) {c : Bytes}
    (hc : (47 : UInt8) ∉ c) :
    Contained (rooted before ++ 47 :: c) ↔ ¬ (before = [] ∧ c = dotDot) := by
  have hhead : (rooted before ++ 47 :: c).head? = some 47 := by
    cases before with
    | nil => rfl
    | cons p before => rfl
  have hcomponents : components (rooted before ++ 47 :: c) = [] :: before ++ components c :=
    components_rooted (fun p hp => (h p hp).noSlash) c
  unfold Contained
  rw [hcomponents, List.cons_append, resolve_skip (.inl rfl), resolve_names h, resolve_last _ hc]
  simp [hhead]

/-- **Joined names are contained after the cut at NUL**, unless the first of
    them starts with `..` and NUL. -/
theorem contained_cString_rooted {parts : List Bytes} (h : ∀ p ∈ parts, IsName p) :
    Contained (cString (rooted parts)) ↔ ∀ p ∈ parts.head?, ¬ [46, 46, 0] <+: p := by
  by_cases hnul : ∃ p ∈ parts, (0 : UInt8) ∈ p
  · -- the pathname ends inside the first name with a NUL byte
    obtain ⟨c, hfind⟩ : ∃ c, parts.find? (fun p => (0 : UInt8) ∈ p) = some c := by
      rw [← Option.isSome_iff_exists, List.find?_isSome]
      simpa using hnul
    obtain ⟨hc, before, after, rfl, hbefore⟩ := List.find?_eq_some_iff_append.mp hfind
    replace hc : (0 : UInt8) ∈ c := by simpa using hc
    replace hbefore : ∀ p ∈ before, (0 : UInt8) ∉ p := by simpa using hbefore
    have hname := h c (by simp)
    rw [cString_rooted before after hbefore hc,
      contained_rooted_append (fun p hp => h p (by simp [hp])) (not_mem_cString hname.noSlash),
      cString_eq_dotDot hc]
    cases before with
    | nil => simp
    | cons p before =>
      have hp : ¬ [46, 46, 0] <+: p := fun hpre =>
        hbefore p List.mem_cons_self (hpre.subset (by decide))
      simp [hp]
  · have hclean : ∀ p ∈ parts, (0 : UInt8) ∉ p := fun p hp h0 => hnul ⟨p, hp, h0⟩
    have hstart : ∀ p ∈ parts.head?, ¬ [46, 46, 0] <+: p := fun p hp hpre =>
      hclean p (List.mem_of_mem_head? hp) (hpre.subset (by decide))
    rw [cString_rooted_of_not_mem hclean]
    refine ⟨fun _ => hstart, fun _ => ?_⟩
    rcases List.eq_nil_or_concat parts with rfl | ⟨before, last, rfl⟩
    · exact ⟨.inl rfl, rfl⟩
    · have hlast := h last (by simp)
      have hsplit : rooted (before ++ [last]) = rooted before ++ 47 :: last := by simp [rooted]
      rw [List.concat_eq_append, hsplit,
        contained_rooted_append (fun p hp => h p (by simp [hp])) hlast.noSlash]
      exact fun hroot => hlast.ne_dotDot hroot.2

end LexicalPath
