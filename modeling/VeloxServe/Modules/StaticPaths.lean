import VeloxServe.Modules.StaticHandler

/-! # The Pathnames of the Static Handler

    `sanitize_path` resolves the request path lexically and writes the place it
    leads to back as a path, so the handler stays under its root directory as
    far as slashes and dots go. The pathname is then read as a C string: a
    segment that starts with `..` and a NUL byte is a name to `sanitize_path`
    and the parent directory to the operating system.
-/

namespace VeloxServe

open StdString Message LexicalPath

namespace StaticHandler

/-! ## Normalisation Resolves the Path -/

/-- The depth the loop counts is the number of parts it keeps. -/
theorem sanitizeLoop_eq {segments : List Bytes} (hsegments : ∀ c ∈ segments, (47 : UInt8) ∉ c)
    (parts : List Bytes) :
    sanitizeLoop segments parts.length parts =
      (resolve parts.reverse segments).map List.reverse := by
  induction segments generalizing parts with
  | nil => simp [sanitizeLoop]
  | cons segment segments ih =>
    have hrest := ih fun c hc => hsegments c (List.mem_cons_of_mem _ hc)
    have hdot : bytes "." = dot := by decide
    have hup : bytes ".." = dotDot := by decide
    unfold sanitizeLoop
    rw [hdot, hup]
    rcases component_cases (hsegments segment List.mem_cons_self) with hskip | rfl | hname
    · rw [if_pos hskip, resolve_skip hskip, hrest]
    · rw [if_neg (by decide), if_pos rfl]
      rcases List.eq_nil_or_concat parts with rfl | ⟨before, last, rfl⟩
      · simp
      · have hdepth : ((before.concat last).length : Int) - 1 = before.length := by simp
        have hstay : ¬ (before.length : Int) < 0 := by omega
        rw [hdepth, if_neg hstay]
        simpa using hrest before
    · have hskip : ¬ (segment = [] ∨ segment = dot) := by
        intro h
        rcases h with h | h
        · exact hname.ne_nil h
        · exact hname.ne_dot h
      have hdeeper := hrest (parts ++ [segment])
      rw [if_neg hskip, if_neg hname.ne_dotDot, resolve_name hname]
      simpa using hdeeper

/-- **`sanitize_path` refines lexical resolution**: it blocks the paths that
    leave the root and writes back where the others lead. -/
theorem sanitizePath_eq (path : Bytes) :
    sanitizePath path =
      match resolve [] (components path) with
      | none => []
      | some location => 47 :: [47].intercalate location.reverse := by
  have hslash : ∀ c ∈ components path, (47 : UInt8) ∉ c := fun c hc => not_mem_of_mem_getlines hc
  have hloop : sanitizeLoop (getlines 47 path) 0 [] =
      (resolve [] (components path)).map List.reverse := sanitizeLoop_eq hslash []
  unfold sanitizePath
  rw [hloop]
  cases resolve [] (components path) <;> rfl

theorem intercalate_eq_rooted {parts : List Bytes} (h : parts ≠ []) :
    47 :: [47].intercalate parts = rooted parts := by
  induction parts with
  | nil => exact absurd rfl h
  | cons p parts ih =>
    cases parts with
    | nil => simp [rooted]
    | cons q parts =>
      rw [List.intercalate_cons_cons, rooted_cons, ← ih (by simp)]
      simp

/-- A path that is not blocked leads to some names below the root. -/
theorem sanitizePath_ne_nil {path : Bytes} (h : sanitizePath path ≠ []) :
    ∃ parts, (∀ p ∈ parts, IsName p) ∧ resolve [] (components path) = some parts.reverse ∧
      sanitizePath path = if parts = [] then [47] else rooted parts := by
  rw [sanitizePath_eq] at h ⊢
  rcases hresolve : resolve [] (components path) with _ | location
  · simp [hresolve] at h
  · have hnames := isName_of_resolve (fun c hc => not_mem_of_mem_getlines hc)
      (fun p hp => by cases hp) hresolve
    refine ⟨location.reverse, fun p hp => hnames p (List.mem_reverse.mp hp), by simp, ?_⟩
    dsimp only
    split
    · next hnil => simp [hnil]
    · next hne => exact intercalate_eq_rooted hne

/-! ## The Pathnames -/

/-- `handle` hands over the joined path and, for a directory, its index file. -/
theorem mem_pathnames {fs : FileSystem} {getTime putTime : Time} {request : HttpRequest}
    {rootDir indexFile : Bytes} {cache : Option LRUCache} {p : Bytes}
    (h : p ∈ (handle fs getTime putTime request rootDir indexFile cache).pathnames) :
    sanitizePath request.path ≠ [] ∧
      (p = rootDir ++ sanitizePath request.path ∨
        p = rootDir ++ sanitizePath request.path ++ bytes "/" ++ indexFile) := by
  have hdisk : ∀ (fsPath : Bytes) (cache : Option LRUCache),
      p ∈ (serveFromDisk fs putTime fsPath cache).pathnames → p = fsPath := by
    intro fsPath cache hp
    unfold serveFromDisk at hp
    split at hp
    · simpa using hp
    · split at hp <;> simpa using hp
  have hfile : ∀ fsPath : Bytes,
      p ∈ (serveFile fs getTime putTime fsPath cache).pathnames → p = fsPath := by
    intro fsPath hp
    unfold serveFile at hp
    split at hp
    · exact hdisk fsPath _ hp
    · split at hp
      · cases hp
      · exact hdisk fsPath _ hp
  unfold handle at h
  dsimp only at h
  split at h
  · cases h
  · next hsafe =>
    refine ⟨hsafe, ?_⟩
    split at h
    · split at h
      · exact .inl (List.mem_singleton.mp h)
      · rcases List.mem_cons.mp h with heq | h
        · exact .inl heq
        · exact .inr (hfile _ h)
    · rcases List.mem_cons.mp h with heq | h
      · exact .inl heq
      · exact .inl (hfile _ h)

/-- The joined path is the first to be handed over. -/
theorem mem_pathnames_fsPath (fs : FileSystem) (getTime putTime : Time) {request : HttpRequest}
    (rootDir indexFile : Bytes) (cache : Option LRUCache) (h : sanitizePath request.path ≠ []) :
    rootDir ++ sanitizePath request.path ∈
      (handle fs getTime putTime request rootDir indexFile cache).pathnames := by
  unfold handle
  dsimp only
  rw [if_neg h]
  split
  · split <;> simp
  · simp

/-! ## Containment -/

/-- A plain file name. -/
structure IsFileName (name : Bytes) : Prop extends IsName name where
  noNul : (0 : UInt8) ∉ name

/-- The place the path leads to lies below a name that starts with `..` and a NUL byte. -/
def HidesParent (path : Bytes) : Prop :=
  ∃ location name, resolve [] (components path) = some location ∧
    location.getLast? = some name ∧ [46, 46, 0] <+: name

theorem hidesParent_iff {path : Bytes} {parts : List Bytes}
    (h : resolve [] (components path) = some parts.reverse) :
    HidesParent path ↔ ∃ p ∈ parts.head?, [46, 46, 0] <+: p := by
  unfold HidesParent
  rw [h]
  simp

theorem inside_append {root rest : Bytes} (hroot : (0 : UInt8) ∉ root) :
    Inside root (cString (root ++ rest)) ↔ Contained (cString rest) := by
  rw [cString_append_of_not_mem hroot]
  constructor
  · intro h
    obtain ⟨rest', heq, hrest'⟩ := h
    exact List.append_cancel_left heq ▸ hrest'
  · intro h
    exact ⟨cString rest, rfl, h⟩

/-- The clean path and the index file below it are contained together. -/
theorem contained_clean {parts : List Bytes} (h : ∀ p ∈ parts, IsName p) {indexFile : Bytes}
    (hindex : IsFileName indexFile) {clean : Bytes}
    (hclean : clean = if parts = [] then [47] else rooted parts) :
    (Contained (cString clean) ↔ ∀ p ∈ parts.head?, ¬ [46, 46, 0] <+: p) ∧
    (Contained (cString clean) → Contained (cString (clean ++ bytes "/" ++ indexFile))) := by
  have hslash : bytes "/" = [47] := by decide
  rw [hclean, hslash]
  by_cases hnil : parts = []
  · -- the root itself: `"/"` and `"//index"`
    have hindexed : (0 : UInt8) ∉ 47 :: 47 :: indexFile := by simpa using hindex.noNul
    have hcomponents : components indexFile = [indexFile] := by
      simp [components, getlines_of_not_mem hindex.noSlash, hindex.ne_nil]
    rw [if_pos hnil]
    refine ⟨by simp [hnil, Contained, cString, components, getlines, resolve_skip], fun _ => ?_⟩
    show Contained (cString (47 :: 47 :: indexFile))
    rw [cString_of_not_mem hindexed]
    refine ⟨.inr rfl, ?_⟩
    rw [components_slash, components_slash, resolve_skip (.inl rfl), resolve_skip (.inl rfl),
      hcomponents, resolve_name hindex.toIsName]
    simp
  · rw [if_neg hnil]
    have hall : ∀ p ∈ parts ++ [indexFile], IsName p := by
      intro p hp
      rcases List.mem_append.mp hp with hp | hp
      · exact h p hp
      · exact List.mem_singleton.mp hp ▸ hindex.toIsName
    have hindexed : rooted parts ++ [47] ++ indexFile = rooted (parts ++ [indexFile]) := by
      simp [rooted]
    have hhead : (parts ++ [indexFile]).head? = parts.head? := by
      cases parts with
      | nil => exact absurd rfl hnil
      | cons p parts => rfl
    refine ⟨contained_cString_rooted h, fun hcontained => ?_⟩
    rw [hindexed, contained_cString_rooted hall, hhead]
    exact (contained_cString_rooted h).mp hcontained

/-- **Everything `handle` asks the operating system for lies inside the root
    directory, exactly for the paths that hide no parent directory.** -/
theorem pathnames_inside_iff (fs : FileSystem) (getTime putTime : Time) (request : HttpRequest)
    {rootDir indexFile : Bytes} (cache : Option LRUCache) (hroot : (0 : UInt8) ∉ rootDir)
    (hindex : IsFileName indexFile) :
    (∀ p ∈ (handle fs getTime putTime request rootDir indexFile cache).pathnames,
      Inside rootDir (cString p)) ↔ ¬ HidesParent request.path := by
  by_cases hsafe : sanitizePath request.path = []
  · -- a blocked path: nothing is asked for, and nothing is resolved
    have hblocked : ¬ HidesParent request.path := by
      intro hhides
      obtain ⟨location, name, hresolve, -, -⟩ := hhides
      rw [sanitizePath_eq, hresolve] at hsafe
      cases hsafe
    refine ⟨fun _ => hblocked, fun _ p hp => ?_⟩
    exact absurd hsafe (mem_pathnames hp).1
  · obtain ⟨parts, hnames, hresolve, hclean⟩ := sanitizePath_ne_nil hsafe
    obtain ⟨hiff, hdown⟩ := contained_clean hnames hindex hclean
    have hcontained : Contained (cString (sanitizePath request.path)) ↔ ¬ HidesParent request.path := by
      rw [hiff, hidesParent_iff hresolve]
      simp
    constructor
    · intro h
      have hfirst := h _ (mem_pathnames_fsPath fs getTime putTime rootDir indexFile cache hsafe)
      exact hcontained.mp ((inside_append hroot).mp hfirst)
    · intro h p hp
      have hclean' := hcontained.mpr h
      rcases (mem_pathnames hp).2 with rfl | rfl
      · exact (inside_append hroot).mpr hclean'
      · rw [List.append_assoc, List.append_assoc]
        apply (inside_append hroot).mpr
        rw [← List.append_assoc]
        exact hdown hclean'

/-- The directory `./www/docs` and its index file. -/
theorem pathnames_inside_docs :
    (∀ p ∈ (handle ⟨fun _ => some .directory, fun _ => none⟩ 0 0 { path := bytes "/a/../docs/" }
      (bytes "./www") (bytes "index.html") none).pathnames, Inside (bytes "./www") (cString p)) ↔
    ¬ HidesParent (bytes "/a/../docs/") :=
  pathnames_inside_iff _ 0 0 _ none (by decide)
    ⟨⟨by decide, by decide, by decide, by decide⟩, by decide⟩

/-- The target `/..%00` makes `handle` ask for the parent of the root directory. -/
theorem pathnames_escape :
    ¬ ∀ (fs : FileSystem) (getTime putTime : Time) (w rootDir indexFile : Bytes)
      (cache : Option LRUCache),
      (({} : HttpParser).parse w {}).1 = true → (({} : HttpParser).parse w {}).2.2.isValid = true →
      (0 : UInt8) ∉ rootDir → IsFileName indexFile →
      ∀ p ∈ (handle fs getTime putTime (({} : HttpParser).parse w {}).2.2 rootDir indexFile
        cache).pathnames, Inside rootDir (cString p) := by
  intro h
  have hinside := h ⟨fun _ => none, fun _ => none⟩ 0 0 (bytes "GET /..%00 HTTP/1.1\r\n\r\n")
    (bytes "./www") (bytes "index.html") none (by decide +kernel) (by decide +kernel) (by decide)
    ⟨⟨by decide, by decide, by decide, by decide⟩, by decide⟩
    (bytes "./www" ++ [47, 46, 46, 0]) (by decide +kernel)
  exact absurd ((inside_append (by decide)).mp hinside) (by decide +kernel)

end StaticHandler

end VeloxServe
