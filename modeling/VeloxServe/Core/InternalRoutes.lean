import VeloxServe.Core.Server
import VeloxServe.Http.RouteSelection

/-! # Routes with One Prefix

    `add_route` sorts by the length of the prefix alone, so where two routes
    have one prefix it is the library's sort that decides which of them is
    found. Any of them can be, and a location of the configuration can stand in
    front of `/health` or `/metrics`.
-/

namespace VeloxServe

open StdString LongestMatch

universe u

variable {α : Type u}

/-! ## The Route Registered First -/

/-- Of the routes with the longest matching prefix, the one registered first. -/
structure First (added : List (Route α)) (path : Bytes) (r : Route α) : Prop where
  longest : Longest added path r
  first : added.find? (fun r' => decide (r'.pathPrefix = r.pathPrefix)) = some r

/-- It is the one that is used, whatever sort the library has. -/
def UsesFirst (defaultHandler : Option α) (added : List (Route α)) (path : Bytes) : Prop :=
  ∀ (srt : RouteSort α) (r : Route α), First added path r →
    matched (register srt defaultHandler added) path = some r

/-- Another route has its prefix. -/
def Contested (added : List (Route α)) (path : Bytes) : Prop :=
  ∃ r r', First added path r ∧ r' ∈ added ∧ r'.pathPrefix = r.pathPrefix ∧ r' ≠ r

/-- Two longest matches have the same prefix. -/
theorem Longest.same_prefix {added : List (Route α)} {path : Bytes} {r r' : Route α}
    (h : Longest added path r) (h' : Longest added path r') (hslash : path.head? = some 47) :
    r'.pathPrefix = r.pathPrefix := by
  have hle := h.maximal r' h'.mem h'.holds
  have hge := h'.maximal r h.mem h.holds
  exact h'.holds.eq_of_length h.holds hslash (Nat.le_antisymm hle hge)

/-- A route with the prefix of a longest match is one. -/
theorem Longest.of_prefix {added : List (Route α)} {path : Bytes} {r r' : Route α}
    (h : Longest added path r) (hmem : r' ∈ added) (hsame : r'.pathPrefix = r.pathPrefix) :
    Longest added path r' where
  mem := hmem
  holds := hsame ▸ h.holds
  maximal := fun b hb hgov => hsame ▸ h.maximal b hb hgov

/-- Where there is a longest match, one is found, and it has its prefix. -/
theorem Longest.exists_matched {added : List (Route α)} {path : Bytes} {r : Route α}
    (h : Longest added path r) (hslash : path.head? = some 47) (srt : RouteSort α)
    (defaultHandler : Option α) :
    ∃ found, matched (register srt defaultHandler added) path = some found ∧
      found ∈ added ∧ found.pathPrefix = r.pathPrefix := by
  have hholds := register_holds srt defaultHandler added
  cases hmatched : matched (register srt defaultHandler added) path with
  | none =>
    have hnone := (matched_eq_none_iff hholds path).mp hmatched
    exact absurd h.holds (hnone r h.mem)
  | some found =>
    have hfound := longest_of_matched hholds hmatched
    exact ⟨found, rfl, hfound.mem, h.same_prefix hfound hslash⟩

/-! ## A Sort That Prefers Some Routes -/

/-- Longer prefixes rank higher, and of two as long the preferred one. -/
def rank (preferred : Route α → Bool) (r : Route α) : Nat :=
  2 * r.pathPrefix.length + (preferred r).toNat

theorem length_le_of_rank {preferred : Route α → Bool} {r r' : Route α}
    (h : rank preferred r' ≤ rank preferred r) : r'.pathPrefix.length ≤ r.pathPrefix.length := by
  unfold rank at h
  have hle : (preferred r).toNat ≤ 1 := Bool.toNat_le _
  omega

/-- The order of the ranks. -/
def RankedBefore (preferred : Route α → Bool) (a b : Route α) : Prop :=
  rank preferred b ≤ rank preferred a

instance (preferred : Route α → Bool) (a b : Route α) : Decidable (RankedBefore preferred a b) :=
  inferInstanceAs (Decidable (_ ≤ _))

instance (preferred : Route α → Bool) : Std.Total (RankedBefore preferred) :=
  ⟨fun a b => Nat.le_total (rank preferred b) (rank preferred a)⟩

instance (preferred : Route α → Bool) : IsTrans (Route α) (RankedBefore preferred) :=
  ⟨fun _ _ _ hab hbc => Nat.le_trans hbc hab⟩

theorem pairwise_ranked (preferred : Route α → Bool) (routes : List (Route α)) :
    (routes.insertionSort (RankedBefore preferred)).Pairwise (RankedBefore preferred) :=
  List.pairwise_insertionSort _ routes

/-- Sorting by the ranks sorts by the length of the prefix. -/
def RouteSort.preferring (preferred : Route α → Bool) : RouteSort α where
  sort := List.insertionSort (RankedBefore preferred)
  perm := List.perm_insertionSort _
  sorted := fun routes => (pairwise_ranked preferred routes).imp length_le_of_rank

theorem register_ranked (preferred : Route α → Bool) (defaultHandler : Option α)
    (added : List (Route α)) :
    (register (.preferring preferred) defaultHandler added).routes.Pairwise
      (RankedBefore preferred) := by
  induction added using List.reverseRecOn with
  | nil => exact List.Pairwise.nil
  | append_singleton added r _ =>
    unfold register
    rw [List.foldl_concat]
    exact pairwise_ranked preferred _

/-- A longest match that this sort prefers keeps the others from being used. -/
theorem preferred_of_matched {preferred : Route α → Bool} {defaultHandler : Option α}
    {added : List (Route α)} {path : Bytes} {r r' : Route α} (hr' : Longest added path r')
    (hpreferred : preferred r' = true) (hslash : path.head? = some 47)
    (hmatched : matched (register (.preferring preferred) defaultHandler added) path = some r) :
    preferred r = true := by
  classical
  have hholds := register_holds (.preferring preferred) defaultHandler added
  have hlongest := longest_of_matched hholds hmatched
  have hsame := hlongest.same_prefix hr' hslash
  rw [matched_eq] at hmatched
  have hbest := best_of_find? (register_ranked preferred defaultHandler added) hmatched
  have hle := hbest.maximal r' (hholds.perm.mem_iff.mpr hr'.mem) hr'.holds
  unfold rank at hle
  rw [hsame, hpreferred] at hle
  cases hr : preferred r with
  | true => rfl
  | false =>
    rw [hr] at hle
    have hless : 2 * r.pathPrefix.length + 1 ≤ 2 * r.pathPrefix.length := hle
    omega

/-! ## Which Tables Leave No Choice -/

/-- **The first registered route is used exactly when no other one has its prefix.** -/
theorem usesFirst_iff (defaultHandler : Option α) (added : List (Route α)) {path : Bytes}
    (hslash : path.head? = some 47) :
    UsesFirst defaultHandler added path ↔ ¬ Contested added path := by
  classical
  constructor
  · intro huses hcontested
    obtain ⟨r, r', hfirst, hmem, hsame, hne⟩ := hcontested
    -- a sort that prefers the other route
    have hmatched := huses (.preferring fun x => decide (x = r')) r hfirst
    have hpreferred := preferred_of_matched (hfirst.longest.of_prefix hmem hsame)
      (decide_eq_true rfl) hslash hmatched
    exact hne (of_decide_eq_true hpreferred).symm
  · intro hsole srt r hfirst
    obtain ⟨r', hmatched, hmem, hsame⟩ :=
      hfirst.longest.exists_matched hslash srt defaultHandler
    rw [hmatched]
    by_contra hne
    exact hsole ⟨r, r', hfirst, hmem, hsame, fun heq => hne (congrArg some heq)⟩

/-! ## The Routes of a Server -/

namespace Server

/-- The routes `setup_routes` registers before those of the configuration. -/
def internalRoutes : List (Route Endpoint) :=
  [⟨bytes "/health", .health, [bytes "GET"]⟩, ⟨bytes "/metrics", .metrics, [bytes "GET"]⟩]

/-- The routes it registers behind them. -/
def locationRoutes (config : ServerConfig) (upstreams : List Bytes) : List (Route Endpoint) :=
  if config.locations ≠ [] then
    config.locations.map fun loc => ⟨loc.path, locationEndpoint config upstreams loc, loc.methods⟩
  else [⟨bytes "/", .files (bytes "./www") (bytes "index.html"), [bytes "GET", bytes "HEAD"]⟩]

theorem setupRoutes_eq (srt : RouteSort Endpoint) (config : ServerConfig) (upstreams : List Bytes) :
    setupRoutes srt config upstreams =
      register srt none (internalRoutes ++ locationRoutes config upstreams) := by
  unfold setupRoutes register locationRoutes
  rw [List.foldl_append]
  by_cases hlocations : config.locations = []
  · rw [if_neg (not_not_intro hlocations), if_neg (not_not_intro hlocations)]
    rfl
  · rw [if_pos hlocations, if_pos hlocations, List.foldl_map]
    rfl

/-- A route with the prefix of an internal one is that one. -/
def KeepsInternal (config : ServerConfig) (upstreams : List Bytes) : Prop :=
  ∀ (srt : RouteSort Endpoint) (path : Bytes) (r : Route Endpoint),
    matched (setupRoutes srt config upstreams) path = some r →
      ∀ internal ∈ internalRoutes, r.pathPrefix = internal.pathPrefix → r = internal

theorem locationEndpoint_ne (config : ServerConfig) (upstreams : List Bytes) (loc : LocationConfig) :
    locationEndpoint config upstreams loc ≠ .health ∧
      locationEndpoint config upstreams loc ≠ .metrics := by
  unfold locationEndpoint
  dsimp only
  split
  · split_ifs <;> simp
  · simp

theorem internalRoutes_inj : ∀ r ∈ internalRoutes, ∀ r' ∈ internalRoutes,
    r.pathPrefix = r'.pathPrefix → r = r' := by
  intro r hr r' hr' hsame
  have hdistinct : (internalRoutes.map (·.pathPrefix)).Nodup := by decide
  exact List.inj_on_of_nodup_map hdistinct hr hr' hsame

theorem internal_slash : ∀ r ∈ internalRoutes, r.pathPrefix.head? = some 47 := by
  decide

theorem internal_longer : ∀ r ∈ internalRoutes, (bytes "/").length < r.pathPrefix.length := by
  decide

theorem handler_of_internal : ∀ r ∈ internalRoutes, r.handler = .health ∨ r.handler = .metrics := by
  decide

/-- At its own path an internal route stands behind no longer prefix. -/
theorem internal_longest {added : List (Route Endpoint)} {internal : Route Endpoint}
    (hinternal : internal ∈ internalRoutes) (hadded : internal ∈ added) :
    Longest added internal.pathPrefix internal where
  mem := hadded
  holds := .inr (.inl rfl)
  maximal := by
    intro r hr hgov
    rcases hgov with hroot | hsame | hpre
    · rw [hroot]
      exact (internal_longer internal hinternal).le
    · rw [hsame]
    · have hle := hpre.length_le
      rw [List.length_append] at hle
      omega

/-- The internal routes are safe exactly when no location has one of their paths. -/
theorem keepsInternal_iff (config : ServerConfig) (upstreams : List Bytes) :
    KeepsInternal config upstreams ↔
      ∀ loc ∈ config.locations, ∀ internal ∈ internalRoutes, loc.path ≠ internal.pathPrefix := by
  constructor
  · intro hkeeps loc hloc internal hinternal hsame
    have hadded : internal ∈ internalRoutes ++ locationRoutes config upstreams :=
      List.mem_append_left _ hinternal
    have hlongest := internal_longest hinternal hadded
    -- the route of the location would have to be the internal one
    have hroute : (⟨loc.path, locationEndpoint config upstreams loc, loc.methods⟩ : Route Endpoint) ∈
        internalRoutes ++ locationRoutes config upstreams := by
      apply List.mem_append_right
      unfold locationRoutes
      rw [if_pos (List.ne_nil_of_mem hloc)]
      exact List.mem_map_of_mem hloc
    have hpreferred := hlongest.of_prefix hroute hsame
    have hslash := internal_slash internal hinternal
    obtain ⟨r, hmatched, -, hprefix⟩ := hlongest.exists_matched hslash (.preferring fun r =>
      decide (r.handler = locationEndpoint config upstreams loc)) none
    have hhandler := of_decide_eq_true (preferred_of_matched hpreferred (decide_eq_true rfl)
      hslash hmatched)
    rw [← setupRoutes_eq] at hmatched
    obtain rfl := hkeeps _ _ r hmatched internal hinternal hprefix
    obtain ⟨hhealth, hmetrics⟩ := locationEndpoint_ne config upstreams loc
    rcases handler_of_internal r hinternal with heq | heq
    · exact hhealth (hhandler.symm.trans heq)
    · exact hmetrics (hhandler.symm.trans heq)
  · intro hfree srt path r hmatched internal hinternal hsame
    rw [setupRoutes_eq] at hmatched
    have hmem := (longest_of_matched (register_holds _ _ _) hmatched).mem
    rcases List.mem_append.mp hmem with hmem | hmem
    · exact internalRoutes_inj r hmem internal hinternal hsame
    · unfold locationRoutes at hmem
      split at hmem
      · obtain ⟨loc, hloc, rfl⟩ := List.mem_map.mp hmem
        exact absurd hsame (hfree loc hloc internal hinternal)
      · rw [List.mem_singleton.mp hmem] at hsame
        have hlonger := internal_longer internal hinternal
        rw [← hsame] at hlonger
        exact absurd hlonger (Nat.lt_irrefl _)

/-- **Of the routes with the longest matching prefix the first one is used exactly when
    no other one has this prefix**, and the internal routes of a server are kept
    exactly when no location has one of their paths. -/
theorem firstRegistered_iff (defaultHandler : Option α) (added : List (Route α)) {path : Bytes}
    (hslash : path.head? = some 47) (config : ServerConfig) (upstreams : List Bytes) :
    (UsesFirst defaultHandler added path ↔ ¬ Contested added path) ∧
      (KeepsInternal config upstreams ↔
        ∀ loc ∈ config.locations, ∀ internal ∈ internalRoutes, loc.path ≠ internal.pathPrefix) :=
  ⟨usesFirst_iff defaultHandler added hslash, keepsInternal_iff config upstreams⟩

/-- A configuration with two locations; `/healthy` is none of the internal paths. -/
def twoLocations : ServerConfig where
  locations := [{ path := bytes "/", methods_words := List.forall_mem_nil _ },
    { path := bytes "/healthy", methods_words := List.forall_mem_nil _ }]

theorem firstRegistered_twoLocations :
    (UsesFirst none threeRoutes (bytes "/api/v2/users") ↔
        ¬ Contested threeRoutes (bytes "/api/v2/users")) ∧
      (KeepsInternal twoLocations [] ↔ ∀ loc ∈ twoLocations.locations,
        ∀ internal ∈ internalRoutes, loc.path ≠ internal.pathPrefix) :=
  firstRegistered_iff none threeRoutes (by decide) twoLocations []

/-- A configuration with a location of its own for `/health`. -/
def healthLocation : LocationConfig where
  path := bytes "/health"
  methods_words := List.forall_mem_nil _

def ownHealth : ServerConfig := { locations := [healthLocation] }

/-- Its location can stand in front of the internal route. -/
theorem not_firstRegistered_health :
    ¬ ∀ (srt : RouteSort Endpoint) (config : ServerConfig) (upstreams : List Bytes) (path : Bytes)
      (r : Route Endpoint), path.head? = some 47 →
      First (internalRoutes ++ locationRoutes config upstreams) path r →
      matched (setupRoutes srt config upstreams) path = some r := by
  intro h
  have hslash : (bytes "/health").head? = some 47 := by decide
  have huses : UsesFirst none (internalRoutes ++ locationRoutes ownHealth []) (bytes "/health") := by
    intro srt r hfirst
    rw [← setupRoutes_eq]
    exact h srt ownHealth [] _ r hslash hfirst
  refine (usesFirst_iff _ _ hslash).mp huses ⟨⟨bytes "/health", .health, [bytes "GET"]⟩,
    ⟨bytes "/health", locationEndpoint ownHealth [] healthLocation, []⟩,
    ⟨internal_longest List.mem_cons_self List.mem_cons_self, rfl⟩,
    List.mem_append_right _ List.mem_cons_self, rfl, fun hsame => ?_⟩
  have hhandler := congrArg Route.handler hsame
  exact (locationEndpoint_ne ownHealth [] healthLocation).1 hhandler

end Server

end VeloxServe
