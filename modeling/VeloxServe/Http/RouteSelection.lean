import VeloxServe.Framework.LongestMatch
import VeloxServe.Http.ParsedRequest
import VeloxServe.Http.Router

/-! # Which Route Is Used

    The loop of `Router::route` takes the first route that matches. The routes
    are sorted by the length of their prefix at every registration, and two
    prefixes that match one path are never equally long, so this is the longest
    match, whatever the order of registration.
-/

namespace VeloxServe

open StdString LongestMatch

universe u v

variable {α : Type u} {σ : Type v}

/-! ## Matching -/

/-- The prefix is `/`, the path itself, or the path up to a slash. -/
def Governs (pathPrefix path : Bytes) : Prop :=
  pathPrefix = bytes "/" ∨ path = pathPrefix ∨ pathPrefix ++ [47] <+: path

theorem take_eq_and_get_iff {q path : Bytes} {b : UInt8} :
    (path.length > q.length ∧ path.take q.length = q ∧ path[q.length]? = some b) ↔
      q ++ [b] <+: path := by
  constructor
  · intro h
    obtain ⟨-, htake, hget⟩ := h
    refine ⟨path.drop (q.length + 1), ?_⟩
    have hdrop : path.drop q.length = b :: path.drop (q.length + 1) := by
      obtain ⟨hlt, heq⟩ := List.getElem?_eq_some_iff.mp hget
      rw [List.drop_eq_getElem_cons hlt, heq]
    calc q ++ [b] ++ path.drop (q.length + 1)
        = path.take q.length ++ path.drop q.length := by
          rw [htake, hdrop, List.append_assoc, List.singleton_append]
      _ = path := List.take_append_drop _ _
  · intro h
    obtain ⟨rest, rfl⟩ := h
    simp

theorem matchesPath_iff (route : Route α) (path : Bytes) :
    Router.matchesPath route path = true ↔ Governs route.pathPrefix path := by
  unfold Router.matchesPath Governs
  rw [← take_eq_and_get_iff]
  simp [and_assoc, or_assoc]

/-- Prefixes of one length that match a path with a slash in front are the same. -/
theorem Governs.eq_of_length {q q' path : Bytes} (h : Governs q path) (h' : Governs q' path)
    (hslash : path.head? = some 47) (hlen : q.length = q'.length) : q = q' := by
  have hroot : bytes "/" = [47] := by decide
  -- a match is a prefix of the path; so is `/`
  have hpre : ∀ r, Governs r path → r <+: path := by
    intro r hr
    rcases hr with rfl | rfl | hr
    · rw [hroot]
      cases path with
      | nil => cases hslash
      | cons b path =>
        obtain rfl := Option.some.inj hslash
        exact List.prefix_append [47] path
    · exact List.prefix_refl _
    · exact (List.prefix_append r [47]).trans hr
  exact (List.prefix_of_prefix_length_le (hpre q h) (hpre q' h') hlen.le).eq_of_length hlen

/-! ## Registration -/

/-- A router after a sequence of `add_route` calls. -/
def register (srt : RouteSort α) (defaultHandler : Option α) (added : List (Route α)) : Router α :=
  added.foldl (fun router r => router.addRoute srt r.pathPrefix r.handler r.allowedMethods)
    { defaultHandler := defaultHandler }

/-- Every registered route is kept, and the longest prefixes come first. -/
structure Holds (added : List (Route α)) (router : Router α) : Prop where
  perm : router.routes.Perm added
  sorted : router.routes.Pairwise Route.Before

theorem Holds.addRoute {added : List (Route α)} {router : Router α} (h : Holds added router)
    (srt : RouteSort α) (r : Route α) :
    Holds (added ++ [r]) (router.addRoute srt r.pathPrefix r.handler r.allowedMethods) where
  perm := (srt.perm _).trans (h.perm.append_right [r])
  sorted := srt.sorted _

theorem register_holds (srt : RouteSort α) (defaultHandler : Option α) (added : List (Route α)) :
    Holds added (register srt defaultHandler added) := by
  induction added using List.reverseRecOn with
  | nil => exact ⟨List.Perm.nil, List.Pairwise.nil⟩
  | append_singleton added r ih =>
    unfold register at *
    rw [List.foldl_concat]
    exact ih.addRoute srt r

theorem register_defaultHandler (srt : RouteSort α) (defaultHandler : Option α)
    (added : List (Route α)) :
    (register srt defaultHandler added).defaultHandler = defaultHandler := by
  induction added using List.reverseRecOn with
  | nil => rfl
  | append_singleton added r ih =>
    unfold register at *
    rw [List.foldl_concat]
    exact ih

/-! ## The Longest Match -/

/-- The registered route with the longest prefix that matches a path. -/
abbrev Longest (added : List (Route α)) (path : Bytes) (r : Route α) : Prop :=
  Best (fun r : Route α => r.pathPrefix.length) (fun r => Governs r.pathPrefix path) added r

theorem separated {added : List (Route α)} (hdistinct : (added.map (·.pathPrefix)).Nodup)
    {path : Bytes} (hslash : path.head? = some 47) :
    Separated (fun r : Route α => r.pathPrefix.length) (fun r => Governs r.pathPrefix path)
      added := by
  intro r hr r' hr' hgov hgov' hlen
  exact List.inj_on_of_nodup_map hdistinct hr hr' (hgov.eq_of_length hgov' hslash hlen)

open Classical in
theorem matched_eq (router : Router α) (path : Bytes) :
    matched router path = router.routes.find? fun r => decide (Governs r.pathPrefix path) := by
  unfold matched
  congr 1
  funext r
  rw [Bool.eq_iff_iff, matchesPath_iff, decide_eq_true_iff]

/-- The loop stops at a longest match, even when several routes have its prefix. -/
theorem longest_of_matched {added : List (Route α)} {router : Router α} (h : Holds added router)
    {path : Bytes} {r : Route α} (hmatched : matched router path = some r) :
    Longest added path r := by
  classical
  rw [matched_eq] at hmatched
  exact best_perm_iff h.perm |>.mp (best_of_find? h.sorted hmatched)

theorem matched_eq_some_iff {added : List (Route α)} {router : Router α} (h : Holds added router)
    (hdistinct : (added.map (·.pathPrefix)).Nodup) {path : Bytes}
    (hslash : path.head? = some 47) (r : Route α) :
    matched router path = some r ↔ Longest added path r := by
  classical
  have hsep := separated hdistinct hslash
  have hsep' : Separated (fun r : Route α => r.pathPrefix.length)
      (fun r => Governs r.pathPrefix path) router.routes := fun a ha b hb =>
    hsep a (h.perm.mem_iff.mp ha) b (h.perm.mem_iff.mp hb)
  rw [matched_eq, find?_eq_some_iff_best h.sorted hsep', best_perm_iff h.perm]

theorem matched_eq_none_iff {added : List (Route α)} {router : Router α} (h : Holds added router)
    (path : Bytes) :
    matched router path = none ↔ ∀ r ∈ added, ¬ Governs r.pathPrefix path := by
  unfold matched
  rw [List.find?_eq_none]
  constructor
  · intro hnone r hr hgov
    exact hnone r (h.perm.mem_iff.mpr hr) ((matchesPath_iff r path).mpr hgov)
  · intro hnone r hr hmatch
    exact hnone r (h.perm.mem_iff.mp hr) ((matchesPath_iff r path).mp hmatch)

theorem decision_of_matched {router : Router α} {request : HttpRequest} {r : Route α}
    (h : matched router request.path = some r) :
    router.decision request =
      if r.allowedMethods ≠ [] ∧ request.method ∉ r.allowedMethods then
        .methodNotAllowed ((bytes ", ").intercalate r.allowedMethods)
      else .invoke r.handler := by
  unfold Router.decision
  rw [h]

/-- The longest route that admits the method answers. -/
theorem route_of_matched {run : α → HttpRequest → σ → HttpResponse × σ} {router : Router α}
    {request : HttpRequest} {r : Route α} (h : matched router request.path = some r)
    (hmethods : r.allowedMethods = [] ∨ request.method ∈ r.allowedMethods) (s : σ) :
    router.route run request s = run r.handler request s := by
  have hallowed : ¬ (r.allowedMethods ≠ [] ∧ request.method ∉ r.allowedMethods) := by
    intro hnot
    rcases hmethods with hmethods | hmethods
    · exact hnot.1 hmethods
    · exact hnot.2 hmethods
  unfold Router.route
  rw [decision_of_matched h, if_neg hallowed]

theorem decision_of_unmatched {router : Router α} {request : HttpRequest}
    (h : matched router request.path = none) :
    router.decision request =
      match router.defaultHandler with
      | some handler => .invoke handler
      | none => .notFound := by
  cases hdefault : router.defaultHandler with
  | none => simp [Router.decision, h, hdefault]
  | some handler => simp [Router.decision, h, hdefault]

/-! What `route` decides shows in its result, whatever the handlers do. -/

section

variable {router : Router α} {request : HttpRequest} (s : σ)

theorem notFound_ne_methodNotAllowed (body allowed : Bytes) :
    HttpResponse.notFound body ≠ HttpResponse.methodNotAllowed allowed := by
  intro h
  have hstatus : (404 : Int) = 405 := congrArg HttpResponse.statusCode h
  cases hstatus

theorem methodNotAllowed_inj {allowed allowed' : Bytes}
    (h : HttpResponse.methodNotAllowed allowed = HttpResponse.methodNotAllowed allowed') :
    allowed = allowed' := by
  have hlookup : ∀ a, (HttpResponse.methodNotAllowed a).getHeader (bytes "Allow") [] = a := by
    intro a
    simp [HttpResponse.methodNotAllowed, HttpResponse.getHeader, HttpResponse.setHeader,
      HttpResponse.setBody]
  rw [← hlookup allowed, h, hlookup]

theorem route_methodNotAllowed_iff (allowed : Bytes) :
    (∀ run : α → HttpRequest → σ → HttpResponse × σ,
        router.route run request s = (HttpResponse.methodNotAllowed allowed, s)) ↔
      router.decision request = .methodNotAllowed allowed := by
  unfold Router.route
  cases router.decision request with
  | invoke handler =>
    refine ⟨fun h => ?_, fun h => by cases h⟩
    have hbad := h fun _ _ s => (HttpResponse.notFound [], s)
    exact absurd (Prod.mk.inj hbad).1 (notFound_ne_methodNotAllowed [] allowed)
  | methodNotAllowed allowed' =>
    constructor
    · intro h
      have hsame := h fun _ _ s => (HttpResponse.notFound [], s)
      rw [methodNotAllowed_inj (Prod.mk.inj hsame).1]
    · intro h _
      rw [Router.Decision.methodNotAllowed.inj h]
  | notFound =>
    refine ⟨fun h => ?_, fun h => by cases h⟩
    have hbad := h fun _ _ s => (HttpResponse.notFound [], s)
    exact absurd (Prod.mk.inj hbad).1 (notFound_ne_methodNotAllowed [] allowed)

open Classical in
theorem route_invoke_iff (handler : α) :
    (∀ run : α → HttpRequest → σ → HttpResponse × σ,
        router.route run request s = run handler request s) ↔
      router.decision request = .invoke handler := by
  unfold Router.route
  cases router.decision request with
  | invoke handler' =>
    constructor
    · intro h
      -- handlers that tell themselves from the others
      have htell := h fun a _ s =>
        (if a = handler then HttpResponse.notFound [] else HttpResponse.methodNotAllowed [], s)
      dsimp only at htell
      rw [if_pos rfl] at htell
      by_contra hne
      have hother : handler' ≠ handler := fun heq => hne (congrArg _ heq)
      rw [if_neg hother] at htell
      exact notFound_ne_methodNotAllowed [] [] (Prod.mk.inj htell).1.symm
    · intro h _
      rw [Router.Decision.invoke.inj h]
  | methodNotAllowed allowed =>
    refine ⟨fun h => ?_, fun h => by cases h⟩
    have hbad := h fun _ _ s => (HttpResponse.notFound [], s)
    exact absurd (Prod.mk.inj hbad).1.symm (notFound_ne_methodNotAllowed [] allowed)
  | notFound =>
    refine ⟨fun h => ?_, fun h => by cases h⟩
    have hbad := h fun _ _ s => (HttpResponse.methodNotAllowed [], s)
    exact absurd (Prod.mk.inj hbad).1 (notFound_ne_methodNotAllowed [] [])

theorem route_notFound_iff :
    (∀ run : α → HttpRequest → σ → HttpResponse × σ,
        router.route run request s = (HttpResponse.notFound [], s)) ↔
      router.decision request = .notFound := by
  unfold Router.route
  cases router.decision request with
  | invoke handler =>
    refine ⟨fun h => ?_, fun h => by cases h⟩
    have hbad := h fun _ _ s => (HttpResponse.methodNotAllowed [], s)
    exact absurd (Prod.mk.inj hbad).1.symm (notFound_ne_methodNotAllowed [] [])
  | methodNotAllowed allowed =>
    refine ⟨fun h => ?_, fun h => by cases h⟩
    have hbad := h fun _ _ s => (HttpResponse.notFound [], s)
    exact absurd (Prod.mk.inj hbad).1.symm (notFound_ne_methodNotAllowed [] allowed)
  | notFound => exact iff_of_true (fun _ => rfl) rfl

end

/-- The longest match decides, and without any the default handler. -/
structure DecidesLongest (added : List (Route α)) (defaultHandler : Option α)
    (request : HttpRequest) (decision : Router.Decision α) : Prop where
  unique : (∃ r ∈ added, Governs r.pathPrefix request.path) → ∃! r, Longest added request.path r
  methodNotAllowed : ∀ allowed, decision = .methodNotAllowed allowed ↔
    ∃ r, Longest added request.path r ∧ r.allowedMethods ≠ [] ∧
      request.method ∉ r.allowedMethods ∧ allowed = (bytes ", ").intercalate r.allowedMethods
  invoke : ∀ handler, decision = .invoke handler ↔
    (∃ r, Longest added request.path r ∧
      (r.allowedMethods = [] ∨ request.method ∈ r.allowedMethods) ∧ r.handler = handler) ∨
    (∀ r ∈ added, ¬ Governs r.pathPrefix request.path) ∧ defaultHandler = some handler
  notFound : decision = .notFound ↔
    (∀ r ∈ added, ¬ Governs r.pathPrefix request.path) ∧ defaultHandler = none

section

variable {srt : RouteSort α} {defaultHandler : Option α} {added : List (Route α)}
  {request : HttpRequest}

/-- The longest match refuses the method; no shorter one is asked. -/
theorem decidesLongest_refused {r : Route α}
    (hlongest : ∀ r', Longest added request.path r' ↔ r' = r)
    (hrefused : r.allowedMethods ≠ [] ∧ request.method ∉ r.allowedMethods) :
    DecidesLongest added defaultHandler request
      (.methodNotAllowed ((bytes ", ").intercalate r.allowedMethods)) := by
  have hr : Longest added request.path r := (hlongest r).mpr rfl
  have hsome : ¬ ∀ r ∈ added, ¬ Governs r.pathPrefix request.path :=
    fun hnone => hnone r hr.mem hr.holds
  refine ⟨fun _ => ⟨r, hr, fun r' hr' => (hlongest r').mp hr'⟩, fun allowed => ?_,
    fun handler => ?_, ?_⟩
  · constructor
    · intro h
      obtain rfl := Router.Decision.methodNotAllowed.inj h
      exact ⟨r, hr, hrefused.1, hrefused.2, rfl⟩
    · intro h
      obtain ⟨r', hr', -, -, rfl⟩ := h
      rw [(hlongest r').mp hr']
  · constructor
    · intro h
      cases h
    · intro h
      rcases h with ⟨r', hr', hok, -⟩ | ⟨hnone, -⟩
      · rw [(hlongest r').mp hr'] at hok
        exact absurd hok (not_or.mpr hrefused)
      · exact absurd hnone hsome
  · constructor
    · intro h
      cases h
    · intro h
      exact absurd h.1 hsome

theorem decidesLongest_allowed {r : Route α}
    (hlongest : ∀ r', Longest added request.path r' ↔ r' = r)
    (hok : r.allowedMethods = [] ∨ request.method ∈ r.allowedMethods) :
    DecidesLongest added defaultHandler request (.invoke r.handler) := by
  have hr : Longest added request.path r := (hlongest r).mpr rfl
  have hsome : ¬ ∀ r ∈ added, ¬ Governs r.pathPrefix request.path :=
    fun hnone => hnone r hr.mem hr.holds
  refine ⟨fun _ => ⟨r, hr, fun r' hr' => (hlongest r').mp hr'⟩, fun allowed => ?_,
    fun handler => ?_, ?_⟩
  · constructor
    · intro h
      cases h
    · intro h
      obtain ⟨r', hr', hne, hlacks, -⟩ := h
      rw [(hlongest r').mp hr'] at hne hlacks
      exact absurd hok (not_or.mpr ⟨hne, hlacks⟩)
  · constructor
    · intro h
      exact Or.inl ⟨r, hr, hok, Router.Decision.invoke.inj h⟩
    · intro h
      rcases h with ⟨r', hr', -, rfl⟩ | ⟨hnone, -⟩
      · rw [(hlongest r').mp hr']
      · exact absurd hnone hsome
  · constructor
    · intro h
      cases h
    · intro h
      exact absurd h.1 hsome

/-- With a match, the longest one answers for its methods. -/
theorem decidesLongest_of_matched (hdistinct : (added.map (·.pathPrefix)).Nodup)
    (hslash : request.path.head? = some 47) {r : Route α}
    (hmatched : matched (register srt defaultHandler added) request.path = some r) :
    DecidesLongest added defaultHandler request
      ((register srt defaultHandler added).decision request) := by
  have hholds := register_holds srt defaultHandler added
  have hlongest : ∀ r', Longest added request.path r' ↔ r' = r := by
    intro r'
    rw [← matched_eq_some_iff hholds hdistinct hslash, hmatched]
    exact ⟨fun h => (Option.some.inj h).symm, fun h => h ▸ rfl⟩
  rw [decision_of_matched hmatched]
  by_cases hrefused : r.allowedMethods ≠ [] ∧ request.method ∉ r.allowedMethods
  · rw [if_pos hrefused]
    exact decidesLongest_refused hlongest hrefused
  · rw [if_neg hrefused]
    apply decidesLongest_allowed hlongest
    by_contra h
    exact hrefused (not_or.mp h)

/-- Without a match, the default handler or 404. -/
theorem decidesLongest_of_unmatched
    (hunmatched : matched (register srt defaultHandler added) request.path = none) :
    DecidesLongest added defaultHandler request
      ((register srt defaultHandler added).decision request) := by
  have hnone := (matched_eq_none_iff (register_holds srt defaultHandler added) _).mp hunmatched
  have hno : ∀ r, ¬ Longest added request.path r := fun r hr => hnone r hr.mem hr.holds
  rw [decision_of_unmatched hunmatched, register_defaultHandler]
  refine ⟨fun h => ?_, fun allowed => ?_, fun handler => ?_, ?_⟩
  · obtain ⟨r, hr, hgov⟩ := h
    exact absurd hgov (hnone r hr)
  · constructor
    · intro h
      cases defaultHandler <;> cases h
    · intro h
      obtain ⟨r, hr, -⟩ := h
      exact absurd hr (hno r)
  · constructor
    · intro h
      cases hdefault : defaultHandler with
      | none =>
        rw [hdefault] at h
        cases h
      | some handler' =>
        rw [hdefault] at h
        exact Or.inr ⟨hnone, congrArg some (Router.Decision.invoke.inj h)⟩
    · intro h
      rcases h with ⟨r, hr, -⟩ | ⟨-, hdefault⟩
      · exact absurd hr (hno r)
      · rw [hdefault]
  · constructor
    · intro h
      cases hdefault : defaultHandler with
      | none => exact ⟨hnone, rfl⟩
      | some handler =>
        rw [hdefault] at h
        cases h
    · intro h
      rw [h.2]

/-- Registration in another order finds the same route. -/
theorem matched_perm (srt' : RouteSort α) (hdistinct : (added.map (·.pathPrefix)).Nodup)
    {path : Bytes} (hslash : path.head? = some 47) {added' : List (Route α)}
    (hperm : added'.Perm added) :
    matched (register srt' defaultHandler added') path =
      matched (register srt defaultHandler added) path := by
  have hdistinct' : (added'.map (·.pathPrefix)).Nodup := (hperm.map _).nodup_iff.mpr hdistinct
  refine Option.ext fun r => ?_
  rw [matched_eq_some_iff (register_holds srt' defaultHandler added') hdistinct' hslash,
    matched_eq_some_iff (register_holds srt defaultHandler added) hdistinct hslash]
  exact best_perm_iff hperm

end

/-- What `route` is for. The result is that of the longest match: a refusal which lists
    its methods, exactly when they are some and lack the method of the request, and else
    what its handler returns; without a match, what the default handler returns, or 404.
    The result is told by what it is for all ways the handlers may run. -/
structure RoutesLongest (added : List (Route α)) (defaultHandler : Option α)
    (request : HttpRequest) (s : σ)
    (result : (α → HttpRequest → σ → HttpResponse × σ) → HttpResponse × σ) : Prop where
  unique : (∃ r ∈ added, Governs r.pathPrefix request.path) → ∃! r, Longest added request.path r
  methodNotAllowed : ∀ allowed,
    (∀ run, result run = (HttpResponse.methodNotAllowed allowed, s)) ↔
      ∃ r, Longest added request.path r ∧ r.allowedMethods ≠ [] ∧
        request.method ∉ r.allowedMethods ∧ allowed = (bytes ", ").intercalate r.allowedMethods
  handled : ∀ handler, (∀ run, result run = run handler request s) ↔
    (∃ r, Longest added request.path r ∧
      (r.allowedMethods = [] ∨ request.method ∈ r.allowedMethods) ∧ r.handler = handler) ∨
    (∀ r ∈ added, ¬ Governs r.pathPrefix request.path) ∧ defaultHandler = some handler
  notFound : (∀ run, result run = (HttpResponse.notFound [], s)) ↔
    (∀ r ∈ added, ¬ Governs r.pathPrefix request.path) ∧ defaultHandler = none

/-- **Routing is by the longest match, in whatever order the routes were added.** The
    paths of accepted requests begin with a slash. -/
theorem routesLongest_register (srt : RouteSort α) (defaultHandler : Option α)
    {added : List (Route α)} (hdistinct : (added.map (·.pathPrefix)).Nodup)
    {request : HttpRequest} (hslash : request.path.head? = some 47) (s : σ) :
    RoutesLongest added defaultHandler request s
        (fun run => (register srt defaultHandler added).route run request s) ∧
      ∀ (srt' : RouteSort α) (added' : List (Route α)), added'.Perm added →
        ∀ run : α → HttpRequest → σ → HttpResponse × σ,
          (register srt' defaultHandler added').route run request s =
            (register srt defaultHandler added).route run request s := by
  constructor
  · have hdecides : DecidesLongest added defaultHandler request
        ((register srt defaultHandler added).decision request) := by
      cases hmatched : matched (register srt defaultHandler added) request.path with
      | none => exact decidesLongest_of_unmatched hmatched
      | some r => exact decidesLongest_of_matched hdistinct hslash hmatched
    refine ⟨hdecides.unique, fun allowed => ?_, fun handler => ?_, ?_⟩
    · rw [route_methodNotAllowed_iff, hdecides.methodNotAllowed]
    · rw [route_invoke_iff, hdecides.invoke]
    · rw [route_notFound_iff, hdecides.notFound]
  · intro srt' added' hperm run
    have hsame : (register srt' defaultHandler added').decision request =
        (register srt defaultHandler added).decision request := by
      have hmatched : matched (register srt' defaultHandler added') request.path =
          matched (register srt defaultHandler added) request.path :=
        matched_perm srt' hdistinct hslash hperm
      unfold Router.decision
      rw [hmatched, register_defaultHandler, register_defaultHandler]
    unfold Router.route
    rw [hsame]

/-- The table of `test_longest_prefix_wins`, with another method for one route. -/
def threeRoutes : List (Route Nat) :=
  [⟨bytes "/", 0, [bytes "GET"]⟩, ⟨bytes "/api", 1, [bytes "GET"]⟩,
    ⟨bytes "/api/v2", 2, [bytes "POST"]⟩]

theorem routesLongest_threeRoutes :
    let request : HttpRequest := { method := bytes "GET", path := bytes "/api/v2/users" }
    RoutesLongest threeRoutes none request ()
        (fun run => (register RouteSort.insertion none threeRoutes).route run request ()) ∧
      ∀ (srt' : RouteSort Nat) (added' : List (Route Nat)), added'.Perm threeRoutes →
        ∀ run : Nat → HttpRequest → Unit → HttpResponse × Unit,
          (register srt' none added').route run request () =
            (register RouteSort.insertion none threeRoutes).route run request () :=
  routesLongest_register RouteSort.insertion none (by decide) (by decide) ()

/-- The longest match of three refuses the method, and no shorter one is asked. -/
example (run : Nat → HttpRequest → Unit → HttpResponse × Unit) :
    (register RouteSort.insertion none threeRoutes).route run
        { method := bytes "GET", path := bytes "/api/v2/users" } () =
      (HttpResponse.methodNotAllowed (bytes "POST"), ()) := by
  rfl

/-! ## Text Below a Prefix

    `add_route` promises a route every path that starts with its prefix. The
    loop asks for a slash behind the prefix, also where the prefix ends in one.
-/

/-- A path goes on behind a prefix where a segment begins. -/
def AtBoundary (pathPrefix rest : Bytes) : Prop :=
  pathPrefix.getLast? = some 47 ∨ rest.head? = some 47

/-- The path is the prefix, or goes on behind it where a segment begins. -/
def Covers (pathPrefix path : Bytes) : Prop :=
  ∃ rest, path = pathPrefix ++ rest ∧ (rest = [] ∨ AtBoundary pathPrefix rest)

theorem Covers.isPrefix {q path : Bytes} (h : Covers q path) : q <+: path := by
  obtain ⟨rest, rfl, -⟩ := h
  exact List.prefix_append q rest

/-- The path goes on below a prefix, and below no longer registered one. -/
structure Below (added : List (Route α)) (pathPrefix rest : Bytes) : Prop where
  goesOn : rest ≠ []
  boundary : AtBoundary pathPrefix rest
  longest : ∀ r ∈ added, pathPrefix.length < r.pathPrefix.length →
    ¬ Covers r.pathPrefix (pathPrefix ++ rest)

theorem Governs.covers {q path : Bytes} (h : Governs q path) (hslash : path.head? = some 47) :
    Covers q path := by
  rcases h with rfl | rfl | hpre
  · have hroot : bytes "/" = [47] := by decide
    obtain ⟨rest, rfl⟩ := List.head?_eq_some_iff.mp hslash
    exact ⟨rest, by rw [hroot]; rfl, .inr (.inl (by decide))⟩
  · exact ⟨[], by simp, .inl rfl⟩
  · obtain ⟨rest, rfl⟩ := hpre
    exact ⟨47 :: rest, by simp, .inr (.inr rfl)⟩

/-- What the loop asks of the text behind a prefix. -/
theorem governs_append_iff {q rest : Bytes} (hrest : rest ≠ []) :
    Governs q (q ++ rest) ↔ q = bytes "/" ∨ rest.head? = some 47 := by
  unfold Governs
  constructor
  · intro h
    rcases h with hroot | hsame | hpre
    · exact .inl hroot
    · exact absurd (List.append_right_eq_self.mp hsame) hrest
    · rw [List.prefix_append_right_inj] at hpre
      obtain ⟨t, rfl⟩ := hpre
      exact .inr rfl
  · intro h
    rcases h with hroot | hhead
    · exact .inl hroot
    · obtain ⟨t, rfl⟩ := List.head?_eq_some_iff.mp hhead
      exact .inr (.inr ⟨t, by simp⟩)

/-- **Below a prefix its route is used exactly when the prefix is `/` or the text
    behind it begins with a slash.** -/
theorem matched_below_iff (srt : RouteSort α) (defaultHandler : Option α) {added : List (Route α)}
    {r : Route α} (hr : r ∈ added) {rest : Bytes} (hbelow : Below added r.pathPrefix rest)
    (hslash : (r.pathPrefix ++ rest).head? = some 47) :
    (∃ r', matched (register srt defaultHandler added) (r.pathPrefix ++ rest) = some r' ∧
        r'.pathPrefix = r.pathPrefix) ↔
      r.pathPrefix = bytes "/" ∨ rest.head? = some 47 := by
  have hholds := register_holds srt defaultHandler added
  rw [← governs_append_iff hbelow.goesOn]
  constructor
  · intro h
    obtain ⟨r', hmatched, hsame⟩ := h
    have hgov := (longest_of_matched hholds hmatched).holds
    rw [hsame] at hgov
    exact hgov
  · intro hgov
    cases hmatched : matched (register srt defaultHandler added) (r.pathPrefix ++ rest) with
    | none => exact absurd hgov ((matched_eq_none_iff hholds _).mp hmatched r hr)
    | some r' =>
      have hlongest := longest_of_matched hholds hmatched
      -- the match is as long as the prefix, as no longer one covers the path
      have hge : r.pathPrefix.length ≤ r'.pathPrefix.length := hlongest.maximal r hr hgov
      have hle : ¬ r.pathPrefix.length < r'.pathPrefix.length := fun hlt =>
        hbelow.longest r' hlongest.mem hlt (hlongest.holds.covers hslash)
      exact ⟨r', rfl, hlongest.holds.eq_of_length hgov hslash (by omega)⟩

/-- `/api` and a path below it. -/
theorem matched_below_threeRoutes :
    (∃ r', matched (register RouteSort.insertion none threeRoutes) (bytes "/api" ++ bytes "/users") =
        some r' ∧ r'.pathPrefix = bytes "/api") ↔
      bytes "/api" = bytes "/" ∨ (bytes "/users").head? = some 47 := by
  have hlonger : ∀ r ∈ threeRoutes, (bytes "/api").length < r.pathPrefix.length →
      ¬ r.pathPrefix <+: bytes "/api" ++ bytes "/users" := by decide
  exact matched_below_iff RouteSort.insertion none (r := ⟨bytes "/api", 1, [bytes "GET"]⟩)
    (List.mem_cons_of_mem _ List.mem_cons_self)
    ⟨by decide, .inr (by decide), fun r hr hlt hcovers => hlonger r hr hlt hcovers.isPrefix⟩
    (by decide)

/-- The prefix `/api/` is the only one, and a path below it is not found. -/
theorem not_matched_below :
    ¬ ∀ (srt : RouteSort Nat) (defaultHandler : Option Nat) (added : List (Route Nat)),
      ∀ r ∈ added, ∀ rest : Bytes, Below added r.pathPrefix rest →
      (r.pathPrefix ++ rest).head? = some 47 →
      ∃ r', matched (register srt defaultHandler added) (r.pathPrefix ++ rest) = some r' ∧
        r'.pathPrefix = r.pathPrefix := by
  intro h
  have hlonger : ∀ r ∈ [(⟨bytes "/api/", 0, []⟩ : Route Nat)],
      ¬ (bytes "/api/").length < r.pathPrefix.length := by decide
  obtain ⟨r', hmatched, -⟩ := h RouteSort.insertion none [⟨bytes "/api/", 0, []⟩] _ List.mem_cons_self
    (bytes "users") ⟨by decide, .inl (by decide), fun r hr hlt => absurd hlt (hlonger r hr)⟩
    (by decide)
  have hnone : (matched (register RouteSort.insertion none [(⟨bytes "/api/", 0, []⟩ : Route Nat)])
      (bytes "/api/" ++ bytes "users")).isNone = true := by decide
  rw [hmatched] at hnone
  cases hnone

end VeloxServe
