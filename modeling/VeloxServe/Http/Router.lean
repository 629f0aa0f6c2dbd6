import Mathlib.Data.List.Sort
import VeloxServe.Http.HttpResponse

/-! # Router

    `include/http/router.h` and `src/http/router.cpp`: routes with a path
    prefix, kept sorted by the length of the prefix. The library's sort is any
    function that sorts; handlers are of some type `α`, run by a function.
-/

namespace VeloxServe

open StdString

universe u v

structure Route (α : Type u) where
  pathPrefix : Bytes
  handler : α
  /-- Empty for all methods. -/
  allowedMethods : List Bytes

/-- The order of the routes: longest prefix first. -/
def Route.Before {α : Type u} (a b : Route α) : Prop := b.pathPrefix.length ≤ a.pathPrefix.length

/-- `std::sort` by `Before`: some permutation of its argument, in order. -/
structure RouteSort (α : Type u) where
  sort : List (Route α) → List (Route α)
  perm : ∀ routes, (sort routes).Perm routes
  sorted : ∀ routes, (sort routes).Pairwise Route.Before

instance {α : Type u} (a b : Route α) : Decidable (a.Before b) :=
  inferInstanceAs (Decidable (_ ≤ _))

instance {α : Type u} : Std.Total (Route.Before (α := α)) :=
  ⟨fun a b => Nat.le_total b.pathPrefix.length a.pathPrefix.length⟩

instance {α : Type u} : IsTrans (Route α) Route.Before :=
  ⟨fun _ _ _ hab hbc => Nat.le_trans hbc hab⟩

/-- Sorting by insertion. -/
def RouteSort.insertion {α : Type u} : RouteSort α where
  sort := List.insertionSort Route.Before
  perm := List.perm_insertionSort Route.Before
  sorted := List.pairwise_insertionSort Route.Before

structure Router (α : Type u) where
  routes : List (Route α) := []
  defaultHandler : Option α := none

namespace Router

variable {α : Type u} {σ : Type v}

def addRoute (srt : RouteSort α) (pathPrefix : Bytes) (handler : α) (allowedMethods : List Bytes)
    (router : Router α) : Router α :=
  { router with routes := srt.sort (router.routes ++ [⟨pathPrefix, handler, allowedMethods⟩]) }

/-- The exact path, or one that continues with a slash; `"/"` matches everything. -/
def matchesPath (route : Route α) (path : Bytes) : Bool :=
  decide (route.pathPrefix = bytes "/") || decide (path = route.pathPrefix) ||
    (decide (path.length > route.pathPrefix.length) &&
      decide (path.take route.pathPrefix.length = route.pathPrefix) &&
      decide (path[route.pathPrefix.length]? = some 47))

end Router

/-- What the loop of `route` finds. -/
def matched {α : Type u} (router : Router α) (path : Bytes) : Option (Route α) :=
  router.routes.find? fun route => Router.matchesPath route path

namespace Router

variable {α : Type u} {σ : Type v}

/-- What `route` decides to do. -/
inductive Decision (α : Type u) where
  | invoke (handler : α)
  | methodNotAllowed (allowed : Bytes)
  | notFound

def decision (router : Router α) (request : HttpRequest) : Decision α :=
  match matched router request.path with
  | some route =>
    if route.allowedMethods ≠ [] ∧ request.method ∉ route.allowedMethods then
      .methodNotAllowed ((bytes ", ").intercalate route.allowedMethods)
    else .invoke route.handler
  | none =>
    match router.defaultHandler with
    | some handler => .invoke handler
    | none => .notFound

/-- Find the matching route, check the method, invoke the handler. -/
def route (run : α → HttpRequest → σ → HttpResponse × σ) (router : Router α)
    (request : HttpRequest) (s : σ) : HttpResponse × σ :=
  match router.decision request with
  | .invoke handler => run handler request s
  | .methodNotAllowed allowed => (HttpResponse.methodNotAllowed allowed, s)
  | .notFound => (HttpResponse.notFound [], s)

end Router

end VeloxServe
