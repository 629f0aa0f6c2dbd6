import VeloxServe.Http.RouteSelection
import VeloxServe.Modules.StaticHandler

/-! # Two Readings of One Path

    The router compares the decoded request path with its prefixes byte by byte;
    the static handler resolves empty, `.` and `..` segments before it looks for
    a file. A path that is not in resolved form may fall under one location and
    name a file under another.
-/

namespace VeloxServe

open StdString LongestMatch

universe u

variable {α : Type u}

/-- A path and its resolved form are routed alike. -/
def RoutedAlike (router : Router α) (path : Bytes) : Prop :=
  matched router path = matched router (StaticHandler.sanitizePath path)

/-- A prefix that matches only one of the two is shorter than one that matches both. -/
def CoveredAlike (added : List (Route α)) (path clean : Bytes) : Prop :=
  ∀ r ∈ added, (Governs r.pathPrefix path ∧ ¬ Governs r.pathPrefix clean) ∨
      (Governs r.pathPrefix clean ∧ ¬ Governs r.pathPrefix path) →
    ∃ r' ∈ added, Governs r'.pathPrefix path ∧ Governs r'.pathPrefix clean ∧
      r.pathPrefix.length < r'.pathPrefix.length

theorem sanitizePath_head {path : Bytes} (h : StaticHandler.sanitizePath path ≠ []) :
    (StaticHandler.sanitizePath path).head? = some 47 := by
  unfold StaticHandler.sanitizePath at *
  split at h
  · exact absurd rfl h
  · rfl

section

variable {added : List (Route α)} {path : Bytes}

/-- **A path is routed like its resolved form exactly when the prefixes that tell the two
    apart are overruled by a longer one that does not.** -/
theorem routedAlike_iff (srt : RouteSort α) (defaultHandler : Option α)
    (hdistinct : (added.map (·.pathPrefix)).Nodup) (hslash : path.head? = some 47)
    (hclean : StaticHandler.sanitizePath path ≠ []) :
    RoutedAlike (register srt defaultHandler added) path ↔
      CoveredAlike added path (StaticHandler.sanitizePath path) := by
  have hholds := register_holds srt defaultHandler added
  have hslash' := sanitizePath_head hclean
  have hbest := same_best_iff (separated hdistinct hslash) (separated hdistinct hslash')
  unfold RoutedAlike CoveredAlike
  rw [← hbest, Option.ext_iff]
  constructor
  · intro hsame r
    have hr := hsame r
    rw [matched_eq_some_iff hholds hdistinct hslash,
      matched_eq_some_iff hholds hdistinct hslash'] at hr
    exact hr
  · intro hsame r
    rw [matched_eq_some_iff hholds hdistinct hslash,
      matched_eq_some_iff hholds hdistinct hslash']
    exact hsame r

/-- A prefix as long as a path matches it only if it is the path. -/
theorem Governs.eq_of_length_le {q : Bytes} (h : Governs q path) (hslash : path.head? = some 47)
    (hle : path.length ≤ q.length) : path = q := by
  rcases h with rfl | rfl | hpre
  · cases path with
    | nil => cases hslash
    | cons b rest =>
      obtain rfl := Option.some.inj hslash
      have hone : (bytes "/").length = 1 := by decide
      have hrest : rest = [] := by
        rw [hone, List.length_cons] at hle
        exact List.eq_nil_of_length_eq_zero (by omega)
      rw [hrest]
      decide
  · rfl
  · have hlen := hpre.length_le
    rw [List.length_append, List.length_singleton] at hlen
    omega

end

/-! ## A Hidden Location -/

/-- A site with one location of its own. -/
def adminRoutes : List (Route Nat) :=
  [⟨bytes "/", 0, []⟩, ⟨bytes "/admin", 1, [bytes "GET"]⟩]

theorem routedAlike_docs :
    RoutedAlike (register RouteSort.insertion none adminRoutes) (bytes "/admin/./log") ↔
      CoveredAlike adminRoutes (bytes "/admin/./log")
        (StaticHandler.sanitizePath (bytes "/admin/./log")) :=
  routedAlike_iff RouteSort.insertion none (by decide) (by decide) (by decide)

/-- What a client sends for `//admin`. -/
def hiddenAdmin : Bytes := bytes "GET //admin HTTP/1.1\r\n\r\n"

theorem not_routedAlike_hiddenAdmin :
    ¬ ∀ (srt : RouteSort Nat) (added : List (Route Nat)) (request : HttpRequest),
      (added.map (·.pathPrefix)).Nodup → Accepted request →
      StaticHandler.sanitizePath request.path ≠ [] →
      RoutedAlike (register srt none added) request.path := by
  intro h
  have haccepted : Accepted (({} : HttpParser).parse hiddenAdmin { clientIp := [] }).2.2 :=
    Accepted.of_parse (by decide +kernel) (by decide +kernel)
  have hpath : (({} : HttpParser).parse hiddenAdmin { clientIp := [] }).2.2.path =
      bytes "//admin" := by decide +kernel
  have halike := h RouteSort.insertion adminRoutes _ (by decide) haccepted
    (by rw [hpath]; decide)
  unfold RoutedAlike at halike
  rw [hpath] at halike
  have hhandler := congrArg (Option.map (·.handler)) halike
  revert hhandler
  decide +kernel

end VeloxServe
