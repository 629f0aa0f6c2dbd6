import VeloxServe.Framework.StdString

/-! # Server Configuration

    `include/config/location_config.h` and `include/config/server_config.h`.
    The tokenizer of the config parser cuts the text at white space, so the
    methods of a location are words; a `LocationConfig` carries that with it.
-/

namespace VeloxServe

open StdString

/-- A token of the configuration text. -/
structure IsWord (s : Bytes) : Prop where
  ne_nil : s ≠ []
  noSpace : ∀ b ∈ s, isSpace b = false

theorem IsWord.not_mem {word : Bytes} (h : IsWord word) : (13 : UInt8) ∉ word := by
  intro hmem
  exact absurd (h.noSpace 13 hmem) (by decide)

instance (s : Bytes) : Decidable (IsWord s) :=
  decidable_of_iff (s ≠ [] ∧ ∀ b ∈ s, isSpace b = false)
    ⟨fun h => ⟨h.1, h.2⟩, fun h => ⟨h.ne_nil, h.noSpace⟩⟩

abbrev Word : Type := { s : Bytes // IsWord s }

/-- A `location` block. -/
structure LocationConfig where
  path : Bytes
  /-- Empty to inherit the root of the server block. -/
  root : Bytes := []
  indexFile : Bytes := bytes "index.html"
  /-- Empty to serve static files instead. -/
  proxyPass : Bytes := []
  methods : List Bytes := []
  methods_words : ∀ m ∈ methods, IsWord m
  autoindex : Bool := false

/-- `methods.push_back(method)`. -/
def LocationConfig.addMethod (loc : LocationConfig) (method : Word) : LocationConfig :=
  { loc with
    methods := loc.methods ++ [method.val]
    methods_words := by
      intro m hm
      rcases List.mem_append.mp hm with hm | hm
      · exact loc.methods_words m hm
      · exact List.mem_singleton.mp hm ▸ method.property }

/-- A location with a proxy target. -/
def LocationConfig.isProxy (loc : LocationConfig) : Bool := loc.proxyPass ≠ []

/-- A `server` block. -/
structure ServerConfig where
  port : Int := 8080
  host : Bytes := bytes "0.0.0.0"
  serverName : Bytes := bytes "localhost"
  root : Bytes := bytes "./www"
  clientMaxBodySize : Nat := 1048576
  /-- Zero to disable the rate limiter. -/
  rateLimit : Int := 0
  /-- The page for an error code. -/
  errorPages : Int → Option Bytes := fun _ => none
  locations : List LocationConfig := []

/-- An `upstream` block. -/
structure UpstreamConfig where
  name : Bytes := []
  servers : List (Bytes × Int) := []
  healthCheckInterval : Int := 5

end VeloxServe
