import VeloxServe.Config.ConfigNumbers

/-! # Printed Configurations

    A configuration that holds words as the tokenizer cuts them, `int`s, a
    `size_t` and tables with finitely many entries can be written down: a text
    that says every field in full is read back as it was.

    * **Writable**: what a configuration text can say.
    * **Printer**: a text for a writable configuration, given the names and codes
      of its tables.
-/

namespace VeloxServe

open StdString ConfigParser ConfigGrammar ConfigLayout ConfigNumbers

/-! ## Section 1: Writable Configurations -/

namespace ConfigPrinter

/-- Bytes that can stand in a word. -/
def Plain (s : Bytes) : Prop := ∀ b ∈ s, isWordByte b = true

/-- A word as the tokenizer cuts it. -/
structure IsToken (s : Bytes) : Prop where
  ne_nil : s ≠ []
  plain : Plain s

instance (s : Bytes) : Decidable (Plain s) := inferInstanceAs (Decidable (∀ b ∈ s, _))

instance (s : Bytes) : Decidable (IsToken s) :=
  decidable_of_iff (s ≠ [] ∧ Plain s) ⟨fun h => ⟨h.1, h.2⟩, fun h => ⟨h.ne_nil, h.plain⟩⟩

/-- An `int`. -/
structure FitsInt (i : Int) : Prop where
  lower : -2 ^ 31 ≤ i
  upper : i < 2 ^ 31

structure WritableLocation (loc : LocationConfig) : Prop where
  path : IsToken loc.path
  root : loc.root = [] ∨ IsToken loc.root
  indexFile : IsToken loc.indexFile
  proxyPass : loc.proxyPass = [] ∨ IsToken loc.proxyPass
  methods : ∀ m ∈ loc.methods, IsToken m

structure WritableServer (config : ServerConfig) : Prop where
  port : FitsInt config.port
  host : Plain config.host
  /-- The host ends at the first colon. -/
  noColon : (58 : UInt8) ∉ config.host
  serverName : IsToken config.serverName
  root : IsToken config.root
  clientMaxBodySize : config.clientMaxBodySize < 2 ^ 64
  rateLimit : FitsInt config.rateLimit
  errorPages : ∀ code page, config.errorPages code = some page → FitsInt code ∧ IsToken page
  finite : ∃ codes : List Int, ∀ code, config.errorPages code ≠ none → code ∈ codes
  locations : ∀ loc ∈ config.locations, WritableLocation loc

structure WritableUpstream (upstream : UpstreamConfig) : Prop where
  name : IsToken upstream.name
  /-- The host ends at the last colon, and others may stand in it. -/
  servers : ∀ server ∈ upstream.servers, Plain server.1 ∧ FitsInt server.2
  healthCheckInterval : FitsInt upstream.healthCheckInterval

/-- What the blocks of a configuration text can say. -/
structure WritableBlocks (parsed : Parsed) : Prop where
  configs : ∀ config ∈ parsed.configs, WritableServer config
  upstreams : ∀ name upstream, parsed.upstreams name = some upstream →
    upstream.name = name ∧ WritableUpstream upstream
  finite : ∃ names : List Bytes, ∀ name, parsed.upstreams name ≠ none → name ∈ names

/-- **Writable**: what a configuration text can say, with a server block in it. -/
structure Writable (parsed : Parsed) : Prop extends WritableBlocks parsed where
  ne_nil : parsed.configs ≠ []

/-- The names and the codes that the tables have entries for are among these. -/
structure Lists (names : List Bytes) (codes : List Int) (parsed : Parsed) : Prop where
  names : ∀ name, parsed.upstreams name ≠ none → name ∈ names
  codes : ∀ config ∈ parsed.configs, ∀ code, config.errorPages code ≠ none → code ∈ codes

/-! ## Section 2: Printer -/

theorem isWord_dash : IsWord (bytes "-") := by decide +kernel

/-- The word of a text, or a dash for what is none. -/
def wordOf (s : Bytes) : Word := if h : IsWord s then ⟨s, h⟩ else ⟨bytes "-", isWord_dash⟩

/-- `HOST:PORT`. -/
def hostPort (host : Bytes) (port : Int) : Bytes := host ++ 58 :: intDecimal port

def printLocation (loc : LocationConfig) : LocationBlock where
  path := wordOf loc.path
  directives :=
    (if loc.root = [] then [] else [.root (wordOf loc.root)]) ++
    (if loc.proxyPass = [] then [] else [.proxyPass (wordOf loc.proxyPass)]) ++
    [.index (wordOf loc.indexFile), .methods (loc.methods.map wordOf),
      .autoindex (wordOf (bytes (if loc.autoindex then "on" else "off")))]

/-- An `error_page` for each of the codes that has one. -/
def printPages (codes : List Int) (pages : Int → Option Bytes) : List ServerItem :=
  codes.filterMap fun code => (pages code).map fun page =>
    .directive (.errorPage (wordOf (intDecimal code)) (wordOf page))

/-- The directives that a server block has once. -/
def printSettings (config : ServerConfig) : List ServerItem :=
  [.directive (.listen (wordOf (hostPort config.host config.port))),
    .directive (.serverName (wordOf config.serverName)),
    .directive (.root (wordOf config.root)),
    .directive (.clientMaxBodySize (wordOf (decimal config.clientMaxBodySize))),
    .directive (.rateLimit (wordOf (intDecimal config.rateLimit)))]

def printItems (codes : List Int) (config : ServerConfig) : List ServerItem :=
  printSettings config ++ printPages codes config.errorPages ++
    config.locations.map fun loc => .location (printLocation loc)

def printServer (codes : List Int) (config : ServerConfig) : Block :=
  .server (printItems codes config)

def printUpstream (upstream : UpstreamConfig) : Block :=
  .upstream (wordOf upstream.name)
    (.healthCheckInterval (wordOf (intDecimal upstream.healthCheckInterval)) ::
      upstream.servers.map fun server => .server (wordOf (hostPort server.1 server.2)))

def printBlocks (names : List Bytes) (codes : List Int) (parsed : Parsed) : List Block :=
  names.filterMap (fun name => (parsed.upstreams name).map printUpstream) ++
    parsed.configs.map (printServer codes)

/-- A blank in front of every token. -/
def spaced (lexemes : List Lexeme) : Bytes := lexemes.flatMap fun l => 32 :: l.value

/-- **The printer.** -/
def print (names : List Bytes) (codes : List Int) (parsed : Parsed) : Bytes :=
  spaced (render (printBlocks names codes parsed))

example : print [] [404] { configs := [setErrorPage {} 404 (bytes "/404.html")] } =
    bytes (" server \x7b listen 0.0.0.0:8080 ; server_name localhost ; root ./www ;" ++
      " client_max_body_size 1048576 ; rate_limit 0 ; error_page 404 /404.html ; \x7d") := by
  decide +kernel

/-! ## Section 3: Texts and Tokens -/

section

variable {s : Bytes}

theorem not_isSpace_of_isWordByte {b : UInt8} (h : isWordByte b = true) : isSpace b = false := by
  unfold isWordByte at h
  by_contra hspace
  simp [hspace] at h

theorem IsToken.isWord (h : IsToken s) : IsWord s where
  ne_nil := h.ne_nil
  noSpace := fun b hb => not_isSpace_of_isWordByte (h.plain b hb)

theorem wordOf_val (h : IsToken s) : (wordOf s).val = s := by
  unfold wordOf
  rw [dif_pos h.isWord]

theorem isWritten_wordOf (h : IsToken s) : IsWritten (.word (wordOf s)) := by
  show Plain (wordOf s).val
  rw [wordOf_val h]
  exact h.plain

theorem isToken_of_isWritten {w : Word} (h : IsWritten (.word w)) : IsToken w.val :=
  ⟨w.property.ne_nil, h⟩

theorem isWritten_keyword {name : String} {h : IsWord (bytes name)} (hplain : Plain (bytes name)) :
    IsWritten (keyword name h) :=
  hplain

/-- The tokenizer makes no other words. -/
theorem isWritten_tokenizeFrom {line : Int} : ∀ t ∈ tokenizeFrom line s, IsWritten t.lexeme := by
  fun_induction tokenizeFrom line s with
  | case1 => exact List.forall_mem_nil _
  | case2 line rest ih => exact ih
  | case3 line c rest _ _ ih => exact ih
  | case4 line rest _ _ ih => exact ih
  | case5 line rest _ _ _ ih => exact List.forall_mem_cons.mpr ⟨trivial, ih⟩
  | case6 line rest _ _ _ _ ih => exact List.forall_mem_cons.mpr ⟨trivial, ih⟩
  | case7 line rest _ _ _ _ _ ih => exact List.forall_mem_cons.mpr ⟨trivial, ih⟩
  | case8 line c rest _ _ _ _ _ _ _ ih =>
    exact List.forall_mem_cons.mpr ⟨fun b hb => List.mem_takeWhile_imp hb, ih⟩

end

/-- The layout of the printer. -/
def spacedLayout (lexemes : List Lexeme) (h : ∀ l ∈ lexemes, IsWritten l) : Layout where
  items := lexemes.map fun l => ([.space 32 isSpace_blank], l)
  written := by
    intro item hitem
    obtain ⟨l, hl, rfl⟩ := List.mem_map.mp hitem
    exact h l hl
  apart := by
    rw [List.isChain_map]
    exact List.Pairwise.isChain (List.pairwise_of_forall fun _ _ _ _ => List.cons_ne_nil _ _)
  trailing := []
  unfinished := none

theorem tokenize_spaced {lexemes : List Lexeme} (h : ∀ l ∈ lexemes, IsWritten l) :
    (tokenize (spaced lexemes)).map Token.lexeme = lexemes := by
  have htext : (spacedLayout lexemes h).text = spaced lexemes := by
    unfold Layout.text Layout.endText spacedLayout itemsText spaced
    rw [List.flatMap_map]
    exact List.append_nil _
  have hlexemes : (spacedLayout lexemes h).lexemes = lexemes := by
    unfold Layout.lexemes spacedLayout
    rw [List.map_map]
    exact List.map_id lexemes
  rw [← htext, (spacedLayout lexemes h).tokenize_lexemes, hlexemes]

/-! ## Section 4: Printed Numbers -/

theorem isWordByte_of_isDigit : ∀ b, isDigit b = true → isWordByte b = true := by decide +kernel

theorem isToken_decimal (n : Nat) : IsToken (decimal n) where
  ne_nil := (isNumeral_decimal n).ne_nil
  plain := fun b hb => isWordByte_of_isDigit b (isDigit_of_mem_decimal hb)

theorem isToken_intDecimal (i : Int) : IsToken (intDecimal i) where
  ne_nil := by
    cases i with
    | ofNat n => exact (isNumeral_decimal n).ne_nil
    | negSucc n => exact List.cons_ne_nil _ _
  plain := by
    intro b hb
    obtain rfl | hdigit := mem_intDecimal hb
    · decide
    · exact isWordByte_of_isDigit b hdigit

/-- A printed `int` has no colon in it. -/
theorem colon_not_mem_intDecimal (i : Int) : (58 : UInt8) ∉ intDecimal i := by
  intro hmem
  obtain h | h := mem_intDecimal hmem
  · exact absurd h (by decide)
  · exact absurd h (by decide)

theorem isToken_hostPort {host : Bytes} (h : Plain host) (port : Int) :
    IsToken (hostPort host port) where
  ne_nil := by simp [hostPort]
  plain := by
    intro b hb
    obtain hb | hb := List.mem_append.mp hb
    · exact h b hb
    · obtain rfl | hb := List.mem_cons.mp hb
      · decide
      · exact (isToken_intDecimal port).plain b hb

section

variable {host : Bytes} {port : Int}

theorem drop_hostPort : (hostPort host port).drop (host.length + 1) = intDecimal port := by
  unfold hostPort
  rw [List.drop_append]
  simp

theorem take_hostPort : (hostPort host port).take host.length = host := by
  unfold hostPort
  rw [List.take_append]
  simp

/-- `listen` finds the host again, as it has no colon. -/
theorem listen_hostPort (config : ServerConfig) (hcolon : (58 : UInt8) ∉ host) (h : FitsInt port) :
    ConfigParser.listen config (hostPort host port) =
      .ok { config with host := host, port := port } := by
  have hfind : find (bytes ":") (hostPort host port) = some host.length :=
    find_singleton (intDecimal port) hcolon
  unfold ConfigParser.listen
  rw [hfind]
  dsimp only
  rw [drop_hostPort, take_hostPort, stoi_intDecimal h.lower h.upper]
  rfl

/-- The last colon is the one the port stands behind. -/
theorem findLastOf_hostPort : findLastOf 58 (hostPort host port) = some host.length := by
  have hmem : (58 : UInt8) ∈ hostPort host port := by simp [hostPort]
  have hall : ∀ b ∈ (intDecimal port).reverse, decide (b ≠ 58) = true := by
    intro b hb
    have hne : b ≠ 58 := fun heq =>
      colon_not_mem_intDecimal port (heq ▸ List.mem_reverse.mp hb)
    simpa using hne
  have htake : (hostPort host port).reverse.takeWhile (· ≠ 58) = (intDecimal port).reverse := by
    unfold hostPort
    rw [List.reverse_append, List.reverse_cons, List.append_assoc, List.takeWhile_append_of_pos hall]
    simp
  unfold findLastOf
  rw [if_pos hmem, htake, List.length_reverse]
  unfold hostPort
  rw [List.length_append, List.length_cons]
  congr 1
  omega

theorem addServer_hostPort (upstream : UpstreamConfig) (h : FitsInt port) :
    addServer upstream (hostPort host port) =
      .ok { upstream with servers := upstream.servers ++ [(host, port)] } := by
  unfold addServer
  rw [findLastOf_hostPort]
  dsimp only
  rw [drop_hostPort, take_hostPort, stoi_intDecimal h.lower h.upper]
  rfl

end

/-- A digit is no suffix of a size. -/
theorem parseSize_decimal {n : Nat} (h : n < 2 ^ 64) : parseSize (decimal n) = .ok n := by
  have hne := (isNumeral_decimal n).ne_nil
  have hlast : (decimal n).getLast? = some ((decimal n).getLast hne) := List.getLast?_eq_some_getLast hne
  have hdigit := isDigit_of_mem_decimal (List.getLast_mem hne)
  have hsuffix : ∀ b, isDigit b = true → ¬(b = 75 ∨ b = 107) ∧ ¬(b = 77 ∨ b = 109) ∧
      ¬(b = 71 ∨ b = 103) := by decide +kernel
  obtain ⟨hkilo, hmega, hgiga⟩ := hsuffix _ hdigit
  unfold parseSize
  rw [hlast]
  dsimp only
  rw [if_neg hkilo, if_neg hmega, if_neg hgiga, (isNumeral_decimal n).stoul h]
  show Except.ok (n * 1 % 2 ^ 64) = Except.ok n
  rw [Nat.mul_one, Nat.mod_eq_of_lt h]

/-! ## Section 5: Reading Back -/

section

variable {κ ν σ ι ε : Type} [DecidableEq κ]

/-- The entries that a table has for these keys, put over another table. -/
def overlay (keys : List κ) (table start : κ → Option ν) (k : κ) : Option ν :=
  if k ∈ keys then (table k).or (start k) else start k

theorem overlay_cons (key : κ) (keys : List κ) (table start : κ → Option ν) :
    overlay (key :: keys) table start =
      overlay keys table fun k => if k = key then (table k).or (start k) else start k := by
  funext k
  unfold overlay
  by_cases hkey : k = key
  · rw [if_pos (hkey ▸ List.mem_cons_self)]
    dsimp only
    rw [if_pos hkey]
    cases table k <;> simp
  · have hmem : k ∈ key :: keys ↔ k ∈ keys := by simp [hkey]
    simp only [hmem, hkey, if_false]

theorem overlay_full {keys : List κ} {table : κ → Option ν} (h : ∀ k, table k ≠ none → k ∈ keys) :
    overlay keys table (fun _ => none) = table := by
  funext k
  unfold overlay
  by_cases hmem : k ∈ keys
  · rw [if_pos hmem, Option.or_none]
  · rw [if_neg hmem]
    by_contra hne
    exact hmem (h k fun hnone => hne hnone.symm)

/-- One directive for each entry of a table fills the table. -/
theorem foldlM_entries {apply : σ → ι → Except ε σ} {entry : κ → ν → ι} {table : κ → Option ν}
    (put : (κ → Option ν) → σ)
    (happly : ∀ k v start, table k = some v →
      apply (put start) (entry k v) = .ok (put fun k' => if k' = k then some v else start k'))
    (keys : List κ) (start : κ → Option ν) :
    (keys.filterMap fun k => (table k).map (entry k)).foldlM apply (put start) =
      .ok (put (overlay keys table start)) := by
  induction keys generalizing start with
  | nil => rfl
  | cons key keys ih =>
    rw [overlay_cons, List.filterMap_cons]
    cases hkey : table key with
    | none =>
      have hsame : (fun k => if k = key then (table k).or (start k) else start k) = start := by
        funext k
        split
        · next hk => rw [hk, hkey, Option.none_or]
        · rfl
      rw [hsame]
      exact ih start
    | some v =>
      have hset : (fun k => if k = key then (table k).or (start k) else start k) =
          fun k => if k = key then some v else start k := by
        funext k
        split
        · next hk => rw [hk, hkey, Option.some_or]
        · rfl
      rw [hset]
      show ((entry key v :: _).foldlM apply (put start)) = _
      rw [List.foldlM_cons, happly key v start hkey]
      exact ih _

end

section

variable {σ ι α ε : Type} {apply : σ → ι → Except ε σ} {s s' : σ}

theorem foldlM_cons_ok {d : ι} (h : apply s d = .ok s') (ds : List ι) :
    (d :: ds).foldlM apply s = ds.foldlM apply s' := by
  rw [List.foldlM_cons, h]
  rfl

theorem foldlM_append_ok {ds : List ι} (h : ds.foldlM apply s = .ok s') (ds' : List ι) :
    (ds ++ ds').foldlM apply s = ds'.foldlM apply s' := by
  rw [List.foldlM_append, h]
  rfl

/-- Directives that are all accepted. -/
theorem foldlM_accepted {f : α → ι} {g : σ → α → σ} {l : List α}
    (h : ∀ s, ∀ a ∈ l, apply s (f a) = .ok (g s a)) (s : σ) :
    (l.map f).foldlM apply s = .ok (l.foldl g s) := by
  induction l generalizing s with
  | nil => rfl
  | cons a l ih =>
    rw [List.map_cons, foldlM_cons_ok (h s a List.mem_cons_self)]
    exact ih (fun s a ha => h s a (List.mem_cons_of_mem _ ha)) _

end

theorem map_wordOf {words : List Bytes} (h : ∀ m ∈ words, IsToken m) :
    (words.map wordOf).map Subtype.val = words := by
  rw [List.map_map]
  exact (List.map_congr_left fun m hm => wordOf_val (h m hm)).trans (List.map_id words)

theorem meaning_printLocation {loc : LocationConfig} (h : WritableLocation loc) :
    (printLocation loc).meaning = loc := by
  obtain ⟨path, root, indexFile, proxyPass, methods, methods_words, autoindex⟩ := loc
  have hpath := wordOf_val h.path
  have hindex := wordOf_val h.indexFile
  have hmethods := map_wordOf h.methods
  have hauto : decide ((wordOf (bytes (if autoindex then "on" else "off"))).val ∈
      [bytes "on", bytes "true", bytes "yes"]) = autoindex := by
    cases autoindex <;> decide +kernel
  have hroot : (if root = [] then [] else [LocationDirective.root (wordOf root)]).foldl
      LocationDirective.apply { path := path, methods_words := List.forall_mem_nil _ } =
        { path := path, root := root, methods_words := List.forall_mem_nil _ } := by
    split
    · next hnil => rw [hnil]; rfl
    · next hne =>
      have hword := wordOf_val (h.root.resolve_left hne)
      simp only [List.foldl_cons, List.foldl_nil, LocationDirective.apply, hword]
  have hproxy : (if proxyPass = [] then [] else [LocationDirective.proxyPass (wordOf proxyPass)]).foldl
      LocationDirective.apply { path := path, root := root, methods_words := List.forall_mem_nil _ } =
        { path := path, root := root, proxyPass := proxyPass,
          methods_words := List.forall_mem_nil _ } := by
    split
    · next hnil => rw [hnil]; rfl
    · next hne =>
      have hword := wordOf_val (h.proxyPass.resolve_left hne)
      simp only [List.foldl_cons, List.foldl_nil, LocationDirective.apply, hword]
  unfold LocationBlock.meaning printLocation
  dsimp only
  rw [List.foldl_append, List.foldl_append, hpath, hroot, hproxy]
  simp only [List.foldl_cons, List.foldl_nil, LocationDirective.apply]
  simp only [hindex, hauto, hmethods, List.nil_append]

theorem foldlM_printPages {codes : List Int} {pages : Int → Option Bytes} {config : ServerConfig}
    (h : ∀ code page, pages code = some page → FitsInt code ∧ IsToken page) :
    (printPages codes pages).foldlM ServerItem.apply config =
      .ok { config with errorPages := overlay codes pages config.errorPages } := by
  refine foldlM_entries (fun e => { config with errorPages := e }) ?_ codes config.errorPages
  intro code page start hpage
  obtain ⟨hcode, htoken⟩ := h code page hpage
  show (do
    let n ← stoi (wordOf (intDecimal code)).val
    pure { config with
      errorPages := fun c => if c = n then some (wordOf page).val else start c }) = _
  rw [wordOf_val (isToken_intDecimal code), stoi_intDecimal hcode.lower hcode.upper, wordOf_val htoken]
  rfl

theorem foldl_addLocation (locations : List LocationConfig) (config : ServerConfig) :
    locations.foldl addLocation config =
      { config with locations := config.locations ++ locations } := by
  induction locations generalizing config with
  | nil => simp
  | cons loc locations ih =>
    rw [List.foldl_cons, ih]
    simp [addLocation]

theorem foldlM_printSettings {config : ServerConfig} (h : WritableServer config) :
    (printSettings config).foldlM ServerItem.apply {} =
      .ok { config with errorPages := fun _ => none, locations := [] } := by
  have hlisten : ServerItem.apply {} (.directive (.listen (wordOf (hostPort config.host config.port)))) =
      .ok { host := config.host, port := config.port } := by
    show ServerDirective.apply {} (.listen (wordOf (hostPort config.host config.port))) = _
    rw [ServerDirective.apply_listen, wordOf_val (isToken_hostPort h.host config.port), listen_hostPort {} h.noColon h.port]
  have hname (s : ServerConfig) : ServerItem.apply s (.directive (.serverName (wordOf config.serverName))) =
      .ok { s with serverName := config.serverName } := by
    show Except.ok { s with serverName := (wordOf config.serverName).val } = _
    rw [wordOf_val h.serverName]
  have hroot (s : ServerConfig) : ServerItem.apply s (.directive (.root (wordOf config.root))) =
      .ok { s with root := config.root } := by
    show Except.ok { s with root := (wordOf config.root).val } = _
    rw [wordOf_val h.root]
  have hsize (s : ServerConfig) : ServerItem.apply s
      (.directive (.clientMaxBodySize (wordOf (decimal config.clientMaxBodySize)))) =
        .ok { s with clientMaxBodySize := config.clientMaxBodySize } := by
    show ServerDirective.apply s (.clientMaxBodySize (wordOf (decimal config.clientMaxBodySize))) = _
    rw [ServerDirective.apply_clientMaxBodySize, wordOf_val (isToken_decimal _),
      parseSize_decimal h.clientMaxBodySize]
    rfl
  have hrate (s : ServerConfig) : ServerItem.apply s
      (.directive (.rateLimit (wordOf (intDecimal config.rateLimit)))) =
        .ok { s with rateLimit := config.rateLimit } := by
    show (do
      let rate ← stoi (wordOf (intDecimal config.rateLimit)).val
      pure { s with rateLimit := rate }) = _
    rw [wordOf_val (isToken_intDecimal _), stoi_intDecimal h.rateLimit.lower h.rateLimit.upper]
    rfl
  unfold printSettings
  rw [foldlM_cons_ok hlisten, foldlM_cons_ok (hname _), foldlM_cons_ok (hroot _),
    foldlM_cons_ok (hsize _), foldlM_cons_ok (hrate _)]
  rfl

/-- **A server block is read back** as a configuration of its own. -/
theorem apply_printServer {codes : List Int} {config : ServerConfig} (h : WritableServer config)
    (hcodes : ∀ code, config.errorPages code ≠ none → code ∈ codes) (parsed : Parsed) :
    (printServer codes config).apply parsed = .ok (parsed.addConfig config) := by
  have hlocations : ∀ s, ∀ loc ∈ config.locations,
      ServerItem.apply s (.location (printLocation loc)) = .ok (addLocation s loc) := by
    intro s loc hloc
    show Except.ok (addLocation s (printLocation loc).meaning) = _
    rw [meaning_printLocation (h.locations loc hloc)]
  have hitems : (printItems codes config).foldlM ServerItem.apply {} = .ok config := by
    unfold printItems
    rw [List.append_assoc, foldlM_append_ok (foldlM_printSettings h),
      foldlM_append_ok (foldlM_printPages h.errorPages), foldlM_accepted hlocations, foldl_addLocation]
    dsimp only
    rw [overlay_full hcodes]
    rfl
  show (do
    let config ← (printItems codes config).foldlM ServerItem.apply {}
    pure { parsed with configs := parsed.configs ++ [config] }) = _
  rw [hitems]
  rfl

theorem foldl_addServers (servers : List (Bytes × Int)) (upstream : UpstreamConfig) :
    servers.foldl (fun u server => { u with servers := u.servers ++ [server] }) upstream =
      { upstream with servers := upstream.servers ++ servers } := by
  induction servers generalizing upstream with
  | nil => simp
  | cons server servers ih =>
    rw [List.foldl_cons, ih]
    simp

/-- **An upstream block is read back** under its name. -/
theorem apply_printUpstream {upstream : UpstreamConfig} (h : WritableUpstream upstream)
    (parsed : Parsed) :
    (printUpstream upstream).apply parsed = .ok (parsed.setUpstream upstream) := by
  have hname := wordOf_val h.name
  have hinterval (u : UpstreamConfig) : UpstreamDirective.apply u
      (.healthCheckInterval (wordOf (intDecimal upstream.healthCheckInterval))) =
        .ok { u with healthCheckInterval := upstream.healthCheckInterval } := by
    show (do
      let seconds ← stoi (wordOf (intDecimal upstream.healthCheckInterval)).val
      pure { u with healthCheckInterval := seconds }) = _
    rw [wordOf_val (isToken_intDecimal _),
      stoi_intDecimal h.healthCheckInterval.lower h.healthCheckInterval.upper]
    rfl
  have hservers : ∀ u, ∀ server ∈ upstream.servers,
      UpstreamDirective.apply u (.server (wordOf (hostPort server.1 server.2))) =
        .ok { u with servers := u.servers ++ [server] } := by
    intro u server hserver
    obtain ⟨hhost, hport⟩ := h.servers server hserver
    rw [UpstreamDirective.apply_server, wordOf_val (isToken_hostPort hhost server.2), addServer_hostPort u hport]
  have hdirectives : (UpstreamDirective.healthCheckInterval
      (wordOf (intDecimal upstream.healthCheckInterval)) :: upstream.servers.map fun server =>
        .server (wordOf (hostPort server.1 server.2))).foldlM UpstreamDirective.apply
          { name := upstream.name } = .ok upstream := by
    rw [foldlM_cons_ok (hinterval _), foldlM_accepted hservers, foldl_addServers]
    rfl
  unfold printUpstream Block.apply
  dsimp only
  rw [hname, hdirectives]
  rfl

theorem foldl_addConfig (configs : List ServerConfig) (parsed : Parsed) :
    configs.foldl Parsed.addConfig parsed = { parsed with configs := parsed.configs ++ configs } := by
  induction configs generalizing parsed with
  | nil => simp
  | cons config configs ih =>
    rw [List.foldl_cons, ih]
    simp [Parsed.addConfig]

/-- **What is printed means what it was printed from.** -/
theorem meaning_printBlocks {names : List Bytes} {codes : List Int} {parsed : Parsed}
    (h : Writable parsed) (hlists : Lists names codes parsed) :
    meaning (printBlocks names codes parsed) = .ok parsed := by
  have hupstreams : (names.filterMap fun name => (parsed.upstreams name).map printUpstream).foldlM
      Block.apply {} = .ok { upstreams := parsed.upstreams } := by
    refine (foldlM_entries (fun upstreams => ({ upstreams := upstreams } : Parsed)) ?_ names
      fun _ => none).trans ?_
    · intro name upstream start hname
      obtain ⟨rfl, hwritable⟩ := h.upstreams name upstream hname
      exact apply_printUpstream hwritable _
    · rw [overlay_full hlists.names]
  have hconfigs : ∀ s, ∀ config ∈ parsed.configs,
      (printServer codes config).apply s = .ok (s.addConfig config) := by
    intro s config hconfig
    exact apply_printServer (h.configs config hconfig) (hlists.codes config hconfig) s
  unfold meaning printBlocks
  rw [foldlM_append_ok hupstreams, foldlM_accepted hconfigs, foldl_addConfig]
  rfl

/-! ## Section 6: The Printed Tokens -/

/-- Tokens that the tokenizer makes. -/
def Written (lexemes : List Lexeme) : Prop := ∀ l ∈ lexemes, IsWritten l

section

variable {k : Lexeme} {w : Word}

theorem Written.append {a b : List Lexeme} (ha : Written a) (hb : Written b) : Written (a ++ b) :=
  List.forall_mem_append.mpr ⟨ha, hb⟩

theorem Written.flatMap {ι : Type} {render : ι → List Lexeme} {l : List ι}
    (h : ∀ d ∈ l, Written (render d)) : Written (l.flatMap render) := by
  intro lexeme hmem
  obtain ⟨d, hd, hlexeme⟩ := List.mem_flatMap.mp hmem
  exact h d hd lexeme hlexeme

theorem written_directive (hk : IsWritten k) (hw : IsWritten (.word w)) :
    Written [k, .word w, .semicolon] := by
  simp only [Written, List.forall_mem_cons]
  exact ⟨hk, hw, trivial, List.forall_mem_nil _⟩

/-- Braces around what is written. -/
theorem written_braces (front : List Lexeme) {body : List Lexeme} (hfront : Written front) (hbody : Written body) :
    Written (front ++ .lbrace :: (body ++ [.rbrace])) := by
  refine hfront.append (List.forall_mem_cons.mpr ⟨trivial, ?_⟩)
  exact Written.append hbody (List.forall_mem_singleton.mpr trivial)

end

theorem written_printLocation {loc : LocationConfig} (h : WritableLocation loc) :
    Written (printLocation loc).render := by
  have hroot : Written ((if loc.root = [] then [] else
      [LocationDirective.root (wordOf loc.root)]).flatMap LocationDirective.render) := by
    split
    · exact List.forall_mem_nil _
    · next hne =>
      rw [List.flatMap_singleton]
      exact written_directive (isWritten_keyword (by decide +kernel))
        (isWritten_wordOf (h.root.resolve_left hne))
  have hproxy : Written ((if loc.proxyPass = [] then [] else
      [LocationDirective.proxyPass (wordOf loc.proxyPass)]).flatMap LocationDirective.render) := by
    split
    · exact List.forall_mem_nil _
    · next hne =>
      rw [List.flatMap_singleton]
      exact written_directive (isWritten_keyword (by decide +kernel))
        (isWritten_wordOf (h.proxyPass.resolve_left hne))
  have hmethods : Written (LocationDirective.methods (loc.methods.map wordOf)).render := by
    refine List.forall_mem_cons.mpr ⟨isWritten_keyword (by decide +kernel), ?_⟩
    refine Written.append ?_ (List.forall_mem_singleton.mpr trivial)
    intro l hl
    rw [List.map_map] at hl
    obtain ⟨m, hm, rfl⟩ := List.mem_map.mp hl
    exact isWritten_wordOf (h.methods m hm)
  have hauto : IsToken (bytes (if loc.autoindex then "on" else "off")) := by
    cases loc.autoindex <;> decide +kernel
  refine written_braces [_, _] ?_ ?_
  · simp only [Written, List.forall_mem_cons]
    exact ⟨isWritten_keyword (by decide +kernel), isWritten_wordOf h.path, List.forall_mem_nil _⟩
  · unfold printLocation
    dsimp only
    rw [List.flatMap_append, List.flatMap_append]
    refine (hroot.append hproxy).append ?_
    simp only [List.flatMap_cons, List.flatMap_nil, List.append_nil]
    refine Written.append ?_ (Written.append hmethods ?_)
    · exact written_directive (isWritten_keyword (by decide +kernel)) (isWritten_wordOf h.indexFile)
    · exact written_directive (isWritten_keyword (by decide +kernel)) (isWritten_wordOf hauto)

theorem written_printServer {codes : List Int} {config : ServerConfig} (h : WritableServer config) :
    Written (printServer codes config).render := by
  have hsettings : Written ((printSettings config).flatMap ServerItem.render) := by
    unfold printSettings
    simp only [List.flatMap_cons, List.flatMap_nil, List.append_nil, ServerItem.render,
      ServerDirective.render]
    refine Written.append ?_ (Written.append ?_ (Written.append ?_ (Written.append ?_ ?_)))
    · exact written_directive (isWritten_keyword (by decide +kernel))
        (isWritten_wordOf (isToken_hostPort h.host _))
    · exact written_directive (isWritten_keyword (by decide +kernel)) (isWritten_wordOf h.serverName)
    · exact written_directive (isWritten_keyword (by decide +kernel)) (isWritten_wordOf h.root)
    · exact written_directive (isWritten_keyword (by decide +kernel))
        (isWritten_wordOf (isToken_decimal _))
    · exact written_directive (isWritten_keyword (by decide +kernel))
        (isWritten_wordOf (isToken_intDecimal _))
  have hpages : Written ((printPages codes config.errorPages).flatMap ServerItem.render) := by
    refine Written.flatMap fun item hitem => ?_
    obtain ⟨code, -, hcode⟩ := List.mem_filterMap.mp hitem
    obtain ⟨page, hpage, rfl⟩ := Option.map_eq_some_iff.mp hcode
    simp only [Written, ServerItem.render, ServerDirective.render, List.forall_mem_cons]
    exact ⟨isWritten_keyword (by decide +kernel), isWritten_wordOf (isToken_intDecimal code),
      isWritten_wordOf (h.errorPages code page hpage).2, trivial, List.forall_mem_nil _⟩
  have hlocations : Written ((config.locations.map fun loc =>
      ServerItem.location (printLocation loc)).flatMap ServerItem.render) := by
    refine Written.flatMap fun item hitem => ?_
    obtain ⟨loc, hloc, rfl⟩ := List.mem_map.mp hitem
    exact written_printLocation (h.locations loc hloc)
  refine written_braces [_] ?_ ?_
  · exact List.forall_mem_singleton.mpr (isWritten_keyword (by decide +kernel))
  · unfold printItems
    rw [List.flatMap_append, List.flatMap_append]
    exact (hsettings.append hpages).append hlocations

theorem written_printUpstream {upstream : UpstreamConfig} (h : WritableUpstream upstream) :
    Written (printUpstream upstream).render := by
  refine written_braces [_, _] ?_ ?_
  · simp only [Written, List.forall_mem_cons]
    exact ⟨isWritten_keyword (by decide +kernel), isWritten_wordOf h.name, List.forall_mem_nil _⟩
  · rw [List.flatMap_cons]
    refine Written.append ?_ (Written.flatMap fun d hd => ?_)
    · exact written_directive (isWritten_keyword (by decide +kernel))
        (isWritten_wordOf (isToken_intDecimal _))
    · obtain ⟨server, hserver, rfl⟩ := List.mem_map.mp hd
      exact written_directive (isWritten_keyword (by decide +kernel))
        (isWritten_wordOf (isToken_hostPort (h.servers server hserver).1 _))

/-- **A printed configuration is a text that the tokenizer cuts as it was printed.** -/
theorem written_printBlocks {names : List Bytes} {codes : List Int} {parsed : Parsed}
    (h : Writable parsed) : Written (render (printBlocks names codes parsed)) := by
  refine Written.flatMap fun block hblock => ?_
  obtain hblock | hblock := List.mem_append.mp hblock
  · obtain ⟨name, -, hname⟩ := List.mem_filterMap.mp hblock
    obtain ⟨upstream, hupstream, rfl⟩ := Option.map_eq_some_iff.mp hname
    exact written_printUpstream (h.upstreams name upstream hupstream).2
  · obtain ⟨config, hconfig, rfl⟩ := List.mem_map.mp hblock
    exact written_printServer (h.configs config hconfig)

/-- **Every writable configuration is read back from its text.** -/
theorem parseString_print {names : List Bytes} {codes : List Int} {parsed : Parsed}
    (h : Writable parsed) (hlists : Lists names codes parsed) :
    parseString (print names codes parsed) = .ok parsed := by
  refine (parseConfig_iff _ _).mpr ⟨printBlocks names codes parsed, ?_, ?_, ?_⟩
  · exact tokenize_spaced (written_printBlocks h)
  · obtain ⟨config, configs, hcons⟩ := List.exists_cons_of_ne_nil h.ne_nil
    have hmem : config ∈ parsed.configs := hcons ▸ List.mem_cons_self
    exact ⟨_, List.mem_append_right _ (List.mem_map_of_mem hmem), rfl⟩
  · exact meaning_printBlocks h hlists

end ConfigPrinter

end VeloxServe
