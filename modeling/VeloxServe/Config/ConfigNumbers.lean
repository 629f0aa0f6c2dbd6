import VeloxServe.Config.ConfigGrammar
import VeloxServe.Config.ConfigLayout

/-! # The Numbers of a Configuration

    What a configuration says when its numbers are read as they are written:
    digits and nothing else, for a size one suffix at most, a port that there
    is. The conversions of the parser also take a sign, whatever stands behind
    the digits, any `int` for a port, and multiply a size modulo `2^64`. The two
    readings agree on the configurations whose numeric words need none of this.
-/

namespace VeloxServe

open StdString TokenParser ConfigParser

namespace ConfigNumbers

open ConfigGrammar

/-! ## Numbers as They Are Written -/

def IsDigits (s : Bytes) : Prop := ∀ b ∈ s, isDigit b = true

instance (s : Bytes) : Decidable (IsDigits s) := inferInstanceAs (Decidable (∀ b ∈ s, _))

/-- The number that a text writes out, all of it. -/
def numeral (s : Bytes) : Option Nat :=
  if s ≠ [] ∧ IsDigits s then some (digitsValue s) else none

def IsPort (n : Nat) : Prop := 1 ≤ n ∧ n ≤ 65535

instance (n : Nat) : Decidable (IsPort n) := inferInstanceAs (Decidable (_ ∧ _))

def portNumber (s : Bytes) : Option Nat := (numeral s).filter fun n => IsPort n

/-- The port in an upstream server's address, behind the last colon. -/
def serverPort (addr : Bytes) : Option Bytes :=
  (findLastOf 58 addr).map fun colon => addr.drop (colon + 1)

/-- A size that fits into a `size_t`. -/
def sizeNumber (str : Bytes) : Option Nat :=
  ((numeral (sizeParts str).1).map fun n => n * (sizeParts str).2).filter fun n => n < 2 ^ 64

theorem numeral_eq_some_iff {s : Bytes} {n : Nat} : numeral s = some n ↔ IsNumeral s n := by
  unfold numeral
  constructor
  · intro h
    split at h
    · next hs => exact ⟨hs.1, hs.2, Option.some.inj h⟩
    · cases h
  · intro h
    have hs : s ≠ [] ∧ IsDigits s := ⟨h.ne_nil, h.digits⟩
    rw [if_pos hs, h.value]

/-! ## What the Conversions Make of Them -/

theorem scanInteger_ne_nil {s : Bytes} {scanned : Bool × Nat} (h : scanInteger s = some scanned) :
    s ≠ [] := by
  intro hnil
  rw [hnil] at h
  cases h

/-- A number that is found is the one of the text, if there is nothing but digits. -/
theorem numeral_of_scan {s : Bytes} {negative : Bool} {n : Nat}
    (h : scanInteger s = some (negative, n)) :
    ¬ IsDigits s ∧ numeral s = none ∨ IsDigits s ∧ numeral s = some n ∧ negative = false := by
  have hne := scanInteger_ne_nil h
  unfold numeral
  by_cases hdigits : IsDigits s
  · have hnumeral : IsNumeral s (digitsValue s) := ⟨hne, hdigits, rfl⟩
    rw [hnumeral.scanInteger] at h
    obtain ⟨rfl, rfl⟩ := Prod.mk.inj (Option.some.inj h)
    exact .inr ⟨hdigits, if_pos ⟨hne, hdigits⟩, rfl⟩
  · exact .inl ⟨hdigits, if_neg fun hs => hdigits hs.2⟩

/-- A conversion that succeeds has found the number, if there was nothing but digits. -/
theorem numeral_of_stoi {s : Bytes} {v : Int} (h : stoi s = .ok v) :
    (numeral s).map Nat.cast = if IsDigits s then some v else none := by
  obtain ⟨negative, n, hscan, rfl, -⟩ := stoi_cases h
  rcases numeral_of_scan hscan with ⟨hdigits, hnone⟩ | ⟨hdigits, hsome, rfl⟩
  · rw [hnone, if_neg hdigits]
    rfl
  · rw [hsome, if_pos hdigits]
    rfl

theorem numeral_of_stoul {s : Bytes} {n : Nat} (h : stoul s = .ok n) :
    numeral s = if IsDigits s then some n else none := by
  obtain ⟨negative, m, hscan, rfl⟩ := stoul_cases h
  rcases numeral_of_scan hscan with ⟨hdigits, hnone⟩ | ⟨hdigits, hsome, rfl⟩
  · rw [hnone, if_neg hdigits]
  · rw [hsome, if_pos hdigits]
    rfl

/-- A port without sign or trailing text that is in range. -/
def IsPlainPort (s : Bytes) : Prop := IsDigits s ∧ IsPort (digitsValue s)

/-- A size without sign or trailing text that fits into a `size_t`. -/
def IsPlainSize (str : Bytes) : Prop :=
  IsDigits (sizeParts str).1 ∧ digitsValue (sizeParts str).1 * (sizeParts str).2 < 2 ^ 64

instance (s : Bytes) : Decidable (IsPlainPort s) := inferInstanceAs (Decidable (_ ∧ _))

instance (str : Bytes) : Decidable (IsPlainSize str) := inferInstanceAs (Decidable (_ ∧ _))

theorem portNumber_of_stoi {s : Bytes} {v : Int} (h : stoi s = .ok v) :
    (portNumber s).map Nat.cast = if IsPlainPort s then some v else none := by
  have hnumeral := numeral_of_stoi h
  unfold portNumber
  by_cases hdigits : IsDigits s
  · rw [if_pos hdigits] at hnumeral
    obtain ⟨n, hn, hv⟩ := Option.map_eq_some_iff.mp hnumeral
    have hvalue := (numeral_eq_some_iff.mp hn).value
    by_cases hport : IsPort n
    · have hplain : IsPlainPort s := ⟨hdigits, hvalue ▸ hport⟩
      rw [hn, Option.filter_some_pos (by simpa using hport), if_pos hplain, ← hv]
      rfl
    · have hplain : ¬ IsPlainPort s := fun hs => hport (hvalue ▸ hs.2)
      rw [hn, Option.filter_some_neg (by simpa using hport), if_neg hplain]
      rfl
  · have hplain : ¬ IsPlainPort s := fun hs => hdigits hs.1
    rw [if_neg hdigits] at hnumeral
    rw [Option.map_eq_none_iff.mp hnumeral, if_neg hplain]
    rfl

theorem sizeNumber_of_parseSize {str : Bytes} (hne : str ≠ []) {size : Nat}
    (h : parseSize str = .ok size) :
    sizeNumber str = if IsPlainSize str then some size else none := by
  rw [parseSize_eq hne] at h
  unfold sizeNumber
  cases hstoul : stoul (sizeParts str).1 with
  | error e =>
    rw [hstoul] at h
    cases h
  | ok n =>
    have hnumeral := numeral_of_stoul hstoul
    rw [hstoul] at h
    have hsize : n * (sizeParts str).2 % 2 ^ 64 = size := Except.ok.inj h
    by_cases hdigits : IsDigits (sizeParts str).1
    · rw [if_pos hdigits] at hnumeral
      have hvalue := (numeral_eq_some_iff.mp hnumeral).value
      rw [hnumeral, Option.map_some]
      by_cases hfits : n * (sizeParts str).2 < 2 ^ 64
      · have hplain : IsPlainSize str := ⟨hdigits, hvalue ▸ hfits⟩
        rw [Option.filter_some_pos (by simpa using hfits), if_pos hplain, ← hsize,
          Nat.mod_eq_of_lt hfits]
      · have hplain : ¬ IsPlainSize str := fun hs => hfits (hvalue ▸ hs.2)
        rw [Option.filter_some_neg (by simpa using hfits), if_neg hplain]
    · have hplain : ¬ IsPlainSize str := fun hs => hdigits hs.1
      rw [if_neg hdigits] at hnumeral
      rw [hnumeral, if_neg hplain]
      rfl

/-! ## What a Configuration Says -/

/-- The change a server directive makes, by the number that stands in it. -/
def writtenServer (config : ServerConfig) : ServerDirective → Option ServerConfig
  | .listen value => (portNumber (listenPort value.val)).map fun n : Nat =>
    { config with host := (find (bytes ":") value.val).elim config.host value.val.take, port := n }
  | .serverName name => some { config with serverName := name.val }
  | .root path => some { config with root := path.val }
  | .errorPage code path => (numeral code.val).map fun n : Nat => setErrorPage config n path.val
  | .clientMaxBodySize size => (sizeNumber size.val).map fun n : Nat =>
    { config with clientMaxBodySize := n }
  | .rateLimit rate => (numeral rate.val).map fun n : Nat => { config with rateLimit := n }

def writtenItem (config : ServerConfig) : ServerItem → Option ServerConfig
  | .location block => some { config with locations := config.locations ++ [block.meaning] }
  | .directive d => writtenServer config d

def writtenUpstream (upstream : UpstreamConfig) : UpstreamDirective → Option UpstreamConfig
  | .server addr =>
    match findLastOf 58 addr.val with
    | none => some { upstream with servers := upstream.servers ++ [(addr.val, 80)] }
    | some colon => (portNumber (addr.val.drop (colon + 1))).map fun n : Nat =>
      { upstream with servers := upstream.servers ++ [(addr.val.take colon, (n : Int))] }
  | .healthCheckInterval seconds => (numeral seconds.val).map fun n : Nat =>
    { upstream with healthCheckInterval := n }

def writtenBlock (parsed : Parsed) : Block → Option Parsed
  | .server items => (items.foldlM writtenItem {}).map parsed.addConfig
  | .upstream name directives =>
    (directives.foldlM writtenUpstream { name := name.val }).map parsed.setUpstream

/-- **What a configuration says**, when its numbers are read as they are written. -/
def written (blocks : List Block) : Option Parsed := blocks.foldlM writtenBlock {}

/-! ## Plain Numbers -/

/-- The numeric words of a directive need nothing but their digits. -/
def PlainServer : ServerDirective → Prop
  | .listen value => IsPlainPort (listenPort value.val)
  | .errorPage code _ => IsDigits code.val
  | .clientMaxBodySize size => IsPlainSize size.val
  | .rateLimit rate => IsDigits rate.val
  | _ => True

def PlainItem : ServerItem → Prop
  | .location _ => True
  | .directive d => PlainServer d

def PlainUpstream : UpstreamDirective → Prop
  | .server addr => ∀ port ∈ serverPort addr.val, IsPlainPort port
  | .healthCheckInterval seconds => IsDigits seconds.val

def PlainBlock : Block → Prop
  | .server items => ∀ item ∈ items, PlainItem item
  | .upstream _ directives => ∀ d ∈ directives, PlainUpstream d

/-- **Every numeric word of the configuration is plain.** -/
def PlainNumbers (blocks : List Block) : Prop := ∀ block ∈ blocks, PlainBlock block

/-! ## The Two Readings -/

section

variable {ε σ τ ι : Type}

/-- A reading that gives `s` under a condition, and nothing otherwise. -/
structure Decides (r : Option σ) (p : Prop) (s : σ) : Prop where
  pos : p → r = some s
  neg : ¬ p → r = none

theorem Decides.of_ite {r : Option σ} {p : Prop} [Decidable p] {s : σ}
    (h : r = if p then some s else none) : Decides r p s where
  pos := fun hp => by rw [h, if_pos hp]
  neg := fun hp => by rw [h, if_neg hp]

theorem Decides.map {r : Option σ} {p : Prop} {s : σ} (h : Decides r p s) (f : σ → τ) :
    Decides (r.map f) p (f s) where
  pos := fun hp => by rw [h.pos hp, Option.map_some]
  neg := fun hp => by rw [h.neg hp, Option.map_none]

theorem Decides.iff {r : Option σ} {p : Prop} {s : σ} (h : Decides r p s) : r = some s ↔ p := by
  constructor
  · intro hr
    by_contra hp
    rw [h.neg hp] at hr
    cases hr
  · exact h.pos

/-- **A list of changes is read like its changes**: the same if all of them are. -/
theorem foldlM_decides {apply : σ → ι → Except ε σ} {strict : σ → ι → Option σ} {P : ι → Prop}
    (h : ∀ s i s', apply s i = .ok s' → Decides (strict s i) (P i) s') {items : List ι} {s s' : σ}
    (hfold : items.foldlM apply s = .ok s') :
    Decides (items.foldlM strict s) (∀ i ∈ items, P i) s' := by
  induction items generalizing s with
  | nil =>
    obtain rfl := Except.ok.inj hfold
    exact ⟨fun _ => rfl, fun hno => absurd (List.forall_mem_nil _) hno⟩
  | cons i items ih =>
    rw [List.foldlM_cons] at hfold
    cases hi : apply s i with
    | error e =>
      rw [hi] at hfold
      cases hfold
    | ok next =>
      rw [hi] at hfold
      have hfirst := h s i next hi
      have hrest := ih hfold
      rw [List.foldlM_cons, List.forall_mem_cons]
      constructor
      · intro hall
        rw [hfirst.pos hall.1]
        exact hrest.pos hall.2
      · intro hsome
        by_cases hPi : P i
        · rw [hfirst.pos hPi]
          exact hrest.neg fun hall => hsome ⟨hPi, hall⟩
        · rw [hfirst.neg hPi]
          rfl

end

/-- A change by a port that `stoi` has read. -/
theorem decides_port {σ : Type} {s : Bytes} {v : Int} (h : stoi s = .ok v) (f : Int → σ) :
    Decides ((portNumber s).map fun n => f (n : Nat)) (IsPlainPort s) (f v) := by
  have hport := (Decides.of_ite (portNumber_of_stoi h)).map f
  rw [Option.map_map] at hport
  exact hport

theorem decides_numeral {σ : Type} {s : Bytes} {v : Int} (h : stoi s = .ok v) (f : Int → σ) :
    Decides ((numeral s).map fun n => f (n : Nat)) (IsDigits s) (f v) := by
  have hnumeral := (Decides.of_ite (numeral_of_stoi h)).map f
  rw [Option.map_map] at hnumeral
  exact hnumeral

theorem map_ok_iff {α β : Type} {r : Except ConversionError α} {f : α → β} {b : β} :
    r.map f = .ok b ↔ ∃ n, r = .ok n ∧ f n = b := by
  rw [← bind_eq_map]
  exact bind_ok_iff

theorem decides_server {config config' : ServerConfig} {d : ServerDirective}
    (h : d.apply config = .ok config') :
    Decides (writtenServer config d) (PlainServer d) config' := by
  cases d with
  | listen value =>
    obtain ⟨port, hport, rfl⟩ := bind_ok_iff.mp h
    exact decides_port hport fun v =>
      { config with host := (find (bytes ":") value.val).elim config.host value.val.take, port := v }
  | serverName name =>
    obtain rfl := Except.ok.inj h
    exact ⟨fun _ => rfl, fun hno => absurd trivial hno⟩
  | root path =>
    obtain rfl := Except.ok.inj h
    exact ⟨fun _ => rfl, fun hno => absurd trivial hno⟩
  | errorPage code path =>
    obtain ⟨n, hn, rfl⟩ := bind_ok_iff.mp h
    exact decides_numeral hn fun v => setErrorPage config v path.val
  | clientMaxBodySize size =>
    rw [ServerDirective.apply_clientMaxBodySize] at h
    obtain ⟨n, hn, rfl⟩ := bind_ok_iff.mp h
    exact (Decides.of_ite (sizeNumber_of_parseSize size.property.ne_nil hn)).map fun n =>
      { config with clientMaxBodySize := n }
  | rateLimit rate =>
    obtain ⟨n, hn, rfl⟩ := bind_ok_iff.mp h
    exact decides_numeral hn fun v => { config with rateLimit := v }

theorem decides_item {config config' : ServerConfig} {item : ServerItem}
    (h : item.apply config = .ok config') :
    Decides (writtenItem config item) (PlainItem item) config' := by
  cases item with
  | location block =>
    obtain rfl := Except.ok.inj h
    exact ⟨fun _ => rfl, fun hno => absurd trivial hno⟩
  | directive d => exact decides_server h

theorem decides_upstream {upstream upstream' : UpstreamConfig} {d : UpstreamDirective}
    (h : d.apply upstream = .ok upstream') :
    Decides (writtenUpstream upstream d) (PlainUpstream d) upstream' := by
  cases d with
  | server addr =>
    have hserver := (UpstreamDirective.apply_server upstream addr).symm.trans h
    rw [addServer_eq] at hserver
    unfold writtenUpstream PlainUpstream serverPort
    dsimp only
    generalize findLastOf 58 addr.val = colon at hserver ⊢
    cases colon with
    | none =>
      obtain rfl := Except.ok.inj hserver
      exact ⟨fun _ => rfl, fun hno => absurd (fun port hport => by cases hport) hno⟩
    | some colon =>
      obtain ⟨port, hport, rfl⟩ := map_ok_iff.mp hserver
      have hdecides := decides_port hport fun v =>
        { upstream with servers := upstream.servers ++ [(addr.val.take colon, v)] }
      constructor
      · intro hplain
        exact hdecides.pos (hplain _ rfl)
      · intro hno
        exact hdecides.neg fun hplain => hno fun port hport => Option.some.inj hport ▸ hplain
  | healthCheckInterval seconds =>
    obtain ⟨n, hn, rfl⟩ := bind_ok_iff.mp h
    exact decides_numeral hn fun v => { upstream with healthCheckInterval := v }

theorem decides_block {parsed parsed' : Parsed} {block : Block}
    (h : block.apply parsed = .ok parsed') :
    Decides (writtenBlock parsed block) (PlainBlock block) parsed' := by
  cases block with
  | server items =>
    obtain ⟨config, hitems, rfl⟩ := bind_ok_iff.mp h
    have hitem : ∀ config item config', ServerItem.apply config item = .ok config' →
        Decides (writtenItem config item) (PlainItem item) config' := fun _ _ _ => decides_item
    exact (foldlM_decides hitem hitems).map parsed.addConfig
  | upstream name directives =>
    obtain ⟨upstream, hdirectives, rfl⟩ := bind_ok_iff.mp h
    have hname : upstream.name = name.val := UpstreamDirective.foldlM_name hdirectives
    have hdirective : ∀ upstream d upstream', UpstreamDirective.apply upstream d = .ok upstream' →
        Decides (writtenUpstream upstream d) (PlainUpstream d) upstream' := fun _ _ _ =>
      decides_upstream
    rw [← hname]
    exact (foldlM_decides hdirective hdirectives).map parsed.setUpstream

/-- **The parser's reading is the written one exactly on plain numbers.** -/
theorem decides_written {blocks : List Block} {parsed : Parsed} (h : meaning blocks = .ok parsed) :
    Decides (written blocks) (PlainNumbers blocks) parsed := by
  have hblock : ∀ parsed block parsed', Block.apply parsed block = .ok parsed' →
      Decides (writtenBlock parsed block) (PlainBlock block) parsed' := fun _ _ _ => decides_block
  exact foldlM_decides hblock h

/-! ## Ports -/

/-- A port that the 16-bit conversion of `bind` and `connect` keeps. -/
structure PortFits (port : Int) : Prop where
  range : 1 ≤ port ∧ port ≤ 65535
  kept : port % 2 ^ 16 = port

theorem portFits_of_portNumber {s : Bytes} {n : Nat} (h : portNumber s = some n) : PortFits n := by
  have hport : IsPort n := by simpa using (Option.filter_eq_some_iff.mp h).2
  obtain ⟨hlow, hhigh⟩ := hport
  exact ⟨by omega, by omega⟩

def ServersFit (upstream : UpstreamConfig) : Prop := ∀ server ∈ upstream.servers, PortFits server.2

structure PortsFit (parsed : Parsed) : Prop where
  configs : ∀ config ∈ parsed.configs, PortFits config.port
  upstreams : ∀ name, ∀ upstream ∈ parsed.upstreams name, ServersFit upstream

/-- What each change keeps, all of them keep. -/
theorem foldlM_keeps {σ ι : Type} {strict : σ → ι → Option σ} {Q : σ → Prop}
    (h : ∀ s i s', strict s i = some s' → Q s → Q s') {items : List ι} {s s' : σ}
    (hfold : items.foldlM strict s = some s') (hs : Q s) : Q s' := by
  induction items generalizing s with
  | nil =>
    obtain rfl := Option.some.inj hfold
    exact hs
  | cons i items ih =>
    rw [List.foldlM_cons] at hfold
    obtain ⟨next, hi, hrest⟩ := Option.bind_eq_some_iff.mp hfold
    exact ih hrest (h s i next hi hs)

theorem portFits_writtenItem {config config' : ServerConfig} {item : ServerItem}
    (h : writtenItem config item = some config') (hconfig : PortFits config.port) :
    PortFits config'.port := by
  cases item with
  | location block =>
    obtain rfl := Option.some.inj h
    exact hconfig
  | directive d =>
    cases d with
    | listen value =>
      obtain ⟨n, hn, rfl⟩ := Option.map_eq_some_iff.mp h
      exact portFits_of_portNumber hn
    | serverName name =>
      obtain rfl := Option.some.inj h
      exact hconfig
    | root path =>
      obtain rfl := Option.some.inj h
      exact hconfig
    | errorPage code path =>
      obtain ⟨n, -, rfl⟩ := Option.map_eq_some_iff.mp h
      exact hconfig
    | clientMaxBodySize size =>
      obtain ⟨n, -, rfl⟩ := Option.map_eq_some_iff.mp h
      exact hconfig
    | rateLimit rate =>
      obtain ⟨n, -, rfl⟩ := Option.map_eq_some_iff.mp h
      exact hconfig

theorem serversFit_append {upstream : UpstreamConfig} (h : ServersFit upstream) (host : Bytes)
    {port : Int} (hport : PortFits port) :
    ServersFit { upstream with servers := upstream.servers ++ [(host, port)] } := by
  intro server hserver
  rcases List.mem_append.mp hserver with hserver | hserver
  · exact h server hserver
  · rw [List.mem_singleton.mp hserver]
    exact hport

theorem serversFit_writtenUpstream {upstream upstream' : UpstreamConfig} {d : UpstreamDirective}
    (h : writtenUpstream upstream d = some upstream') (hupstream : ServersFit upstream) :
    ServersFit upstream' := by
  cases d with
  | server addr =>
    unfold writtenUpstream at h
    dsimp only at h
    split at h
    · obtain rfl := Option.some.inj h
      exact serversFit_append hupstream addr.val ⟨by decide, by decide⟩
    · obtain ⟨n, hn, rfl⟩ := Option.map_eq_some_iff.mp h
      exact serversFit_append hupstream _ (portFits_of_portNumber hn)
  | healthCheckInterval seconds =>
    obtain ⟨n, -, rfl⟩ := Option.map_eq_some_iff.mp h
    exact hupstream

theorem portsFit_writtenBlock {parsed parsed' : Parsed} {block : Block}
    (h : writtenBlock parsed block = some parsed') (hparsed : PortsFit parsed) :
    PortsFit parsed' := by
  cases block with
  | server items =>
    obtain ⟨config, hitems, rfl⟩ := Option.map_eq_some_iff.mp h
    have hport : PortFits config.port :=
      foldlM_keeps (fun _ _ _ hitem => portFits_writtenItem hitem) hitems ⟨by decide, by decide⟩
    refine ⟨fun config' hconfig' => ?_, hparsed.upstreams⟩
    rcases List.mem_append.mp hconfig' with hconfig' | hconfig'
    · exact hparsed.configs config' hconfig'
    · rw [List.mem_singleton.mp hconfig']
      exact hport
  | upstream name directives =>
    obtain ⟨upstream, hdirectives, rfl⟩ := Option.map_eq_some_iff.mp h
    have hservers : ServersFit upstream :=
      foldlM_keeps (fun _ _ _ hd => serversFit_writtenUpstream hd) hdirectives
        (List.forall_mem_nil _)
    refine ⟨hparsed.configs, fun name' upstream' hupstream' => ?_⟩
    unfold Parsed.setUpstream at hupstream'
    dsimp only at hupstream'
    split at hupstream'
    · obtain rfl := Option.some.inj hupstream'
      exact hservers
    · exact hparsed.upstreams name' upstream' hupstream'

/-- The ports of a configuration whose numbers are read as they are written. -/
theorem portsFit_written {blocks : List Block} {parsed : Parsed} (h : written blocks = some parsed) :
    PortsFit parsed :=
  foldlM_keeps (fun _ _ _ hblock => portsFit_writtenBlock hblock) h
    ⟨List.forall_mem_nil _, fun name upstream hupstream => by cases hupstream⟩

/-! ## Accepted Configurations -/

/-- The blocks that stand in a text, and the configuration they mean to the parser. -/
def Writes (input : Bytes) (blocks : List Block) (parsed : Parsed) : Prop :=
  (tokenize input).map Token.lexeme = render blocks ∧ meaning blocks = .ok parsed

/-- **What is stored is what was written**, and the ports are ports. -/
structure StoredExactly (blocks : List Block) (parsed : Parsed) : Prop where
  reading : written blocks = some parsed
  ports : PortsFit parsed

/-- **An accepted configuration is stored exactly when its numeric words are plain.** -/
theorem storedExactly_iff {input : Bytes} {parsed : Parsed} (h : parseString input = .ok parsed) :
    (∃ blocks, Writes input blocks parsed) ∧
      ∀ blocks, Writes input blocks parsed → (StoredExactly blocks parsed ↔ PlainNumbers blocks) := by
  constructor
  · obtain ⟨blocks, htokens, -, hmeaning⟩ := (parseConfig_iff _ _).mp h
    exact ⟨blocks, htokens, hmeaning⟩
  · intro blocks hwrites
    have hdecides := (decides_written hwrites.2).iff
    constructor
    · intro hstored
      exact hdecides.mp hstored.reading
    · intro hplain
      have hwritten := hdecides.mpr hplain
      exact ⟨hwritten, portsFit_written hwritten⟩

/-! ## One Port -/

open ConfigLayout

theorem isSpace_blank : isSpace 32 = true := rfl

theorem isWritten_server : IsWritten (keyword "server" isWord_server) := by
  unfold keyword IsWritten
  decide +kernel

theorem isWritten_listen : IsWritten (keyword "listen" isWord_listen) := by
  unfold keyword IsWritten
  decide +kernel

/-- `server { listen ...; }`. -/
def listenLayout (value : Word) (h : ∀ b ∈ value.val, isWordByte b = true) : Layout where
  items := [([], keyword "server" isWord_server), ([.space 32 isSpace_blank], .lbrace),
    ([.space 32 isSpace_blank], keyword "listen" isWord_listen), ([.space 32 isSpace_blank], .word value),
    ([], .semicolon), ([.space 32 isSpace_blank], .rbrace)]
  written := by
    intro item hitem
    simp only [List.mem_cons, List.not_mem_nil, or_false] at hitem
    rcases hitem with rfl | rfl | rfl | rfl | rfl | rfl
    · exact isWritten_server
    · trivial
    · exact isWritten_listen
    · exact h
    · trivial
    · trivial
  apart := by simp [Apart, keyword, Lexeme.type]
  trailing := []
  unfinished := none

/-- The configuration of `listen` alone. -/
def listening (value : Word) : List Block := [.server [.directive (.listen value)]]

theorem parseString_listen (value : Word) (h : ∀ b ∈ value.val, isWordByte b = true)
    {config : ServerConfig} (hlisten : ConfigParser.listen {} value.val = .ok config) :
    parseString (listenLayout value h).text = .ok { configs := [config] } ∧
      Writes (listenLayout value h).text (listening value) { configs := [config] } := by
  have htokens : (tokenize (listenLayout value h).text).map Token.lexeme = render (listening value) :=
    (listenLayout value h).tokenize_lexemes
  have hmeaning : meaning (listening value) = .ok { configs := [config] } := by
    have hitem : ServerItem.apply {} (.directive (.listen value)) = .ok config :=
      (ServerDirective.apply_listen {} value).trans hlisten
    unfold meaning listening
    rw [List.foldlM_cons]
    unfold Block.apply
    dsimp only
    rw [List.foldlM_cons, hitem]
    rfl
  have hserver : ∃ block ∈ listening value, block.isServer = true :=
    ⟨_, List.mem_cons_self, rfl⟩
  exact ⟨(parseConfig_iff _ _).mpr ⟨_, htokens, hserver, hmeaning⟩, htokens, hmeaning⟩

theorem storedExactly_8080 :
    (∃ blocks, Writes (bytes "server \x7b listen 8080; \x7d") blocks { configs := [{ port := 8080 }] }) ∧
      ∀ blocks, Writes (bytes "server \x7b listen 8080; \x7d") blocks
        { configs := [{ port := 8080 }] } →
        (StoredExactly blocks { configs := [{ port := 8080 }] } ↔ PlainNumbers blocks) := by
  have hstoi : stoi (listenPort (bytes "8080")) = .ok 8080 := by decide +kernel
  have hhost : find (bytes ":") (bytes "8080") = none := by decide +kernel
  have hlisten : ConfigParser.listen {} (bytes "8080") = .ok { port := 8080 } := by
    rw [listen_eq, hstoi, hhost]
    rfl
  have htext : (listenLayout ⟨bytes "8080", by decide +kernel⟩ (by decide +kernel)).text =
      bytes "server \x7b listen 8080; \x7d" := by decide +kernel
  have hparse := (parseString_listen ⟨bytes "8080", by decide +kernel⟩ (by decide +kernel) hlisten).1
  rw [htext] at hparse
  exact storedExactly_iff hparse

/-- The parser takes `80abc` for the port 80. -/
theorem not_storedExactly_trailing :
    ¬ ∀ (input : Bytes) (parsed : Parsed), parseString input = .ok parsed →
      ∀ blocks, Writes input blocks parsed → StoredExactly blocks parsed := by
  intro h
  have hstoi : stoi (listenPort (bytes "80abc")) = .ok 80 := by decide +kernel
  have hhost : find (bytes ":") (bytes "80abc") = none := by decide +kernel
  have hlisten : ConfigParser.listen {} (bytes "80abc") = .ok { port := 80 } := by
    rw [listen_eq, hstoi, hhost]
    rfl
  obtain ⟨hparse, hwrites⟩ := parseString_listen ⟨bytes "80abc", by decide +kernel⟩
    (by decide +kernel) hlisten
  have hreading := (h _ _ hparse _ hwrites).reading
  -- the word is not read as a numeral
  have hnone : portNumber (listenPort (bytes "80abc")) = none := by decide +kernel
  have hwritten : written (listening ⟨bytes "80abc", by decide +kernel⟩) = none := by
    unfold written listening
    rw [List.foldlM_cons]
    unfold writtenBlock
    dsimp only
    rw [List.foldlM_cons]
    unfold writtenItem writtenServer
    dsimp only
    rw [hnone]
    rfl
  rw [hwritten] at hreading
  cases hreading

end ConfigNumbers

end VeloxServe
