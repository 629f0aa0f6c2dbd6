import VeloxServe.Config.ConfigParser

/-! # The Configuration Grammar

    The blocks and directives of a configuration, how they are written, and
    what they mean: each directive changes the configuration before it, in the
    order of the source, by what its words say. The parser accepts exactly the
    token lists that are written this way, with at least one server block, and
    returns what they mean.
-/

namespace VeloxServe

open StdString TokenParser ConfigParser

/-! ## Syntax and Meaning -/

namespace ConfigGrammar

/-- A keyword of the grammar. -/
def keyword (s : String) (h : IsWord (bytes s) := by decide +kernel) : Lexeme := .word ⟨bytes s, h⟩

theorem isWord_server : IsWord (bytes "server") := by decide +kernel

theorem isWord_upstream : IsWord (bytes "upstream") := by decide +kernel

theorem isWord_listen : IsWord (bytes "listen") := by decide +kernel

/-! ### Words -/

/-- The port in the value of `listen`, behind the first colon if there is one. -/
def listenPort (value : Bytes) : Bytes :=
  match find (bytes ":") value with
  | some colon => value.drop (colon + 1)
  | none => value

/-- What a suffix multiplies a size by. -/
def multiplier (suffix : UInt8) : Nat :=
  if suffix = 75 ∨ suffix = 107 then 1024
  else if suffix = 77 ∨ suffix = 109 then 1024 ^ 2
  else if suffix = 71 ∨ suffix = 103 then 1024 ^ 3
  else 1

/-- A size without its suffix, and what the suffix multiplies it by. -/
def sizeParts (str : Bytes) : Bytes × Nat :=
  match str.getLast? with
  | none => (str, 1)
  | some suffix => if multiplier suffix = 1 then (str, 1) else (str.dropLast, multiplier suffix)

/-- An upstream server: a host and a port, or a host alone. -/
def serverAddress (addr : Bytes) : Except ConversionError (Bytes × Int) :=
  match findLastOf 58 addr with
  | none => .ok (addr, 80)
  | some colon => (stoi (addr.drop (colon + 1))).map fun port => (addr.take colon, port)

theorem methods_words_append (loc : LocationConfig) (names : List Word) :
    ∀ m ∈ loc.methods ++ names.map Subtype.val, IsWord m := by
  intro m hm
  rcases List.mem_append.mp hm with hm | hm
  · exact loc.methods_words m hm
  · obtain ⟨name, -, rfl⟩ := List.mem_map.mp hm
    exact name.property

/-! ### Blocks and Directives -/

inductive LocationDirective where
  | root (path : Word)
  | index (file : Word)
  | proxyPass (url : Word)
  | methods (names : List Word)
  | autoindex (value : Word)

def LocationDirective.render : LocationDirective → List Lexeme
  | .root path => [keyword "root", .word path, .semicolon]
  | .index file => [keyword "index", .word file, .semicolon]
  | .proxyPass url => [keyword "proxy_pass", .word url, .semicolon]
  | .methods names => keyword "methods" :: (names.map Lexeme.word ++ [.semicolon])
  | .autoindex value => [keyword "autoindex", .word value, .semicolon]

def LocationDirective.apply (loc : LocationConfig) : LocationDirective → LocationConfig
  | .root path => { loc with root := path.val }
  | .index file => { loc with indexFile := file.val }
  | .proxyPass url => { loc with proxyPass := url.val }
  | .methods names =>
    { loc with
      methods := loc.methods ++ names.map Subtype.val
      methods_words := methods_words_append loc names }
  | .autoindex value =>
    { loc with autoindex := value.val ∈ [bytes "on", bytes "true", bytes "yes"] }

/-- `location PATH { ... }`. -/
structure LocationBlock where
  path : Word
  directives : List LocationDirective

def LocationBlock.render (block : LocationBlock) : List Lexeme :=
  keyword "location" :: .word block.path :: .lbrace ::
    (block.directives.flatMap LocationDirective.render ++ [.rbrace])

def LocationBlock.meaning (block : LocationBlock) : LocationConfig :=
  block.directives.foldl LocationDirective.apply
    { path := block.path.val, methods_words := List.forall_mem_nil _ }

inductive ServerDirective where
  | listen (value : Word)
  | serverName (name : Word)
  | root (path : Word)
  | errorPage (code path : Word)
  | clientMaxBodySize (size : Word)
  | rateLimit (rate : Word)

def ServerDirective.render : ServerDirective → List Lexeme
  | .listen value => [keyword "listen", .word value, .semicolon]
  | .serverName name => [keyword "server_name", .word name, .semicolon]
  | .root path => [keyword "root", .word path, .semicolon]
  | .errorPage code path => [keyword "error_page", .word code, .word path, .semicolon]
  | .clientMaxBodySize size => [keyword "client_max_body_size", .word size, .semicolon]
  | .rateLimit rate => [keyword "rate_limit", .word rate, .semicolon]

/-- The change a directive makes; numeric words must be ones the conversions accept. -/
def ServerDirective.apply (config : ServerConfig) :
    ServerDirective → Except ConversionError ServerConfig
  | .listen value => do
    let port ← stoi (listenPort value.val)
    return { config with
      host := (find (bytes ":") value.val).elim config.host value.val.take
      port := port }
  | .serverName name => .ok { config with serverName := name.val }
  | .root path => .ok { config with root := path.val }
  | .errorPage code path => do
    let code ← stoi code.val
    return { config with
      errorPages := fun c => if c = code then some path.val else config.errorPages c }
  | .clientMaxBodySize size => do
    -- `size_t` arithmetic
    let n ← stoul (sizeParts size.val).1
    return { config with clientMaxBodySize := n * (sizeParts size.val).2 % 2 ^ 64 }
  | .rateLimit rate => do
    let rate ← stoi rate.val
    return { config with rateLimit := rate }

/-- What stands in a server block. -/
inductive ServerItem where
  | location (block : LocationBlock)
  | directive (d : ServerDirective)

def ServerItem.render : ServerItem → List Lexeme
  | .location block => block.render
  | .directive d => d.render

def ServerItem.apply (config : ServerConfig) : ServerItem → Except ConversionError ServerConfig
  | .location block => .ok { config with locations := config.locations ++ [block.meaning] }
  | .directive d => d.apply config

inductive UpstreamDirective where
  | server (addr : Word)
  | healthCheckInterval (seconds : Word)

def UpstreamDirective.render : UpstreamDirective → List Lexeme
  | .server addr => [keyword "server", .word addr, .semicolon]
  | .healthCheckInterval seconds => [keyword "health_check_interval", .word seconds, .semicolon]

def UpstreamDirective.apply (upstream : UpstreamConfig) :
    UpstreamDirective → Except ConversionError UpstreamConfig
  | .server addr => do
    let server ← serverAddress addr.val
    return { upstream with servers := upstream.servers ++ [server] }
  | .healthCheckInterval seconds => do
    let seconds ← stoi seconds.val
    return { upstream with healthCheckInterval := seconds }

/-- A block of the configuration. -/
inductive Block where
  | server (items : List ServerItem)
  | upstream (name : Word) (directives : List UpstreamDirective)

def Block.render : Block → List Lexeme
  | .server items =>
    keyword "server" :: .lbrace :: (items.flatMap ServerItem.render ++ [.rbrace])
  | .upstream name directives =>
    keyword "upstream" :: .word name :: .lbrace ::
      (directives.flatMap UpstreamDirective.render ++ [.rbrace])

/-- Server blocks accumulate; of the upstream blocks of one name the last counts. -/
def Block.apply (parsed : Parsed) : Block → Except ConversionError Parsed
  | .server items => do
    let config ← items.foldlM ServerItem.apply {}
    return { parsed with configs := parsed.configs ++ [config] }
  | .upstream name directives => do
    let upstream ← directives.foldlM UpstreamDirective.apply { name := name.val }
    return { parsed with
      upstreams := fun n => if n = name.val then some upstream else parsed.upstreams n }

def Block.isServer : Block → Bool
  | .server _ => true
  | .upstream _ _ => false

/-- The token list of a configuration. -/
def render (blocks : List Block) : List Lexeme := blocks.flatMap Block.render

/-- What a configuration means: the changes of its blocks from the defaults on. -/
def meaning (blocks : List Block) : Except ConversionError Parsed := blocks.foldlM Block.apply {}

/-! ## What the Parser Makes of the Words -/

/-- A conversion whose result is used in a change. -/
theorem bind_ok_iff {α β : Type} {r : Except ConversionError α} {f : α → β} {b : β} :
    (do
      let n ← r
      return f n) = .ok b ↔ ∃ n, r = .ok n ∧ f n = b := by
  cases r with
  | ok n =>
    show Except.ok (f n) = .ok b ↔ _
    simp
  | error e =>
    show Except.error e = .ok b ↔ _
    simp

theorem bind_eq_map {α β : Type} (r : Except ConversionError α) (f : α → β) :
    (do
      let n ← r
      return f n) = r.map f := by
  cases r <;> rfl

theorem listen_eq (config : ServerConfig) (value : Bytes) :
    ConfigParser.listen config value = (stoi (listenPort value)).map fun port =>
      { config with host := (find (bytes ":") value).elim config.host value.take, port := port } := by
  unfold ConfigParser.listen listenPort
  cases find (bytes ":") value with
  | none =>
    dsimp only
    cases stoi value <;> rfl
  | some colon =>
    dsimp only
    cases stoi (value.drop (colon + 1)) <;> rfl

theorem addServer_eq (upstream : UpstreamConfig) (addr : Bytes) :
    addServer upstream addr =
      match findLastOf 58 addr with
      | none => .ok { upstream with servers := upstream.servers ++ [(addr, 80)] }
      | some colon => (stoi (addr.drop (colon + 1))).map fun port =>
        { upstream with servers := upstream.servers ++ [(addr.take colon, port)] } := by
  unfold addServer
  cases findLastOf 58 addr with
  | none => rfl
  | some colon =>
    dsimp only
    cases stoi (addr.drop (colon + 1)) <;> rfl

/-- `parse_size` multiplies after the conversion, modulo `2^64`. -/
theorem parseSize_eq {str : Bytes} (hne : str ≠ []) :
    parseSize str = (stoul (sizeParts str).1).map fun n => n * (sizeParts str).2 % 2 ^ 64 := by
  unfold parseSize sizeParts multiplier
  cases hlast : str.getLast? with
  | none => exact absurd (List.getLast?_eq_none_iff.mp hlast) hne
  | some suffix =>
    dsimp only
    split_ifs <;> first | rfl | omega

theorem ServerDirective.apply_listen (config : ServerConfig) (value : Word) :
    (ServerDirective.listen value).apply config = ConfigParser.listen config value.val := by
  rw [listen_eq]
  exact bind_eq_map _ _

theorem ServerDirective.apply_clientMaxBodySize (config : ServerConfig) (size : Word) :
    (ServerDirective.clientMaxBodySize size).apply config = do
      let n ← parseSize size.val
      return { config with clientMaxBodySize := n } := by
  rw [parseSize_eq size.property.ne_nil]
  unfold ServerDirective.apply
  dsimp only
  cases stoul (sizeParts size.val).1 <;> rfl

theorem UpstreamDirective.apply_server (upstream : UpstreamConfig) (addr : Word) :
    (UpstreamDirective.server addr).apply upstream = addServer upstream addr.val := by
  rw [addServer_eq]
  unfold UpstreamDirective.apply serverAddress
  dsimp only
  cases findLastOf 58 addr.val with
  | none => rfl
  | some colon =>
    dsimp only
    cases stoi (addr.val.drop (colon + 1)) <;> rfl

/-- The words of `methods` are put behind one another. -/
theorem LocationDirective.apply_methods (loc : LocationConfig) (names : List Word) :
    (LocationDirective.methods names).apply loc = names.foldl LocationConfig.addMethod loc := by
  induction names generalizing loc with
  | nil =>
    cases loc
    simp [LocationDirective.apply]
  | cons name names ih =>
    rw [List.foldl_cons, ← ih]
    simp [LocationDirective.apply, LocationConfig.addMethod]

/-! ## The Helpers -/

/-- A parser succeeds exactly on the texts of a language. -/
abbrev Reads {α : Type} (p : Parse α) (L : List Lexeme → α → Prop) : Prop :=
  Recognises Token.lexeme p L

theorem reads_consume (expected : TokenType) :
    Reads (consume expected) fun text l => text = [l.val] := by
  intro tokens l rest
  constructor
  · intro h
    unfold consume at h
    cases tokens with
    | nil => cases h
    | cons current tokens =>
      dsimp only at h
      split at h
      · obtain ⟨rfl, rfl⟩ := Prod.mk.inj (Except.ok.inj h)
        exact ⟨[current], rfl, rfl⟩
      · cases h
  · rintro ⟨text, rfl, htext⟩
    obtain ⟨current, text, rfl, hcurrent, hnil⟩ := List.map_eq_cons_iff.mp htext
    rw [List.map_eq_nil_iff.mp hnil]
    have htype : current.lexeme.type = expected := by rw [hcurrent, l.property]
    have hl : (⟨current.lexeme, htype⟩ : { l : Lexeme // l.type = expected }) = l :=
      Subtype.ext hcurrent
    unfold consume
    dsimp only [List.cons_append, List.nil_append]
    rw [dif_pos htype, hl]

/-- A token of another type than a word has no value of its own. -/
theorem reads_symbol (symbol : Lexeme) {expected : TokenType} (hsymbol : symbol.type = expected)
    (honly : ∀ l : Lexeme, l.type = expected → l = symbol) :
    Reads (consume expected) fun text l => text = [symbol] ∧ l = ⟨symbol, hsymbol⟩ := by
  refine (reads_consume expected).congr fun text l => ?_
  have hl : l = ⟨symbol, hsymbol⟩ := Subtype.ext (honly l.val l.property)
  rw [hl]
  simp

theorem reads_semicolon :
    Reads (consume .semicolon) fun text l => text = [.semicolon] ∧ l = ⟨.semicolon, rfl⟩ :=
  reads_symbol .semicolon rfl fun l h => by cases l <;> first | rfl | cases h

theorem reads_lbrace :
    Reads (consume .lbrace) fun text l => text = [.lbrace] ∧ l = ⟨.lbrace, rfl⟩ :=
  reads_symbol .lbrace rfl fun l h => by cases l <;> first | rfl | cases h

theorem reads_rbrace :
    Reads (consume .rbrace) fun text l => text = [.rbrace] ∧ l = ⟨.rbrace, rfl⟩ :=
  reads_symbol .rbrace rfl fun l h => by cases l <;> first | rfl | cases h

theorem reads_consumeWord : Reads consumeWord fun text w => text = [.word w] := by
  refine ((reads_consume .word).map toWord).congr fun text w => ?_
  constructor
  · rintro ⟨⟨l, hl⟩, rfl, rfl⟩
    cases l <;> first | rfl | cases hl
  · rintro rfl
    exact ⟨⟨.word w, rfl⟩, rfl, rfl⟩

theorem reads_wordAndSemicolon :
    Reads wordAndSemicolon fun text w => text = [.word w, .semicolon] := by
  refine (reads_consumeWord.bind fun w => reads_semicolon.map fun _ => w).congr fun text w => ?_
  constructor
  · rintro ⟨_, _, w, rfl, rfl, _, ⟨rfl, rfl⟩, rfl⟩
    rfl
  · rintro rfl
    exact ⟨[.word w], [.semicolon], w, rfl, rfl, _, ⟨rfl, rfl⟩, rfl⟩

theorem reads_number {α : Type} (r : Except ConversionError α) :
    Reads (number r) fun text n => text = [] ∧ r = .ok n := by
  cases r with
  | ok n =>
    refine (Recognises.pure n).congr fun text m => ?_
    constructor
    · rintro ⟨rfl, rfl⟩
      exact ⟨rfl, rfl⟩
    · rintro ⟨rfl, h⟩
      exact ⟨rfl, (Except.ok.inj h).symm⟩
  | error e =>
    refine (Recognises.throws fun tokens => ⟨ConfigException.conversion e, rfl⟩).congr fun text m => ?_
    simp

theorem reads_convertedAndSemicolon {α : Type} (convert : Bytes → Except ConversionError α) :
    Reads (convertedAndSemicolon convert) fun text n =>
      ∃ w : Word, text = [.word w, .semicolon] ∧ convert w.val = .ok n := by
  refine (reads_consumeWord.bind fun w => (reads_number (convert w.val)).bind fun n =>
    reads_semicolon.map fun _ => n).congr fun text n => ?_
  constructor
  · rintro ⟨_, _, w, rfl, rfl, _, _, n, rfl, ⟨rfl, hn⟩, _, ⟨rfl, rfl⟩, rfl⟩
    exact ⟨w, rfl, hn⟩
  · rintro ⟨w, rfl, hn⟩
    exact ⟨[.word w], [.semicolon], w, rfl, rfl, [], [.semicolon], n, rfl, ⟨rfl, hn⟩, _,
      ⟨rfl, rfl⟩, rfl⟩

theorem reads_error {α : Type} (message : Bytes) : Reads (error message : Parse α) fun _ _ => False :=
  Recognises.throws fun _ => ⟨_, rfl⟩

theorem reads_unlessAtEnd {α : Type} {message : Bytes} {p : Parse α} {L : List Lexeme → α → Prop}
    (hp : Reads p L) (hne : ∀ a, ¬ L [] a) : Reads (unlessAtEnd message p) L := by
  have hchoice : Reads (unlessAtEnd message p) fun text a =>
      ∃ k back, text = k :: back ∧ if (fun _ => false) k then False else L text a :=
    (reads_error message).choice hp (fun _ => id) hne fun _ _ => rfl
  refine hchoice.congr fun text a => ?_
  constructor
  · rintro ⟨k, back, rfl, h⟩
    exact h
  · intro h
    cases text with
    | nil => exact absurd h (hne a)
    | cons k back => exact ⟨k, back, rfl, h⟩

/-- The next token is this word. -/
def isTheWord (value : Bytes) (l : Lexeme) : Bool := l.type = .word && l.value = value

theorem isTheWord_word (value : Bytes) (w : Word) :
    isTheWord value (.word w) = true ↔ w.val = value := by
  simp only [isTheWord, Lexeme.type, Lexeme.value, decide_true, Bool.true_and]
  exact decide_eq_true_iff

theorem reads_ifWord {α : Type} {value : Bytes} {p q : Parse α} {L M : List Lexeme → α → Prop}
    (hp : Reads p L) (hq : Reads q M) (hL : ∀ a, ¬ L [] a) (hM : ∀ a, ¬ M [] a) :
    Reads (ifWord value p q) fun text a =>
      ∃ k back, text = k :: back ∧ if isTheWord value k then L text a else M text a :=
  hp.choice hq hL hM fun _ _ => rfl

/-- The texts of a language begin with a word. -/
def Begins {α : Type} (L : List Lexeme → α → Prop) : Prop :=
  ∀ text a, L text a → ∃ w back, text = .word w :: back

theorem nil_ne_of_begins {text : List Lexeme} (h : ∃ w back, text = .word w :: back) :
    [] ≠ text := by
  obtain ⟨w, back, rfl⟩ := h
  exact (List.cons_ne_nil _ _).symm

/-! ## Directives -/

theorem keyword_val {s : String} {h : IsWord (bytes s)} {w : Word} (heq : keyword s h = .word w) :
    w.val = bytes s := by
  have hw := Lexeme.word.inj heq
  exact (congrArg Subtype.val hw).symm

theorem word_eq_keyword {s : String} {h : IsWord (bytes s)} {w : Word} (heq : w.val = bytes s) :
    Lexeme.word w = keyword s h :=
  congrArg Lexeme.word (Subtype.ext heq)

/-- A directive begins with its keyword, which decides what is parsed next. -/
theorem reads_dispatch {α : Type} {q : Word → Parse α} {L : List Lexeme → α → Prop}
    (hL : Begins L) (hq : ∀ w, Reads (q w) fun back a => L (.word w :: back) a) :
    Reads (consumeWord >>= q) L := by
  refine (reads_consumeWord.bind hq).congr fun text a => ?_
  constructor
  · rintro ⟨_, back, w, rfl, rfl, hrest⟩
    exact hrest
  · intro h
    obtain ⟨w, back, rfl⟩ := hL text a h
    exact ⟨[.word w], back, w, rfl, rfl, h⟩

section

variable {ι α : Type} {render : ι → List Lexeme} {Means : ι → α → Prop} {w : Word}

/-- A directive of one word. -/
theorem reads_wordCase {f : Word → α} (mk : Word → ι)
    (hrender : ∀ v, render (mk v) = [.word w, .word v, .semicolon])
    (hmeans : ∀ v a, Means (mk v) a ↔ f v = a)
    (honly : ∀ d back, .word w :: back = render d → ∃ v, d = mk v) :
    Reads (do
        let value ← wordAndSemicolon
        return f value) fun back a => ∃ d, .word w :: back = render d ∧ Means d a := by
  refine (reads_wordAndSemicolon.map f).congr fun back a => ?_
  constructor
  · rintro ⟨v, rfl, rfl⟩
    exact ⟨mk v, (hrender v).symm, (hmeans v _).mpr rfl⟩
  · rintro ⟨d, hback, ha⟩
    obtain ⟨v, rfl⟩ := honly d back hback
    rw [hrender] at hback
    exact ⟨v, (List.cons.inj hback).2, (hmeans v a).mp ha⟩

/-- A directive of one word that is converted. -/
theorem reads_convertedCase {β : Type} {convert : Bytes → Except ConversionError β} {f : β → α}
    (mk : Word → ι) (hrender : ∀ v, render (mk v) = [.word w, .word v, .semicolon])
    (hmeans : ∀ v a, Means (mk v) a ↔ ∃ n, convert v.val = .ok n ∧ f n = a)
    (honly : ∀ d back, .word w :: back = render d → ∃ v, d = mk v) :
    Reads (do
        let n ← convertedAndSemicolon convert
        return f n) fun back a => ∃ d, .word w :: back = render d ∧ Means d a := by
  refine ((reads_convertedAndSemicolon convert).map f).congr fun back a => ?_
  constructor
  · rintro ⟨n, ⟨v, rfl, hn⟩, rfl⟩
    exact ⟨mk v, (hrender v).symm, (hmeans v _).mpr ⟨n, hn, rfl⟩⟩
  · rintro ⟨d, hback, ha⟩
    obtain ⟨v, rfl⟩ := honly d back hback
    rw [hrender] at hback
    obtain ⟨n, hn, rfl⟩ := (hmeans v a).mp ha
    exact ⟨n, ⟨v, (List.cons.inj hback).2, hn⟩, rfl⟩

end

/-- The words of `methods`, which the `;` ends. -/
theorem reads_methods (loc : LocationConfig) :
    Reads (do
        let loc ← parseMethod.loop (fun tokens => !check .word tokens) loc
        let _ ← consume .semicolon
        return loc) fun text loc' => ∃ names : List Word,
          text = names.map Lexeme.word ++ [.semicolon] ∧
            loc' = names.foldl LocationConfig.addMethod loc := by
  have hbody : ∀ loc, Reads (parseMethod.run loc) fun text loc' =>
      ∃ w : Word, text = [.word w] ∧ loc.addMethod w = loc' := by
    intro loc
    exact reads_consumeWord.map loc.addMethod
  -- the loop goes on at each word
  have hgo : ∀ (loc : LocationConfig) (text rest : List Token) (loc' : LocationConfig),
      (∃ w : Word, text.map Token.lexeme = [.word w] ∧ loc.addMethod w = loc') →
        (!check .word (text ++ rest)) = false := by
    rintro loc text rest loc' ⟨w, htext, -⟩
    obtain ⟨current, text, rfl, hcurrent, -⟩ := List.map_eq_cons_iff.mp htext
    simp [check, hcurrent, Lexeme.type]
  -- and stops at the semicolon
  have hstop : ∀ (t : Token) (rest : List Token), t.lexeme = .semicolon →
      (!check .word (t :: rest)) = true := by
    intro t rest ht
    simp [check, ht, Lexeme.type]
  have hitems : ∀ texts loc',
      Iterations (fun loc text loc' => ∃ w : Word, text = [.word w] ∧ loc.addMethod w = loc') loc
          texts loc' ↔
        ∃ names : List Word, texts = names.map Lexeme.word ∧
          names.foldl LocationConfig.addMethod loc = loc' := by
    intro texts loc'
    rw [iterations_iff_foldl fun _ _ _ => Iff.rfl]
    simp only [List.map_eq_flatMap]
  refine (Recognises.block hbody reads_semicolon hgo hstop loc).congr fun text loc' => ?_
  constructor
  · rintro ⟨texts, loc'', rfl, hiter, rfl⟩
    obtain ⟨names, rfl, hnames⟩ := (hitems _ _).mp hiter
    exact ⟨names, rfl, hnames.symm⟩
  · rintro ⟨names, rfl, rfl⟩
    exact ⟨_, _, rfl, (hitems _ _).mpr ⟨names, rfl, rfl⟩, rfl⟩

/-! ## Location Blocks -/

def LocationDirective.name : LocationDirective → Bytes
  | .root _ => bytes "root"
  | .index _ => bytes "index"
  | .proxyPass _ => bytes "proxy_pass"
  | .methods _ => bytes "methods"
  | .autoindex _ => bytes "autoindex"

namespace LocationDirective

theorem name_of_render {d : LocationDirective} {w : Word} {back : List Lexeme}
    (h : .word w :: back = d.render) : w.val = d.name := by
  cases d <;> exact keyword_val (List.cons.inj h).1.symm

theorem begins (d : LocationDirective) : ∃ w back, d.render = .word w :: back := by
  cases d <;> exact ⟨_, _, rfl⟩

/-- **The directives of a location block.** -/
theorem reads (loc : LocationConfig) :
    Reads (parseLocationDirective loc) fun text loc' =>
      ∃ d : LocationDirective, text = d.render ∧ d.apply loc = loc' := by
  refine reads_dispatch ?_ fun w => ?_
  · rintro text loc' ⟨d, rfl, -⟩
    exact d.begins
  split_ifs with hroot hindex hproxy hmethods hauto
  · refine reads_wordCase .root (fun v => by rw [word_eq_keyword hroot]; rfl) (fun _ _ => Iff.rfl)
      fun d back h => ?_
    cases d with
    | root v => exact ⟨v, rfl⟩
    | _ => exact absurd (hroot.symm.trans (name_of_render h)) (by simp only [name]; decide)
  · refine reads_wordCase .index (fun v => by rw [word_eq_keyword hindex]; rfl)
      (fun _ _ => Iff.rfl) fun d back h => ?_
    cases d with
    | index v => exact ⟨v, rfl⟩
    | _ => exact absurd (hindex.symm.trans (name_of_render h)) (by simp only [name]; decide)
  · refine reads_wordCase .proxyPass (fun v => by rw [word_eq_keyword hproxy]; rfl)
      (fun _ _ => Iff.rfl) fun d back h => ?_
    cases d with
    | proxyPass v => exact ⟨v, rfl⟩
    | _ => exact absurd (hproxy.symm.trans (name_of_render h)) (by simp only [name]; decide)
  · refine (reads_methods loc).congr fun back loc' => ?_
    constructor
    · rintro ⟨names, rfl, rfl⟩
      exact ⟨.methods names, by rw [word_eq_keyword hmethods]; rfl, apply_methods loc names⟩
    · rintro ⟨d, h, rfl⟩
      cases d with
      | methods names => exact ⟨names, (List.cons.inj h).2, apply_methods loc names⟩
      | _ => exact absurd (hmethods.symm.trans (name_of_render h)) (by simp only [name]; decide)
  · refine reads_wordCase .autoindex (fun v => by rw [word_eq_keyword hauto]; rfl) (fun v a => ?_)
      fun d back h => ?_
    · have hval : (v.val ∈ [bytes "on", bytes "true", bytes "yes"] : Bool) =
          (v.val = bytes "on" || v.val = bytes "true" || v.val = bytes "yes") := by
        simp [Bool.or_assoc]
      show ({ loc with autoindex := _ } : LocationConfig) = a ↔ _
      rw [hval]
    · cases d with
      | autoindex v => exact ⟨v, rfl⟩
      | _ => exact absurd (hauto.symm.trans (name_of_render h)) (by simp only [name]; decide)
  · refine (reads_error _).congr fun back loc' => ?_
    constructor
    · exact False.elim
    · rintro ⟨d, hrender, -⟩
      have hname := name_of_render hrender
      cases d with
      | root => exact hroot hname
      | index => exact hindex hname
      | proxyPass => exact hproxy hname
      | methods => exact hmethods hname
      | autoindex => exact hauto hname

end LocationDirective

/-- `{`, the items of a loop, and `}`. -/
theorem reads_braces {σ ι : Type} {body : Body Token ConfigException σ} {render : ι → List Lexeme}
    {apply : σ → ι → Except ConversionError σ}
    (hbody : ∀ s, Reads (body.run s) fun text s' => ∃ i, text = render i ∧ apply s i = .ok s')
    (hbegins : ∀ i, ∃ w back, render i = .word w :: back) (s : σ) :
    Reads (do
        let _ ← consume .lbrace
        let s ← body.loop (check .rbrace) s
        let _ ← consume .rbrace
        return s) fun text s' =>
      ∃ items : List ι, text = .lbrace :: (items.flatMap render ++ [.rbrace]) ∧
        items.foldlM apply s = .ok s' := by
  -- every item begins with a word, so the loop goes on
  have hgo : ∀ (s : σ) (text rest : List Token) (s' : σ),
      (∃ i, text.map Token.lexeme = render i ∧ apply s i = .ok s') →
        check .rbrace (text ++ rest) = false := by
    rintro s text rest s' ⟨i, htext, -⟩
    obtain ⟨w, back, hi⟩ := hbegins i
    obtain ⟨current, text, rfl, hcurrent, -⟩ := List.map_eq_cons_iff.mp (htext.trans hi)
    simp [check, hcurrent, Lexeme.type]
  have hstop : ∀ (t : Token) (rest : List Token), t.lexeme = .rbrace →
      check .rbrace (t :: rest) = true := by
    intro t rest ht
    simp [check, ht, Lexeme.type]
  refine (reads_lbrace.bind fun _ => Recognises.block hbody reads_rbrace hgo hstop s).congr
    fun text s' => ?_
  constructor
  · rintro ⟨_, _, _, rfl, ⟨rfl, rfl⟩, texts, s'', rfl, hiter, rfl⟩
    obtain ⟨items, rfl, hitems⟩ := (iterations_iff fun _ _ _ => Iff.rfl).mp hiter
    exact ⟨items, rfl, hitems⟩
  · rintro ⟨items, rfl, hitems⟩
    exact ⟨[.lbrace], _, _, rfl, ⟨rfl, rfl⟩, _, s', rfl,
      (iterations_iff fun _ _ _ => Iff.rfl).mpr ⟨items, rfl, hitems⟩, rfl⟩

/-! ## Location Blocks -/

/-- A location block but for its first word, which the caller has looked at. -/
def LocationBlock.body (block : LocationBlock) : List Lexeme :=
  .word block.path :: .lbrace :: (block.directives.flatMap LocationDirective.render ++ [.rbrace])

theorem reads_locationItem (loc : LocationConfig) :
    Reads (locationItem.run loc) fun text loc' =>
      ∃ d : LocationDirective, text = d.render ∧ d.apply loc = loc' := by
  refine reads_unlessAtEnd (LocationDirective.reads loc) ?_
  rintro loc' ⟨d, hnil, -⟩
  obtain ⟨w, back, hd⟩ := d.begins
  rw [hd] at hnil
  cases hnil

theorem reads_locationBlock :
    Reads parseLocationBlock fun text loc =>
      ∃ (w : Word) (block : LocationBlock), text = .word w :: block.body ∧ block.meaning = loc := by
  have hitem : ∀ loc, Reads (locationItem.run loc) fun text loc' => ∃ d : LocationDirective,
      text = d.render ∧ (.ok (d.apply loc) : Except ConversionError LocationConfig) = .ok loc' := by
    intro loc
    simpa only [Except.ok.injEq] using reads_locationItem loc
  refine (reads_consumeWord.bind fun _ => reads_consumeWord.bind fun path =>
    reads_braces hitem LocationDirective.begins _).congr fun text loc => ?_
  constructor
  · rintro ⟨_, _, w, rfl, rfl, _, _, path, rfl, rfl, directives, rfl, hfold⟩
    rw [foldlM_ok] at hfold
    exact ⟨w, ⟨path, directives⟩, rfl, Except.ok.inj hfold⟩
  · rintro ⟨w, ⟨path, directives⟩, rfl, rfl⟩
    refine ⟨[.word w], _, w, rfl, rfl, [.word path], _, path, rfl, rfl, directives, rfl, ?_⟩
    rw [foldlM_ok]
    rfl

/-! ## Server Blocks -/

namespace ServerDirective

def name : ServerDirective → Bytes
  | .listen _ => bytes "listen"
  | .serverName _ => bytes "server_name"
  | .root _ => bytes "root"
  | .errorPage _ _ => bytes "error_page"
  | .clientMaxBodySize _ => bytes "client_max_body_size"
  | .rateLimit _ => bytes "rate_limit"

theorem name_of_render {d : ServerDirective} {w : Word} {back : List Lexeme}
    (h : .word w :: back = d.render) : w.val = d.name := by
  cases d <;> exact keyword_val (List.cons.inj h).1.symm

theorem begins (d : ServerDirective) : ∃ w back, d.render = .word w :: back := by
  cases d <;> exact ⟨_, _, rfl⟩

/-- **The directives of a server block.** -/
theorem reads (config : ServerConfig) :
    Reads (parseServerDirective config) fun text config' =>
      ∃ d : ServerDirective, text = d.render ∧ d.apply config = .ok config' := by
  refine reads_dispatch ?_ fun w => ?_
  · rintro text config' ⟨d, rfl, -⟩
    exact d.begins
  split_ifs with hlisten hname hroot hpage hsize hrate
  · refine (reads_convertedAndSemicolon _).congr fun back config' => ?_
    constructor
    · rintro ⟨v, rfl, hn⟩
      exact ⟨.listen v, by rw [word_eq_keyword hlisten]; rfl, (apply_listen config v).trans hn⟩
    · rintro ⟨d, h, hd⟩
      cases d with
      | listen v => exact ⟨v, (List.cons.inj h).2, (apply_listen config v).symm.trans hd⟩
      | _ => exact absurd (hlisten.symm.trans (name_of_render h)) (by simp only [name]; decide)
  · refine reads_wordCase .serverName (fun v => by rw [word_eq_keyword hname]; rfl)
      (fun v a => iff_of_eq (Except.ok.injEq _ _)) fun d back h => ?_
    cases d with
    | serverName v => exact ⟨v, rfl⟩
    | _ => exact absurd (hname.symm.trans (name_of_render h)) (by simp only [name]; decide)
  · refine reads_wordCase .root (fun v => by rw [word_eq_keyword hroot]; rfl)
      (fun v a => iff_of_eq (Except.ok.injEq _ _)) fun d back h => ?_
    cases d with
    | root v => exact ⟨v, rfl⟩
    | _ => exact absurd (hroot.symm.trans (name_of_render h)) (by simp only [name]; decide)
  · refine (reads_consumeWord.bind fun code => (reads_number (stoi code.val)).bind fun n =>
      reads_wordAndSemicolon.map fun path => setErrorPage config n path.val).congr
        fun back config' => ?_
    constructor
    · rintro ⟨_, _, code, rfl, rfl, _, _, n, rfl, ⟨rfl, hn⟩, path, rfl, rfl⟩
      exact ⟨.errorPage code path, by rw [word_eq_keyword hpage]; rfl,
        bind_ok_iff.mpr ⟨n, hn, rfl⟩⟩
    · rintro ⟨d, h, hd⟩
      cases d with
      | errorPage code path =>
        obtain ⟨n, hn, rfl⟩ := bind_ok_iff.mp hd
        exact ⟨[.word code], _, code, (List.cons.inj h).2, rfl, [], _, n, rfl, ⟨rfl, hn⟩, path,
          rfl, rfl⟩
      | _ => exact absurd (hpage.symm.trans (name_of_render h)) (by simp only [name]; decide)
  · refine reads_convertedCase .clientMaxBodySize (fun v => by rw [word_eq_keyword hsize]; rfl)
      (fun v a => by rw [apply_clientMaxBodySize]; exact bind_ok_iff) fun d back h => ?_
    cases d with
    | clientMaxBodySize v => exact ⟨v, rfl⟩
    | _ => exact absurd (hsize.symm.trans (name_of_render h)) (by simp only [name]; decide)
  · refine reads_convertedCase .rateLimit (fun v => by rw [word_eq_keyword hrate]; rfl)
      (fun v a => bind_ok_iff) fun d back h => ?_
    cases d with
    | rateLimit v => exact ⟨v, rfl⟩
    | _ => exact absurd (hrate.symm.trans (name_of_render h)) (by simp only [name]; decide)
  · refine (reads_error _).congr fun back config' => ?_
    constructor
    · exact False.elim
    · rintro ⟨d, hrender, -⟩
      have hkey := name_of_render hrender
      cases d with
      | listen => exact hlisten hkey
      | serverName => exact hname hkey
      | root => exact hroot hkey
      | errorPage => exact hpage hkey
      | clientMaxBodySize => exact hsize hkey
      | rateLimit => exact hrate hkey

theorem name_ne_location (d : ServerDirective) : d.name ≠ bytes "location" := by
  cases d <;> simp only [name] <;> decide

end ServerDirective

theorem ServerItem.begins (item : ServerItem) : ∃ w back, item.render = .word w :: back := by
  cases item with
  | location block => exact ⟨_, _, rfl⟩
  | directive d => exact d.begins

/-- **The items of a server block.** -/
theorem reads_serverItem (config : ServerConfig) :
    Reads (serverItem.run config) fun text config' =>
      ∃ item : ServerItem, text = item.render ∧ item.apply config = .ok config' := by
  have hlocation : Reads (do
      let loc ← parseLocationBlock
      return addLocation config loc) fun text config' => ∃ (w : Word) (block : LocationBlock),
        text = .word w :: block.body ∧ addLocation config block.meaning = config' := by
    refine (reads_locationBlock.map (addLocation config)).congr fun text config' => ?_
    constructor
    · rintro ⟨_, ⟨w, block, rfl, rfl⟩, rfl⟩
      exact ⟨w, block, rfl, rfl⟩
    · rintro ⟨w, block, rfl, rfl⟩
      exact ⟨_, ⟨w, block, rfl, rfl⟩, rfl⟩
  have hdirective : ∀ config', ¬ ∃ d : ServerDirective, [] = d.render ∧
      d.apply config = .ok config' := by
    rintro config' ⟨d, hnil, -⟩
    exact nil_ne_of_begins d.begins hnil
  have hnil : ∀ config', ¬ ∃ (w : Word) (block : LocationBlock),
      [] = .word w :: block.body ∧ addLocation config block.meaning = config' := by
    rintro config' ⟨w, block, h, -⟩
    cases h
  have hchoice := @reads_ifWord _ (bytes "location") _ _ _ _ hlocation
    (ServerDirective.reads config) hnil hdirective
  refine reads_unlessAtEnd (hchoice.congr fun text config' => ?_) ?_
  · constructor
    · rintro ⟨k, back, rfl, h⟩
      split at h
      · next hk =>
        obtain ⟨w, block, hback, rfl⟩ := h
        obtain ⟨rfl, rfl⟩ := List.cons.inj hback
        rw [isTheWord_word] at hk
        exact ⟨.location block, by rw [word_eq_keyword hk]; rfl, rfl⟩
      · obtain ⟨d, hd, happly⟩ := h
        exact ⟨.directive d, hd, happly⟩
    · rintro ⟨item, rfl, happly⟩
      cases item with
      | location block =>
        have hfirst : isTheWord (bytes "location") (keyword "location") = true :=
          (isTheWord_word _ _).mpr rfl
        refine ⟨_, _, rfl, ?_⟩
        rw [if_pos hfirst]
        exact ⟨_, block, rfl, Except.ok.inj happly⟩
      | directive d =>
        obtain ⟨w, back, hd⟩ := d.begins
        refine ⟨.word w, back, hd, ?_⟩
        rw [if_neg (fun h => d.name_ne_location ?_)]
        · exact ⟨d, rfl, happly⟩
        · rw [← ServerDirective.name_of_render hd.symm]
          exact (isTheWord_word _ _).mp h
  · rintro config' ⟨item, hnil, -⟩
    exact nil_ne_of_begins item.begins hnil

theorem reads_serverBlock :
    Reads parseServerBlock fun text config => ∃ (w : Word) (items : List ServerItem),
      text = .word w :: .lbrace :: (items.flatMap ServerItem.render ++ [.rbrace]) ∧
        items.foldlM ServerItem.apply {} = .ok config := by
  refine (reads_consumeWord.bind fun _ => reads_braces reads_serverItem ServerItem.begins _).congr
    fun text config => ?_
  constructor
  · rintro ⟨_, _, w, rfl, rfl, items, rfl, hitems⟩
    exact ⟨w, items, rfl, hitems⟩
  · rintro ⟨w, items, rfl, hitems⟩
    exact ⟨[.word w], _, w, rfl, rfl, items, rfl, hitems⟩

/-! ## Upstream Blocks -/

namespace UpstreamDirective

def name : UpstreamDirective → Bytes
  | .server _ => bytes "server"
  | .healthCheckInterval _ => bytes "health_check_interval"

theorem name_of_render {d : UpstreamDirective} {w : Word} {back : List Lexeme}
    (h : .word w :: back = d.render) : w.val = d.name := by
  cases d <;> exact keyword_val (List.cons.inj h).1.symm

theorem begins (d : UpstreamDirective) : ∃ w back, d.render = .word w :: back := by
  cases d <;> exact ⟨_, _, rfl⟩

/-- **The directives of an upstream block.** -/
theorem reads (upstream : UpstreamConfig) :
    Reads (parseUpstreamDirective upstream) fun text upstream' =>
      ∃ d : UpstreamDirective, text = d.render ∧ d.apply upstream = .ok upstream' := by
  refine reads_dispatch ?_ fun w => ?_
  · rintro text upstream' ⟨d, rfl, -⟩
    exact d.begins
  split_ifs with hserver hinterval
  · refine (reads_convertedAndSemicolon _).congr fun back upstream' => ?_
    constructor
    · rintro ⟨v, rfl, hn⟩
      exact ⟨.server v, by rw [word_eq_keyword hserver]; rfl, (apply_server upstream v).trans hn⟩
    · rintro ⟨d, h, hd⟩
      cases d with
      | server v => exact ⟨v, (List.cons.inj h).2, (apply_server upstream v).symm.trans hd⟩
      | _ => exact absurd (hserver.symm.trans (name_of_render h)) (by simp only [name]; decide)
  · refine reads_convertedCase .healthCheckInterval
      (fun v => by rw [word_eq_keyword hinterval]; rfl) (fun v a => bind_ok_iff) fun d back h => ?_
    cases d with
    | healthCheckInterval v => exact ⟨v, rfl⟩
    | _ => exact absurd (hinterval.symm.trans (name_of_render h)) (by simp only [name]; decide)
  · refine (reads_error _).congr fun back upstream' => ?_
    constructor
    · exact False.elim
    · rintro ⟨d, hrender, -⟩
      have hkey := name_of_render hrender
      cases d with
      | server => exact hserver hkey
      | healthCheckInterval => exact hinterval hkey

theorem apply_name {d : UpstreamDirective} {upstream upstream' : UpstreamConfig}
    (h : d.apply upstream = .ok upstream') : upstream'.name = upstream.name := by
  cases d with
  | server addr =>
    obtain ⟨server, -, rfl⟩ := bind_ok_iff.mp h
    rfl
  | healthCheckInterval seconds =>
    obtain ⟨n, -, rfl⟩ := bind_ok_iff.mp h
    rfl

/-- The name of an upstream stands in front of its block. -/
theorem foldlM_name {directives : List UpstreamDirective} {upstream upstream' : UpstreamConfig}
    (h : directives.foldlM apply upstream = .ok upstream') : upstream'.name = upstream.name := by
  induction directives generalizing upstream with
  | nil =>
    obtain rfl := Except.ok.inj h
    rfl
  | cons d directives ih =>
    rw [List.foldlM_cons] at h
    cases hd : d.apply upstream with
    | error e =>
      rw [hd] at h
      cases h
    | ok next =>
      rw [hd] at h
      exact (ih h).trans (apply_name hd)

end UpstreamDirective

theorem reads_upstreamItem (upstream : UpstreamConfig) :
    Reads (upstreamItem.run upstream) fun text upstream' =>
      ∃ d : UpstreamDirective, text = d.render ∧ d.apply upstream = .ok upstream' := by
  refine reads_unlessAtEnd (UpstreamDirective.reads upstream) ?_
  rintro upstream' ⟨d, hnil, -⟩
  exact nil_ne_of_begins d.begins hnil

theorem reads_upstreamBlock :
    Reads parseUpstreamBlock fun text upstream =>
      ∃ (w name : Word) (directives : List UpstreamDirective),
        text = .word w :: .word name :: .lbrace ::
          (directives.flatMap UpstreamDirective.render ++ [.rbrace]) ∧
        directives.foldlM UpstreamDirective.apply { name := name.val } = .ok upstream := by
  refine (reads_consumeWord.bind fun _ => reads_consumeWord.bind fun name =>
    reads_braces reads_upstreamItem UpstreamDirective.begins _).congr fun text upstream => ?_
  constructor
  · rintro ⟨_, _, w, rfl, rfl, _, _, name, rfl, rfl, directives, rfl, hfold⟩
    exact ⟨w, name, directives, rfl, hfold⟩
  · rintro ⟨w, name, directives, rfl, hfold⟩
    exact ⟨[.word w], _, w, rfl, rfl, [.word name], _, name, rfl, rfl, directives, rfl, hfold⟩

/-! ## Configurations -/

theorem Block.begins (block : Block) : ∃ w back, block.render = .word w :: back := by
  cases block <;> exact ⟨_, _, rfl⟩

/-- **The blocks of a configuration.** -/
theorem reads_configItem (parsed : Parsed) :
    Reads (configItem.run parsed) fun text parsed' =>
      ∃ block : Block, text = block.render ∧ block.apply parsed = .ok parsed' := by
  have hserver := reads_serverBlock.map parsed.addConfig
  have hupstream := reads_upstreamBlock.map parsed.setUpstream
  have hother : Reads (fun tokens => error (bytes "Expected 'server' or 'upstream' block, got '" ++
      currentValue tokens ++ bytes "'") tokens : Parse Parsed) fun _ _ => False :=
    Recognises.throws fun _ => ⟨_, rfl⟩
  have hinner := @reads_ifWord _ (bytes "upstream") _ _ _ _ hupstream hother
    (by rintro _ ⟨_, ⟨_, _, _, h, -⟩, -⟩; cases h) fun _ => id
  have houter := @reads_ifWord _ (bytes "server") _ _ _ _ hserver hinner
    (by rintro _ ⟨_, ⟨_, _, h, -⟩, -⟩; cases h) (by rintro _ ⟨_, _, h, -⟩; cases h)
  refine houter.congr fun text parsed' => ?_
  constructor
  · rintro ⟨k, back, rfl, h⟩
    split at h
    · next hk =>
      obtain ⟨config, ⟨w, items, hback, hitems⟩, rfl⟩ := h
      obtain ⟨rfl, rfl⟩ := List.cons.inj hback
      rw [isTheWord_word] at hk
      exact ⟨.server items, by rw [word_eq_keyword hk]; rfl, bind_ok_iff.mpr ⟨config, hitems, rfl⟩⟩
    · obtain ⟨k', back', hsame, h⟩ := h
      obtain ⟨rfl, rfl⟩ := List.cons.inj hsame
      split at h
      · next hk =>
        obtain ⟨upstream, ⟨w, name, directives, hback, hdirectives⟩, rfl⟩ := h
        obtain ⟨rfl, rfl⟩ := List.cons.inj hback
        rw [isTheWord_word] at hk
        refine ⟨.upstream name directives, by rw [word_eq_keyword hk]; rfl,
          bind_ok_iff.mpr ⟨upstream, hdirectives, ?_⟩⟩
        unfold Parsed.setUpstream
        rw [UpstreamDirective.foldlM_name hdirectives]
      · exact h.elim
  · rintro ⟨block, rfl, happly⟩
    cases block with
    | server items =>
      have hfirst : isTheWord (bytes "server") (keyword "server") = true :=
        (isTheWord_word _ _).mpr rfl
      obtain ⟨config, hitems, rfl⟩ := bind_ok_iff.mp happly
      refine ⟨_, _, rfl, ?_⟩
      rw [if_pos hfirst]
      exact ⟨config, ⟨_, items, rfl, hitems⟩, rfl⟩
    | upstream name directives =>
      have hfirst : isTheWord (bytes "server") (keyword "upstream") = false := by decide +kernel
      have hfirst' : isTheWord (bytes "upstream") (keyword "upstream") = true :=
        (isTheWord_word _ _).mpr rfl
      obtain ⟨upstream, hdirectives, rfl⟩ := bind_ok_iff.mp happly
      refine ⟨_, _, rfl, ?_⟩
      rw [hfirst, if_neg Bool.false_ne_true]
      refine ⟨_, _, rfl, ?_⟩
      rw [if_pos hfirst']
      refine ⟨upstream, ⟨_, name, directives, rfl, hdirectives⟩, ?_⟩
      unfold Parsed.setUpstream
      rw [UpstreamDirective.foldlM_name hdirectives]

/-- A configuration with these tokens, a server block among its blocks. -/
def Configures (tokens : List Token) (parsed : Parsed) : Prop :=
  ∃ blocks : List Block, tokens.map Token.lexeme = render blocks ∧
    (∃ block ∈ blocks, block.isServer = true) ∧ meaning blocks = .ok parsed

/-- Each server block gives a configuration, and no other block does. -/
theorem configs_ne_nil_iff {blocks : List Block} {parsed parsed' : Parsed}
    (h : blocks.foldlM Block.apply parsed = .ok parsed') :
    parsed'.configs ≠ [] ↔ parsed.configs ≠ [] ∨ ∃ block ∈ blocks, block.isServer = true := by
  induction blocks generalizing parsed with
  | nil =>
    obtain rfl := Except.ok.inj h
    simp
  | cons block blocks ih =>
    rw [List.foldlM_cons] at h
    cases hblock : block.apply parsed with
    | error e =>
      rw [hblock] at h
      cases h
    | ok next =>
      rw [hblock] at h
      rw [ih h]
      cases block with
      | server items =>
        obtain ⟨config, -, rfl⟩ := bind_ok_iff.mp hblock
        simp [Block.isServer]
      | upstream name directives =>
        obtain ⟨upstream, -, rfl⟩ := bind_ok_iff.mp hblock
        simp [Block.isServer]

/-- The loop of `parse_config` ends with the tokens, which are those of some blocks. -/
theorem configLoop_iff {tokens rest : List Token} {parsed : Parsed} :
    configItem.loop (·.isEmpty) {} tokens = .ok (parsed, rest) ↔
      ∃ text, tokens = text ++ rest ∧ (∃ blocks : List Block,
        text.map Token.lexeme = render blocks ∧ meaning blocks = .ok parsed) ∧
          rest.isEmpty = true := by
  have hgo : ∀ (parsed : Parsed) (text rest : List Token) (parsed' : Parsed),
      (∃ block : Block, text.map Token.lexeme = block.render ∧ block.apply parsed = .ok parsed') →
        (text ++ rest).isEmpty = false := by
    rintro parsed text rest parsed' ⟨block, htext, -⟩
    obtain ⟨w, back, hblock⟩ := block.begins
    obtain ⟨current, text, rfl, -, -⟩ := List.map_eq_cons_iff.mp (htext.trans hblock)
    rfl
  rw [Body.loop_iff reads_configItem hgo]
  simp only [iterations_iff fun _ _ _ => Iff.rfl]
  rfl

/-- **The parser accepts exactly the grammar** and returns what was written. -/
theorem parseConfig_iff (tokens : List Token) (parsed : Parsed) :
    parseConfig tokens = .ok parsed ↔ Configures tokens parsed := by
  unfold parseConfig Configures
  constructor
  · intro h
    split at h
    · cases h
    · next parsed' rest hrun =>
      obtain ⟨text, rfl, ⟨blocks, htext, hmeaning⟩, hrest⟩ := configLoop_iff.mp hrun
      rw [List.isEmpty_iff.mp hrest, List.append_nil]
      split at h
      · cases h
      · next hconfigs =>
        obtain rfl := Except.ok.inj h
        refine ⟨blocks, htext, ?_, hmeaning⟩
        simpa using (configs_ne_nil_iff hmeaning).mp hconfigs
  · rintro ⟨blocks, htext, hserver, hmeaning⟩
    have hrun : configItem.loop (·.isEmpty) {} tokens = .ok (parsed, []) :=
      configLoop_iff.mpr ⟨tokens, by rw [List.append_nil], ⟨blocks, htext, hmeaning⟩, rfl⟩
    have hconfigs := (configs_ne_nil_iff hmeaning).mpr (.inr hserver)
    rw [hrun]
    dsimp only
    rw [if_neg hconfigs]

/-- **`parse_string` returns what a configuration means, and throws on anything else.** -/
theorem parseString_iff (input : Bytes) :
    (∀ parsed, parseString input = .ok parsed ↔ Configures (tokenize input) parsed) ∧
      ((∃ e, parseString input = .error e) ↔ ¬ ∃ parsed, Configures (tokenize input) parsed) := by
  have hok := parseConfig_iff (tokenize input)
  refine ⟨hok, ?_⟩
  simp only [← hok]
  unfold parseString
  cases parseConfig (tokenize input) with
  | ok parsed => simp
  | error e => simp

end ConfigGrammar

end VeloxServe
