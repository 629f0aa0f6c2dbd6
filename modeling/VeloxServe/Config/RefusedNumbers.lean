import VeloxServe.Config.ConfigNumbers
import VeloxServe.Framework.ParserErrors

/-! # Refused Numbers

    What the number conversions throw is not caught by the parser. It leaves
    `parse_config` on the inputs that are correct up to a numeric word that its
    conversion refuses, and on no others.
-/

namespace VeloxServe

open StdString TokenParser ConfigParser

namespace ConfigErrors

open ConfigGrammar ConfigNumbers

/-! ## Refused Numbers -/

/-- The beginning of a directive, up to a word that its conversion refuses. -/
def RefusedServer (text : List Lexeme) (e : ConversionError) : Prop :=
  ∃ d : ServerDirective, text = d.render.take 2 ∧ d.apply {} = .error e

def RefusedUpstream (text : List Lexeme) (e : ConversionError) : Prop :=
  ∃ d : UpstreamDirective, text = d.render.take 2 ∧ d.apply {} = .error e

/-- A block that is correct up to a refused word. -/
def RefusedBlock (text : List Lexeme) (e : ConversionError) : Prop :=
  (∃ (items : List ServerItem) (back : List Lexeme) (config : ServerConfig),
    text = keyword "server" isWord_server :: .lbrace :: (items.flatMap ServerItem.render ++ back) ∧
      items.foldlM ServerItem.apply {} = .ok config ∧ RefusedServer back e) ∨
  ∃ (name : Word) (directives : List UpstreamDirective) (back : List Lexeme)
    (upstream : UpstreamConfig),
    text = keyword "upstream" isWord_upstream :: .word name :: .lbrace ::
        (directives.flatMap UpstreamDirective.render ++ back) ∧
      directives.foldlM UpstreamDirective.apply { name := name.val } = .ok upstream ∧
      RefusedUpstream back e

/-- **An input that is correct up to a numeric word that is refused.** -/
def RefusesNumber (tokens : List Token) (e : ConversionError) : Prop :=
  ∃ (blocks : List Block) (text rest : List Lexeme) (parsed : Parsed),
    tokens.map Token.lexeme = render blocks ++ (text ++ rest) ∧ meaning blocks = .ok parsed ∧
      RefusedBlock text e

/-! ## What the Conversions Throw -/

/-- A parser throws a conversion's error exactly on the inputs that begin so. -/
abbrev Refuses {α : Type} (p : Parse α) (R : List Lexeme → ConversionError → Prop) : Prop :=
  Throws Token.lexeme ConfigException.conversion p R

/-- It throws none. -/
abbrev NoConversion {α : Type} (p : Parse α) : Prop := Quiet ConfigException.conversion p

section

variable {α β : Type}

theorem noConversion_error (message : Bytes) : NoConversion (error message : Parse α) := by
  intro tokens e h
  unfold ConfigParser.error at h
  cases h

theorem noConversion_consume (expected : TokenType) : NoConversion (consume expected) := by
  intro tokens e h
  unfold consume at h
  cases tokens with
  | nil => cases h
  | cons current rest =>
    dsimp only at h
    split at h <;> cases h

theorem noConversion_consumeWord : NoConversion consumeWord :=
  (noConversion_consume .word).bind fun _ => Quiet.pure _

theorem noConversion_wordAndSemicolon : NoConversion wordAndSemicolon :=
  noConversion_consumeWord.bind fun _ => (noConversion_consume .semicolon).bind fun _ => Quiet.pure _

theorem noConversion_unlessAtEnd {message : Bytes} {p : Parse α} (hp : NoConversion p) :
    NoConversion (unlessAtEnd message p) := by
  intro tokens e h
  unfold unlessAtEnd at h
  split at h
  · exact noConversion_error message tokens e h
  · exact hp tokens e h

theorem noConversion_parseLocationDirective (loc : LocationConfig) :
    NoConversion (parseLocationDirective loc) := by
  apply noConversion_consumeWord.bind
  intro directive
  split_ifs
  · exact noConversion_wordAndSemicolon.bind fun _ => Quiet.pure _
  · exact noConversion_wordAndSemicolon.bind fun _ => Quiet.pure _
  · exact noConversion_wordAndSemicolon.bind fun _ => Quiet.pure _
  · exact (Quiet.loop (fun _ => noConversion_consumeWord.bind fun _ => Quiet.pure _) _ loc).bind fun _ =>
      (noConversion_consume .semicolon).bind fun _ => Quiet.pure _
  · exact noConversion_wordAndSemicolon.bind fun _ => Quiet.pure _
  · exact noConversion_error _

/-- Nothing in a location block is converted. -/
theorem noConversion_parseLocationBlock : NoConversion parseLocationBlock :=
  noConversion_consumeWord.bind fun _ => noConversion_consumeWord.bind fun _ =>
    (noConversion_consume .lbrace).bind fun _ =>
      (Quiet.loop (fun loc => noConversion_unlessAtEnd (noConversion_parseLocationDirective loc)) _ _).bind
        fun _ => (noConversion_consume .rbrace).bind fun _ => Quiet.pure _

theorem refuses_number (r : Except ConversionError α) :
    Refuses (number r) fun text e => text = [] ∧ r = .error e := by
  intro tokens e
  cases r with
  | ok n =>
    constructor
    · intro h
      cases h
    · intro h
      obtain ⟨-, -, -, -, h⟩ := h
      cases h
  | error e' =>
    constructor
    · intro h
      obtain rfl := ConfigException.conversion.inj (Except.error.inj h)
      exact ⟨[], tokens, rfl, rfl, rfl⟩
    · intro h
      obtain ⟨-, -, -, -, h⟩ := h
      obtain rfl := Except.error.inj h
      rfl

/-- A word that is converted, in front of parsers that throw nothing more. -/
theorem refuses_converted {convert : Bytes → Except ConversionError α} {f : α → Parse β}
    (hf : ∀ n, NoConversion (f n)) :
    Refuses (do
        let w ← consumeWord
        let n ← number (convert w.val)
        f n) fun text e => ∃ w : Word, text = [.word w] ∧ convert w.val = .error e := by
  refine (Quiet.bind_throws reads_consumeWord noConversion_consumeWord fun w =>
    (refuses_number (convert w.val)).bind_quiet hf).congr fun text e => ?_
  constructor
  · intro h
    obtain ⟨_, _, w, rfl, rfl, rfl, he⟩ := h
    exact ⟨w, rfl, he⟩
  · intro h
    obtain ⟨w, rfl, he⟩ := h
    exact ⟨[.word w], [], w, rfl, rfl, rfl, he⟩

theorem refuses_convertedAndSemicolon (convert : Bytes → Except ConversionError α) :
    Refuses (convertedAndSemicolon convert) fun text e =>
      ∃ w : Word, text = [.word w] ∧ convert w.val = .error e :=
  refuses_converted fun _ => (noConversion_consume .semicolon).bind fun _ => Quiet.pure _

/-- Behind its keyword a directive converts the next word. -/
theorem refuses_convertedCase {ι : Type} {front : ι → List Lexeme}
    {Fails : ι → ConversionError → Prop} {w : Word} {convert : Bytes → Except ConversionError α}
    {p : Parse β}
    (hp : Refuses p fun text e => ∃ v : Word, text = [.word v] ∧ convert v.val = .error e)
    (hfails : ∀ (v : Word) e, convert v.val = .error e →
      ∃ d, [.word w, .word v] = front d ∧ Fails d e)
    (honly : ∀ d back, .word w :: back = front d →
      ∃ v : Word, back = [.word v] ∧ ∀ e, Fails d e → convert v.val = .error e) :
    Refuses p fun back e => ∃ d, .word w :: back = front d ∧ Fails d e := by
  refine hp.congr fun back e => ?_
  constructor
  · intro h
    obtain ⟨v, rfl, he⟩ := h
    exact hfails v e he
  · intro h
    obtain ⟨d, hback, he⟩ := h
    obtain ⟨v, rfl, hd⟩ := honly d back hback
    exact ⟨v, rfl, hd e he⟩

/-- Behind other keywords nothing is converted. -/
theorem refuses_quietCase {ι : Type} {front : ι → List Lexeme} {Fails : ι → ConversionError → Prop}
    {w : Word} {p : Parse β} (hp : NoConversion p)
    (hno : ∀ d back e, .word w :: back = front d → ¬ Fails d e) :
    Refuses p fun back e => ∃ d, .word w :: back = front d ∧ Fails d e := by
  refine hp.throws.congr fun back e => iff_of_false id fun h => ?_
  obtain ⟨d, hd, he⟩ := h
  exact hno d back e hd he

/-- A directive begins with its keyword, which decides what is parsed next. -/
theorem refuses_dispatch {q : Word → Parse α} {R : List Lexeme → ConversionError → Prop}
    (hR : ∀ text e, R text e → ∃ w back, text = .word w :: back)
    (hq : ∀ w, Refuses (q w) fun back e => R (.word w :: back) e) :
    Refuses (consumeWord >>= q) R := by
  refine (Quiet.bind_throws reads_consumeWord noConversion_consumeWord hq).congr fun text e => ?_
  constructor
  · intro h
    obtain ⟨_, back, w, rfl, rfl, hback⟩ := h
    exact hback
  · intro h
    obtain ⟨w, back, rfl⟩ := hR text e h
    exact ⟨[.word w], back, w, rfl, rfl, h⟩

end

/-! ## Directives -/

theorem map_error_iff {α β : Type} {r : Except ConversionError α} {f : α → β} {e : ConversionError} :
    r.map f = .error e ↔ r = .error e := by
  cases r with
  | ok n =>
    constructor
    · intro h
      cases h
    · intro h
      cases h
  | error e' =>
    show Except.error e' = .error e ↔ _
    simp

theorem bind_error_iff {α β : Type} {r : Except ConversionError α} {f : α → β} {e : ConversionError} :
    (do
      let n ← r
      return f n) = .error e ↔ r = .error e := by
  rw [bind_eq_map]
  exact map_error_iff

/-- Whether a port is refused does not depend on the configuration. -/
theorem listen_error {config config' : ServerConfig} {value : Bytes} {e : ConversionError}
    (h : ConfigParser.listen config value = .error e) :
    ConfigParser.listen config' value = .error e := by
  rw [listen_eq, map_error_iff] at h ⊢
  exact h

theorem addServer_error {upstream upstream' : UpstreamConfig} {addr : Bytes} {e : ConversionError}
    (h : addServer upstream addr = .error e) : addServer upstream' addr = .error e := by
  rw [addServer_eq] at h ⊢
  cases hcolon : findLastOf 58 addr with
  | none =>
    rw [hcolon] at h
    cases h
  | some colon =>
    rw [hcolon] at h
    dsimp only at h ⊢
    rw [map_error_iff] at h ⊢
    exact h

/-- The first word of a directive's beginning is that of the directive. -/
theorem word_of_take {text back back' : List Lexeme} {w w' : Word} (htext : text = .word w' :: back')
    (h : .word w :: back = text.take 2) : w = w' := by
  rw [htext] at h
  exact Lexeme.word.inj (List.cons.inj h).1

theorem begins_take {text : List Lexeme} (h : ∃ w back, text = .word w :: back) :
    ∃ w back, text.take 2 = .word w :: back := by
  obtain ⟨w, back, rfl⟩ := h
  exact ⟨w, back.take 1, rfl⟩

theorem ServerDirective.name_of_take {d : ServerDirective} {w : Word} {back : List Lexeme}
    (h : .word w :: back = d.render.take 2) : w.val = d.name := by
  obtain ⟨w', back', hd⟩ := d.begins
  rw [word_of_take hd h]
  exact ServerDirective.name_of_render hd.symm

theorem UpstreamDirective.name_of_take {d : UpstreamDirective} {w : Word} {back : List Lexeme}
    (h : .word w :: back = d.render.take 2) : w.val = d.name := by
  obtain ⟨w', back', hd⟩ := d.begins
  rw [word_of_take hd h]
  exact UpstreamDirective.name_of_render hd.symm

theorem RefusedServer.begins {text : List Lexeme} {e : ConversionError} (h : RefusedServer text e) :
    ∃ w back, text = .word w :: back := by
  obtain ⟨d, rfl, -⟩ := h
  exact begins_take d.begins

theorem RefusedUpstream.begins {text : List Lexeme} {e : ConversionError}
    (h : RefusedUpstream text e) : ∃ w back, text = .word w :: back := by
  obtain ⟨d, rfl, -⟩ := h
  exact begins_take d.begins

/-- **The directives of a server block.** -/
theorem refuses_parseServerDirective (config : ServerConfig) :
    Refuses (parseServerDirective config) RefusedServer := by
  refine refuses_dispatch (fun text e h => h.begins) fun w => ?_
  split_ifs with hlisten hname hroot hpage hsize hrate
  · refine refuses_convertedCase (refuses_convertedAndSemicolon (ConfigParser.listen config))
      (fun v e he => ?_) fun d back h => ?_
    · exact ⟨.listen v, by rw [word_eq_keyword hlisten]; rfl,
        (ServerDirective.apply_listen {} v).trans (listen_error he)⟩
    · cases d with
      | listen v =>
        exact ⟨v, (List.cons.inj h).2, fun e he =>
          listen_error ((ServerDirective.apply_listen {} v).symm.trans he)⟩
      | _ =>
        exact absurd (hlisten.symm.trans (ServerDirective.name_of_take h))
          (by simp only [ServerDirective.name]; decide)
  · refine refuses_quietCase (noConversion_wordAndSemicolon.bind fun _ => Quiet.pure _)
      fun d back e hd he => ?_
    cases d with
    | serverName name => cases he
    | _ =>
      exact absurd (hname.symm.trans (ServerDirective.name_of_take hd))
        (by simp only [ServerDirective.name]; decide)
  · refine refuses_quietCase (noConversion_wordAndSemicolon.bind fun _ => Quiet.pure _)
      fun d back e hd he => ?_
    cases d with
    | root path => cases he
    | _ =>
      exact absurd (hroot.symm.trans (ServerDirective.name_of_take hd))
        (by simp only [ServerDirective.name]; decide)
  · refine refuses_convertedCase (refuses_converted fun n => noConversion_wordAndSemicolon.bind
      fun path => Quiet.pure _) (fun v e he => ?_) fun d back h => ?_
    · exact ⟨.errorPage v v, by rw [word_eq_keyword hpage]; rfl, bind_error_iff.mpr he⟩
    · cases d with
      | errorPage code path =>
        exact ⟨code, (List.cons.inj h).2, fun e he => bind_error_iff.mp he⟩
      | _ =>
        exact absurd (hpage.symm.trans (ServerDirective.name_of_take h))
          (by simp only [ServerDirective.name]; decide)
  · have hconverted := (refuses_convertedAndSemicolon parseSize).bind_quiet fun size =>
      Quiet.pure { config with clientMaxBodySize := size }
    refine refuses_convertedCase hconverted (fun v e he => ?_) fun d back h => ?_
    · exact ⟨.clientMaxBodySize v, by rw [word_eq_keyword hsize]; rfl,
        (ServerDirective.apply_clientMaxBodySize {} v).trans (bind_error_iff.mpr he)⟩
    · cases d with
      | clientMaxBodySize v =>
        exact ⟨v, (List.cons.inj h).2, fun e he =>
          bind_error_iff.mp ((ServerDirective.apply_clientMaxBodySize {} v).symm.trans he)⟩
      | _ =>
        exact absurd (hsize.symm.trans (ServerDirective.name_of_take h))
          (by simp only [ServerDirective.name]; decide)
  · have hconverted := (refuses_convertedAndSemicolon stoi).bind_quiet fun rate =>
      Quiet.pure { config with rateLimit := rate }
    refine refuses_convertedCase hconverted (fun v e he => ?_) fun d back h => ?_
    · exact ⟨.rateLimit v, by rw [word_eq_keyword hrate]; rfl, bind_error_iff.mpr he⟩
    · cases d with
      | rateLimit v =>
        exact ⟨v, (List.cons.inj h).2, fun e he => bind_error_iff.mp he⟩
      | _ =>
        exact absurd (hrate.symm.trans (ServerDirective.name_of_take h))
          (by simp only [ServerDirective.name]; decide)
  · refine refuses_quietCase (noConversion_error _) fun d back e hd he => ?_
    have hkey := ServerDirective.name_of_take hd
    cases d with
    | listen => exact hlisten hkey
    | serverName => exact hname hkey
    | root => exact hroot hkey
    | errorPage => exact hpage hkey
    | clientMaxBodySize => exact hsize hkey
    | rateLimit => exact hrate hkey

/-- **The directives of an upstream block.** -/
theorem refuses_parseUpstreamDirective (upstream : UpstreamConfig) :
    Refuses (parseUpstreamDirective upstream) RefusedUpstream := by
  refine refuses_dispatch (fun text e h => h.begins) fun w => ?_
  split_ifs with hserver hinterval
  · refine refuses_convertedCase (refuses_convertedAndSemicolon (addServer upstream))
      (fun v e he => ?_) fun d back h => ?_
    · exact ⟨.server v, by rw [word_eq_keyword hserver]; rfl,
        (UpstreamDirective.apply_server {} v).trans (addServer_error he)⟩
    · cases d with
      | server v =>
        exact ⟨v, (List.cons.inj h).2, fun e he =>
          addServer_error ((UpstreamDirective.apply_server {} v).symm.trans he)⟩
      | _ =>
        exact absurd (hserver.symm.trans (UpstreamDirective.name_of_take h))
          (by simp only [UpstreamDirective.name]; decide)
  · have hconverted := (refuses_convertedAndSemicolon stoi).bind_quiet fun interval =>
      Quiet.pure { upstream with healthCheckInterval := interval }
    refine refuses_convertedCase hconverted (fun v e he => ?_) fun d back h => ?_
    · exact ⟨.healthCheckInterval v, by rw [word_eq_keyword hinterval]; rfl, bind_error_iff.mpr he⟩
    · cases d with
      | healthCheckInterval v =>
        exact ⟨v, (List.cons.inj h).2, fun e he => bind_error_iff.mp he⟩
      | _ =>
        exact absurd (hinterval.symm.trans (UpstreamDirective.name_of_take h))
          (by simp only [UpstreamDirective.name]; decide)
  · refine refuses_quietCase (noConversion_error _) fun d back e hd he => ?_
    have hkey := UpstreamDirective.name_of_take hd
    cases d with
    | server => exact hserver hkey
    | healthCheckInterval => exact hinterval hkey

/-! ## Blocks -/

section

variable {α : Type}

theorem refuses_unlessAtEnd {message : Bytes} {p : Parse α} {R : List Lexeme → ConversionError → Prop}
    (hp : Refuses p R) (hne : ∀ e, ¬ R [] e) : Refuses (unlessAtEnd message p) R := by
  have hchoice : Refuses (unlessAtEnd message p) fun text e =>
      ∃ k back, text = k :: back ∧ if (fun _ => false) k then False else R text e :=
    (noConversion_error message).throws.choice hp (fun _ => id) hne fun _ _ => rfl
  refine hchoice.congr fun text e => ?_
  constructor
  · intro h
    obtain ⟨k, back, rfl, h⟩ := h
    exact h
  · intro h
    cases text with
    | nil => exact absurd h (hne e)
    | cons k back => exact ⟨k, back, rfl, h⟩

theorem refuses_ifWord {value : Bytes} {p q : Parse α} {R S : List Lexeme → ConversionError → Prop}
    (hp : Refuses p R) (hq : Refuses q S) (hR : ∀ e, ¬ R [] e) (hS : ∀ e, ¬ S [] e) :
    Refuses (ifWord value p q) fun text e =>
      ∃ k back, text = k :: back ∧ if isTheWord value k then R text e else S text e :=
  hp.choice hq hR hS fun _ _ => rfl

/-- `{`, the items of a loop, and a refused one. -/
theorem refuses_braces {σ ι : Type} {body : Body Token ConfigException σ} {render : ι → List Lexeme}
    {apply : σ → ι → Except ConversionError σ} {R : List Lexeme → ConversionError → Prop}
    (hbody : ∀ s, Reads (body.run s) fun text s' => ∃ i, text = render i ∧ apply s i = .ok s')
    (hbegins : ∀ i, ∃ w back, render i = .word w :: back)
    (hrefuses : ∀ s, Refuses (body.run s) R)
    (hR : ∀ text e, R text e → ∃ w back, text = .word w :: back) (s : σ) :
    Refuses (do
        let _ ← consume .lbrace
        let s ← body.loop (check .rbrace) s
        let _ ← consume .rbrace
        return s) fun text e =>
      ∃ (items : List ι) (back : List Lexeme) (s' : σ),
        text = .lbrace :: (items.flatMap render ++ back) ∧ items.foldlM apply s = .ok s' ∧
          R back e := by
  -- items and refused items begin with a word, so the loop goes on
  have hword : ∀ (text rest : List Token), (∃ w back, text.map Token.lexeme = .word w :: back) →
      check .rbrace (text ++ rest) = false := by
    intro text rest h
    obtain ⟨w, back, htext⟩ := h
    obtain ⟨current, text, rfl, hcurrent, -⟩ := List.map_eq_cons_iff.mp htext
    simp [check, hcurrent, Lexeme.type]
  have hgo : ∀ (s : σ) (text rest : List Token) (s' : σ),
      (∃ i, text.map Token.lexeme = render i ∧ apply s i = .ok s') →
        check .rbrace (text ++ rest) = false := by
    intro s text rest s' h
    obtain ⟨i, htext, -⟩ := h
    exact hword text rest (by rw [htext]; exact hbegins i)
  have hloop := Throws.loop hbody hrefuses hgo (fun text rest e h => hword text rest (hR _ e h)) s
  refine (Quiet.bind_throws reads_lbrace (noConversion_consume .lbrace) fun _ =>
    hloop.bind_quiet fun _ => (noConversion_consume .rbrace).bind fun _ => Quiet.pure _).congr
      fun text e => ?_
  constructor
  · intro h
    obtain ⟨_, _, _, rfl, ⟨rfl, rfl⟩, front, back, s', rfl, hiter, he⟩ := h
    obtain ⟨items, rfl, hitems⟩ := (iterations_iff fun _ _ _ => Iff.rfl).mp hiter
    exact ⟨items, back, s', rfl, hitems, he⟩
  · intro h
    obtain ⟨items, back, s', rfl, hitems, he⟩ := h
    exact ⟨[.lbrace], _, _, rfl, ⟨rfl, rfl⟩, items.flatMap render, back, s', rfl,
      (iterations_iff fun _ _ _ => Iff.rfl).mpr ⟨items, rfl, hitems⟩, he⟩

end

theorem refuses_serverItem (config : ServerConfig) :
    Refuses (serverItem.run config) RefusedServer := by
  have hnil : ∀ e, ¬ RefusedServer [] e := fun e h => nil_ne_of_begins h.begins rfl
  have hlocation : NoConversion (do
      let loc ← parseLocationBlock
      return addLocation config loc) := noConversion_parseLocationBlock.bind fun _ => Quiet.pure _
  have hchoice := @refuses_ifWord _ (bytes "location") _ _ _ _ hlocation.throws
    (refuses_parseServerDirective config) (fun _ => id) hnil
  refine refuses_unlessAtEnd (hchoice.congr fun text e => ?_) hnil
  constructor
  · intro h
    obtain ⟨k, back, rfl, h⟩ := h
    split at h
    · exact h.elim
    · exact h
  · intro h
    obtain ⟨w, back, rfl⟩ := h.begins
    refine ⟨.word w, back, rfl, ?_⟩
    rw [if_neg fun hfirst => ?_]
    · exact h
    · -- no directive has the name of a location block
      obtain ⟨d, hd, -⟩ := h
      apply d.name_ne_location
      rw [← ServerDirective.name_of_take hd]
      exact (isTheWord_word _ _).mp hfirst

theorem refuses_parseServerBlock :
    Refuses parseServerBlock fun text e =>
      ∃ (w : Word) (items : List ServerItem) (back : List Lexeme) (config : ServerConfig),
        text = .word w :: .lbrace :: (items.flatMap ServerItem.render ++ back) ∧
          items.foldlM ServerItem.apply {} = .ok config ∧ RefusedServer back e := by
  refine (Quiet.bind_throws reads_consumeWord noConversion_consumeWord fun _ =>
    refuses_braces reads_serverItem ServerItem.begins refuses_serverItem
      (fun text e h => h.begins) _).congr fun text e => ?_
  constructor
  · intro h
    obtain ⟨_, _, w, rfl, rfl, items, back, config, rfl, hitems, he⟩ := h
    exact ⟨w, items, back, config, rfl, hitems, he⟩
  · intro h
    obtain ⟨w, items, back, config, rfl, hitems, he⟩ := h
    exact ⟨[.word w], _, w, rfl, rfl, items, back, config, rfl, hitems, he⟩

theorem refuses_upstreamItem (upstream : UpstreamConfig) :
    Refuses (upstreamItem.run upstream) RefusedUpstream :=
  refuses_unlessAtEnd (refuses_parseUpstreamDirective upstream) fun _ h =>
    nil_ne_of_begins h.begins rfl

theorem refuses_parseUpstreamBlock :
    Refuses parseUpstreamBlock fun text e =>
      ∃ (w name : Word) (directives : List UpstreamDirective) (back : List Lexeme)
        (upstream : UpstreamConfig),
        text = .word w :: .word name :: .lbrace ::
            (directives.flatMap UpstreamDirective.render ++ back) ∧
          directives.foldlM UpstreamDirective.apply { name := name.val } = .ok upstream ∧
          RefusedUpstream back e := by
  refine (Quiet.bind_throws reads_consumeWord noConversion_consumeWord fun _ =>
    Quiet.bind_throws reads_consumeWord noConversion_consumeWord fun _ =>
      refuses_braces reads_upstreamItem UpstreamDirective.begins refuses_upstreamItem
        (fun text e h => h.begins) _).congr fun text e => ?_
  constructor
  · intro h
    obtain ⟨_, _, w, rfl, rfl, _, _, name, rfl, rfl, directives, back, upstream, rfl, hfold, he⟩ := h
    exact ⟨w, name, directives, back, upstream, rfl, hfold, he⟩
  · intro h
    obtain ⟨w, name, directives, back, upstream, rfl, hfold, he⟩ := h
    exact ⟨[.word w], _, w, rfl, rfl, [.word name], _, name, rfl, rfl, directives, back, upstream,
      rfl, hfold, he⟩

theorem RefusedBlock.begins {text : List Lexeme} {e : ConversionError} (h : RefusedBlock text e) :
    ∃ w back, text = .word w :: back := by
  rcases h with ⟨_, _, _, rfl, -⟩ | ⟨_, _, _, _, rfl, -⟩
  · exact ⟨_, _, rfl⟩
  · exact ⟨_, _, rfl⟩

/-- **The blocks of a configuration.** -/
theorem refuses_configItem (parsed : Parsed) : Refuses (configItem.run parsed) RefusedBlock := by
  have hserver := refuses_parseServerBlock.bind_quiet fun config =>
    Quiet.pure (parsed.addConfig config)
  have hupstream := refuses_parseUpstreamBlock.bind_quiet fun upstream =>
    Quiet.pure (parsed.setUpstream upstream)
  have hother : NoConversion (fun tokens => error (bytes "Expected 'server' or 'upstream' block, got '" ++
      currentValue tokens ++ bytes "'") tokens : Parse Parsed) := fun tokens e h =>
    noConversion_error _ tokens e h
  have hinner := @refuses_ifWord _ (bytes "upstream") _ _ _ _ hupstream hother.throws
    (by rintro _ ⟨_, _, _, _, _, h, -⟩; cases h) fun _ => id
  have houter := @refuses_ifWord _ (bytes "server") _ _ _ _ hserver hinner
    (by rintro _ ⟨_, _, _, _, h, -⟩; cases h) (by rintro _ ⟨_, _, h, -⟩; cases h)
  refine houter.congr fun text e => ?_
  constructor
  · intro h
    obtain ⟨k, back, rfl, h⟩ := h
    split at h
    · next hk =>
      obtain ⟨w, items, back', config, hback, hitems, he⟩ := h
      obtain ⟨rfl, rfl⟩ := List.cons.inj hback
      rw [isTheWord_word] at hk
      exact .inl ⟨items, back', config, by rw [word_eq_keyword hk], hitems, he⟩
    · obtain ⟨k', back', hsame, h⟩ := h
      obtain ⟨rfl, rfl⟩ := List.cons.inj hsame
      split at h
      · next hk =>
        obtain ⟨w, name, directives, back', upstream, hback, hfold, he⟩ := h
        obtain ⟨rfl, rfl⟩ := List.cons.inj hback
        rw [isTheWord_word] at hk
        exact .inr ⟨name, directives, back', upstream, by rw [word_eq_keyword hk], hfold, he⟩
      · exact h.elim
  · intro h
    rcases h with ⟨items, back, config, rfl, hitems, he⟩ |
      ⟨name, directives, back, upstream, rfl, hfold, he⟩
    · have hfirst : isTheWord (bytes "server") (keyword "server") = true :=
        (isTheWord_word _ _).mpr rfl
      refine ⟨_, _, rfl, ?_⟩
      rw [if_pos hfirst]
      exact ⟨_, items, back, config, rfl, hitems, he⟩
    · have hfirst : isTheWord (bytes "server") (keyword "upstream") = false := by decide +kernel
      have hfirst' : isTheWord (bytes "upstream") (keyword "upstream") = true :=
        (isTheWord_word _ _).mpr rfl
      refine ⟨_, _, rfl, ?_⟩
      rw [hfirst, if_neg Bool.false_ne_true]
      refine ⟨_, _, rfl, ?_⟩
      rw [if_pos hfirst']
      exact ⟨_, name, directives, back, upstream, rfl, hfold, he⟩

/-! ## The Whole Configuration -/

/-- The errors of `parse_config` are those of its loop, but for the last one. -/
theorem parseConfig_error_iff {tokens : List Token} {e : ConfigException}
    (he : ∀ message, e ≠ .runtimeError message) :
    parseConfig tokens = .error e ↔ configItem.loop (·.isEmpty) {} tokens = .error e := by
  unfold parseConfig
  split
  · next e' hloop =>
    rw [hloop]
    simp
  · next parsed rest hloop =>
    rw [hloop]
    refine iff_of_false (fun h => ?_) (fun h => by cases h)
    split at h
    · exact he _ (Except.error.inj h).symm
    · cases h

/-- **What a conversion throws escapes exactly on the inputs with a refused number.** -/
theorem parseConfig_conversion_iff (tokens : List Token) (e : ConversionError) :
    parseConfig tokens = .error (.conversion e) ↔ RefusesNumber tokens e := by
  have hword : ∀ (text rest : List Token), (∃ w back, text.map Token.lexeme = .word w :: back) →
      (text ++ rest).isEmpty = false := by
    intro text rest h
    obtain ⟨w, back, htext⟩ := h
    obtain ⟨current, text, rfl, -, -⟩ := List.map_eq_cons_iff.mp htext
    rfl
  have hgo : ∀ (parsed : Parsed) (text rest : List Token) (parsed' : Parsed),
      (∃ block : Block, text.map Token.lexeme = block.render ∧ block.apply parsed = .ok parsed') →
        (text ++ rest).isEmpty = false := by
    intro parsed text rest parsed' h
    obtain ⟨block, htext, -⟩ := h
    exact hword text rest (by rw [htext]; exact block.begins)
  have hloop := Throws.loop reads_configItem refuses_configItem hgo
    (fun text rest e h => hword text rest h.begins) {} tokens e
  have hsame : parseConfig tokens = .error (.conversion e) ↔
      configItem.loop (·.isEmpty) {} tokens = .error (.conversion e) :=
    parseConfig_error_iff fun message h => by cases h
  rw [hsame, hloop]
  constructor
  · intro h
    obtain ⟨text, rest, rfl, front, back, parsed, htext, hiter, he⟩ := h
    obtain ⟨blocks, rfl, hblocks⟩ := (iterations_iff fun _ _ _ => Iff.rfl).mp hiter
    refine ⟨blocks, back, rest.map Token.lexeme, parsed, ?_, hblocks, he⟩
    rw [List.map_append, htext, List.append_assoc]
    rfl
  · intro h
    obtain ⟨blocks, text, rest, parsed, htokens, hmeaning, he⟩ := h
    rw [← List.append_assoc] at htokens
    obtain ⟨text', rest', rfl, htext, -⟩ := List.map_eq_append_iff.mp htokens
    exact ⟨text', rest', rfl, render blocks, text, parsed, htext,
      (iterations_iff fun _ _ _ => Iff.rfl).mpr ⟨blocks, rfl, hmeaning⟩, he⟩

end ConfigErrors

end VeloxServe
