import VeloxServe.Config.RefusedNumbers

/-! # Configuration Errors

    An error of the parser carries the line of the token at which parsing stops:
    the first one that the grammar does not allow behind the tokens before it, or
    -1 when there are no more. Only what a number conversion throws leaves
    `parse_string` without a line.
-/

namespace VeloxServe

open StdString TokenParser ConfigParser

namespace ConfigErrors

open ConfigGrammar ConfigNumbers ErrorRules

/-! ## Where Errors Are Thrown -/

/-- The line an error carries with these tokens left. -/
def lineAt : List Token → Int
  | [] => -1
  | current :: _ => current.line

/-- The errors of the parser, and the tokens that matter to where it stops: where `}` may
    stand, any word is taken for the name of a directive. -/
def rules : ErrorRules Token ConfigException where
  thrown rest e := ∃ message, e = .configError (lineAt rest) message
  other e := ∃ c, e = .conversion c
  word t := t.lexeme.type = .word
  closes t := t.lexeme = .rbrace

section

variable {α β : Type}

theorem error_eq (message : Bytes) (tokens : List Token) :
    (error message : Parse α) tokens = .error (.configError (lineAt tokens) message) := by
  cases tokens <;> rfl

/-! The conditions of the parser look at the next token. -/

theorem check_congr (type : TokenType) (ts ts' : List Token) (h : ts'.head? = ts.head?) :
    check type ts' = check type ts := by
  cases ts <;> cases ts' <;> simp_all [check]

theorem checkWord_congr (value : Bytes) (ts ts' : List Token) (h : ts'.head? = ts.head?) :
    checkWord value ts' = checkWord value ts := by
  cases ts <;> cases ts' <;> simp_all [checkWord]

theorem isEmpty_congr (ts ts' : List Token) (h : ts'.head? = ts.head?) :
    ts'.isEmpty = ts.isEmpty := by
  cases ts <;> cases ts' <;> simp_all

/-! ## Tokens -/

theorem consume_bad {expected : TokenType} {ts : List Token}
    (h : ∀ t ∈ ts.head?, ¬ t.lexeme.type = expected) :
    ∃ e, consume expected ts = .error e ∧ rules.thrown ts e := by
  cases ts with
  | nil => exact ⟨_, rfl, _, rfl⟩
  | cons current rest => exact ⟨_, dif_neg (h current rfl), _, rfl⟩

theorem consume_good {expected : TokenType} {t : Token} (h : t.lexeme.type = expected)
    (rest : List Token) : consume expected (t :: rest) = .ok (⟨t.lexeme, h⟩, rest) := dif_pos h

theorem closes_ne {expected : TokenType} (hne : expected ≠ .rbrace) {c : Token}
    (h : rules.closes c) : ¬ c.lexeme.type = expected := by
  have hbrace : c.lexeme = .rbrace := h
  rw [hbrace]
  exact hne.symm

/-- Where a closing brace is not expected, it is an error. -/
theorem consume_closes {expected : TokenType} (hne : expected ≠ .rbrace) {c : Token}
    (h : rules.closes c) (more : List Token) : ∃ e, consume expected (c :: more) = .error e :=
  ⟨_, dif_neg (closes_ne hne h)⟩

theorem sticks_consume {expected : TokenType} (hne : expected ≠ .rbrace) :
    rules.Sticks False (consume expected) := by
  refine Sticks.token (fun ts => consume_bad) (fun t rest e ht he => ?_) fun c => closes_ne hne
  rw [consume_good ht] at he
  cases he

theorem reports_semicolon : rules.Reports (consume .semicolon) :=
  ⟨(reads_consume _).commits, sticks_consume (by decide), [⟨.semicolon, 0⟩], _, rfl⟩

theorem reports_lbrace : rules.Reports (consume .lbrace) :=
  ⟨(reads_consume _).commits, sticks_consume (by decide), [⟨.lbrace, 0⟩], _, rfl⟩

theorem reports_word : rules.Reports (consume .word) :=
  ⟨(reads_consume _).commits, sticks_consume (by decide),
    [⟨keyword "server" isWord_server, 0⟩], _, rfl⟩

theorem reports_consumeWord : rules.Reports consumeWord :=
  reports_word.bind (consume_shrinks .word) fun _ => Reports.pure _

theorem reports_wordAndSemicolon : rules.Reports wordAndSemicolon :=
  reports_consumeWord.bind consumeWord_shrinks fun _ =>
    reports_semicolon.bind (consume_shrinks .semicolon) fun _ => Reports.pure _

theorem consumeWord_bad {ts : List Token} (h : ∀ t ∈ ts.head?, ¬ rules.word t) :
    ∃ e, consumeWord ts = .error e ∧ rules.thrown ts e := by
  obtain ⟨e, he, hthrown⟩ := consume_bad h
  exact ⟨e, bind_of_error he, hthrown⟩

theorem consumeWord_good {t : Token} (h : rules.word t) (rest : List Token) :
    ∃ w, consumeWord (t :: rest) = .ok (w, rest) := by
  refine ⟨toWord ⟨t.lexeme, h⟩, ?_⟩
  unfold consumeWord
  rw [bind_of_ok (consume_good h rest)]
  rfl

theorem consumeWord_closes {c : Token} (h : rules.closes c) (more : List Token) :
    ∃ e, consumeWord (c :: more) = .error e := by
  obtain ⟨e, he⟩ := consume_closes (by decide : TokenType.word ≠ .rbrace) h more
  exact ⟨e, bind_of_error he⟩

/-- A word that is converted, for which there is one that can be. -/
theorem reports_converted {convert : Bytes → Except ConversionError α}
    (hsome : ∃ (w : Word) (n : α), convert w.val = .ok n) :
    rules.Reports (do
      let w ← consumeWord
      number (convert w.val)) := by
  have hreads := reads_consumeWord.bind fun w => reads_number (convert w.val)
  refine ⟨hreads.commits, ?_, ?_⟩
  · have hbad : ∀ ts : List Token, (∀ t ∈ ts.head?, ¬ rules.word t) → ∃ e, (do
        let w ← consumeWord
        number (convert w.val)) ts = .error e ∧ rules.thrown ts e := by
      intro ts h
      obtain ⟨e, he, hthrown⟩ := consumeWord_bad h
      exact ⟨e, bind_of_error he, hthrown⟩
    refine Sticks.token hbad (fun t rest e ht he => ?_) fun c => closes_ne (by decide)
    -- the word is there, and its conversion throws
    obtain ⟨w, hw⟩ := consumeWord_good ht rest
    rw [bind_of_ok hw] at he
    cases hn : convert w.val with
    | ok n =>
      rw [hn] at he
      cases he
    | error c =>
      rw [hn] at he
      exact ⟨c, (Except.error.inj he).symm⟩
  · obtain ⟨w, n, hn⟩ := hsome
    refine ⟨[⟨.word w, 0⟩], n, ?_⟩
    show (consumeWord >>= fun w => number (convert w.val)) [⟨.word w, 0⟩] = _
    have hw : consumeWord [⟨.word w, 0⟩] = .ok (w, []) := rfl
    rw [bind_of_ok hw, hn]
    rfl

theorem reports_convertedAndSemicolon {convert : Bytes → Except ConversionError α}
    (hsome : ∃ (w : Word) (n : α), convert w.val = .ok n) :
    rules.Reports (convertedAndSemicolon convert) := by
  have hassoc : convertedAndSemicolon convert = (do
      let n ← (do
        let w ← consumeWord
        number (convert w.val))
      let _ ← consume .semicolon
      return n) := by
    unfold convertedAndSemicolon
    rw [bind_assoc]
  rw [hassoc]
  exact (reports_converted hsome).bind (consumeWord_shrinks.bind fun _ => number_keeps _) fun _ =>
    reports_semicolon.bind (consume_shrinks .semicolon) fun _ => Reports.pure _

/-- A directive whose value is kept as it is. -/
theorem sticks_value (f : Word → α) : rules.Sticks False (do
    let value ← wordAndSemicolon
    return f value) :=
  (reports_wordAndSemicolon.bind wordAndSemicolon_shrinks fun _ => Reports.pure _).sticks

/-- A directive whose value is converted. -/
theorem sticks_number {convert : Bytes → Except ConversionError α}
    (hsome : ∃ (w : Word) (n : α), convert w.val = .ok n) (f : α → β) :
    rules.Sticks False (do
      let n ← convertedAndSemicolon convert
      return f n) :=
  ((reports_convertedAndSemicolon hsome).bind (convertedAndSemicolon_shrinks _) fun _ =>
    Reports.pure _).sticks

theorem sticks_error (message : Bytes) : rules.Sticks False (error message : Parse α) :=
  Sticks.throws fun ts => ⟨_, error_eq message ts, message, rfl⟩

/-- A directive begins with its name. -/
theorem sticks_dispatch {q : Word → Parse α} (hq : ∀ w, rules.Sticks False (q w)) :
    rules.Sticks True (consumeWord >>= q) :=
  Sticks.names reports_consumeWord.commits consumeWord_shrinks (fun _ => consumeWord_bad)
    (fun _ rest h => consumeWord_good h rest) hq

theorem dispatch_closes {q : Word → Parse α} {c : Token} (h : rules.closes c)
    (more : List Token) : ∃ e, (consumeWord >>= q) (c :: more) = .error e := by
  obtain ⟨e, he⟩ := consumeWord_closes h more
  exact ⟨e, bind_of_error he⟩

/-- In front of a directive, the end of the input is an error. -/
theorem sticks_unlessAtEnd {message : Bytes} {p : Parse α} (hp : rules.Sticks True p)
    (hcloses : ∀ c more, rules.closes c → ∃ e, p (c :: more) = .error e) :
    rules.Sticks True (unlessAtEnd message p) := by
  refine (sticks_error message).choice hp isEmpty_congr (fun c more hc => ⟨⟨_, rfl⟩, hcloses c more hc⟩)
    False.elim id (fun _ t more _ hempty => by cases hempty) fun _ t more hword _ => ?_
  exact .first hword (.inl trivial)

theorem ifWord_error {value : Bytes} {p q : Parse α} {ts : List Token}
    (hp : ∃ e, p ts = .error e) (hq : ∃ e, q ts = .error e) :
    ∃ e, ifWord value p q ts = .error e := by
  unfold ifWord
  split
  · exact hp
  · exact hq

/-- A choice by a word, in front of which the rest of a block item stands. -/
theorem sticks_ifWord {value : Bytes} {p q : Parse α} (hp : rules.Sticks False p)
    (hq : rules.Sticks True q)
    (hcloses : ∀ c more, rules.closes c →
      (∃ e, p (c :: more) = .error e) ∧ ∃ e, q (c :: more) = .error e)
    (hgo : ∀ t : Token, rules.word t → t.lexeme.value = value → GoesOn p [t]) :
    rules.Sticks True (ifWord value p q) := by
  refine hp.choice hq (checkWord_congr value) hcloses False.elim id (fun _ t more hword hvalue => ?_)
    fun _ t more hword _ => .first hword (.inl trivial)
  simp only [checkWord, Bool.and_eq_true, decide_eq_true_eq] at hvalue
  exact .goesOn (hgo t hword hvalue.2)

end

/-! ## Blocks -/

/-- The words of `methods`. -/
theorem reports_methods (loc : LocationConfig) :
    rules.Reports (do
      let loc ← parseMethod.loop (fun tokens => !check .word tokens) loc
      let _ ← consume .semicolon
      return loc) := by
  have hend : ∀ loc : LocationConfig, rules.Reports (do
      let _ ← consume .semicolon
      return loc) := fun loc =>
    reports_semicolon.bind (consume_shrinks .semicolon) fun _ => Reports.pure loc
  have hword : ∀ loc : LocationConfig, rules.Reports (parseMethod.run loc) := fun loc =>
    reports_consumeWord.bind consumeWord_shrinks fun method => Reports.pure (loc.addMethod method)
  refine Reports.loop (fun loc => (hword loc).commits) (fun loc => (hword loc).sticks)
    (fun loc => (hend loc).commits) (fun loc => (consume_shrinks .semicolon).bind fun _ => Keeps.pure loc)
    (fun loc ts _ => (hend loc).sticks ts) (fun ts ts' h => by rw [check_congr .word ts ts' h])
    (fun c more hc => ?_) (fun loc c more hc => dispatch_closes hc more)
    (fun loc => ⟨[⟨.semicolon, 0⟩], loc, rfl, rfl⟩) (fun loc => iff_of_false ?_ id) loc
  · have hbrace : c.lexeme = .rbrace := hc
    simp [check, hbrace, Lexeme.type]
  · intro hopen
    obtain ⟨c, hc, hgo⟩ := hopen.resolve_left id
    refine not_goesOn_of_error (fun more => ?_) hgo
    obtain ⟨e, he⟩ := consume_closes (by decide : TokenType.semicolon ≠ .rbrace) hc more
    exact ⟨e, bind_of_error he⟩

theorem sticks_parseLocationDirective (loc : LocationConfig) :
    rules.Sticks True (parseLocationDirective loc) := by
  refine sticks_dispatch fun directive => ?_
  split_ifs
  · exact sticks_value _
  · exact sticks_value _
  · exact sticks_value _
  · exact (reports_methods loc).sticks
  · exact sticks_value _
  · exact sticks_error _

/-- `{`, items that begin with names, and `}`. -/
theorem reports_braces {σ : Type} {body : Body Token ConfigException σ}
    (hcommits : ∀ s, Commits (body.run s)) (hbody : ∀ s, rules.Sticks True (body.run s))
    (hcloses : ∀ s c more, rules.closes c → ∃ e, body.run s (c :: more) = .error e) (s : σ) :
    rules.Reports (do
      let _ ← consume .lbrace
      let s ← body.loop (check .rbrace) s
      let _ ← consume .rbrace
      return s) := by
  refine reports_lbrace.bind (consume_shrinks .lbrace) fun _ => ?_
  refine Reports.loop hcommits hbody
    (fun s => (reads_consume .rbrace).commits.bind fun _ => Commits.pure s)
    (fun s => (consume_shrinks .rbrace).bind fun _ => Keeps.pure s) (fun s ts hts e he => ?_)
    (check_congr .rbrace) (fun c more hc => ?_) hcloses (fun s => ⟨[⟨.rbrace, 0⟩], s, rfl, rfl⟩)
    (fun s => iff_of_true ?_ trivial) s
  · -- the loop stops at a brace, which is taken
    cases ts with
    | nil => cases hts
    | cons c more =>
      have htype : c.lexeme.type = .rbrace := by simpa [check] using hts
      rw [bind_of_ok (consume_good htype more)] at he
      cases he
  · have hbrace : c.lexeme = .rbrace := hc
    simp [check, hbrace, Lexeme.type]
  · exact .inr ⟨⟨.rbrace, 0⟩, rfl, [], s, rfl⟩

theorem reports_parseLocationBlock : rules.Reports parseLocationBlock :=
  reports_consumeWord.bind consumeWord_shrinks fun _ =>
    reports_consumeWord.bind consumeWord_shrinks fun _ =>
      reports_braces (fun loc => (reads_locationItem loc).commits)
        (fun loc => sticks_unlessAtEnd (sticks_parseLocationDirective loc) fun _ more hc =>
          dispatch_closes hc more)
        (fun _ _ more hc => dispatch_closes hc more) _

theorem exists_stoi : ∃ (w : Word) (n : Int), stoi w.val = .ok n :=
  ⟨⟨bytes "1", by decide +kernel⟩, 1, by decide +kernel⟩

theorem sticks_parseServerDirective (config : ServerConfig) :
    rules.Sticks True (parseServerDirective config) := by
  have hlisten : ∃ (w : Word) (config' : ServerConfig),
      ConfigParser.listen config w.val = .ok config' := by
    have hport : stoi (listenPort (bytes "1")) = .ok 1 := by decide +kernel
    have hlisten := listen_eq config (bytes "1")
    rw [hport] at hlisten
    exact ⟨⟨bytes "1", by decide +kernel⟩, _, hlisten⟩
  have hsize : ∃ (w : Word) (n : Nat), parseSize w.val = .ok n :=
    ⟨⟨bytes "1", by decide +kernel⟩, 1, by decide +kernel⟩
  refine sticks_dispatch fun directive => ?_
  split_ifs
  · exact (reports_convertedAndSemicolon hlisten).sticks
  · exact sticks_value _
  · exact sticks_value _
  · have hpage := (reports_converted exists_stoi).bind
      (consumeWord_shrinks.bind fun _ => number_keeps _) fun code =>
        reports_wordAndSemicolon.bind wordAndSemicolon_shrinks fun path =>
          Reports.pure (setErrorPage config code path.val)
    rw [bind_assoc] at hpage
    exact hpage.sticks
  · exact sticks_number hsize _
  · exact sticks_number exists_stoi _
  · exact sticks_error _

/-- An item of a server block does not begin with `}`. -/
theorem serverItem_closes (config : ServerConfig) {c : Token} (h : rules.closes c)
    (more : List Token) : ∃ e, serverItem.run config (c :: more) = .error e := by
  obtain ⟨e, he⟩ := consumeWord_closes h more
  exact ifWord_error ⟨e, bind_of_error (bind_of_error he)⟩ ⟨e, bind_of_error he⟩

theorem sticks_serverItem (config : ServerConfig) : rules.Sticks True (serverItem.run config) := by
  have hblock : rules.Reports (do
      let loc ← parseLocationBlock
      return addLocation config loc) :=
    reports_parseLocationBlock.bind parseLocationBlock_shrinks fun _ => Reports.pure _
  have hreads := reads_locationBlock.map (addLocation config)
  refine sticks_unlessAtEnd (sticks_ifWord hblock.sticks (sticks_parseServerDirective config)
    (fun c more hc => ?_) fun t hword _ => ?_) fun c more hc => serverItem_closes config hc more
  · obtain ⟨e, he⟩ := consumeWord_closes hc more
    exact ⟨⟨e, bind_of_error (bind_of_error he)⟩, e, bind_of_error he⟩
  · -- a block with this first word, and no directives
    obtain ⟨⟨w⟩, line⟩ := t
    · exact ⟨[⟨.word w, 0⟩, ⟨.lbrace, 0⟩, ⟨.rbrace, 0⟩], _,
        (hreads _ _ _).mpr ⟨_, (List.append_nil _).symm, _, ⟨w, ⟨w, []⟩, rfl, rfl⟩, rfl⟩⟩
    all_goals cases hword

theorem reports_parseServerBlock : rules.Reports parseServerBlock :=
  reports_consumeWord.bind consumeWord_shrinks fun _ =>
    reports_braces (fun config => (reads_serverItem config).commits) sticks_serverItem
      (fun config _ more hc => serverItem_closes config hc more) _

theorem sticks_parseUpstreamDirective (upstream : UpstreamConfig) :
    rules.Sticks True (parseUpstreamDirective upstream) := by
  have hserver : ∃ (w : Word) (upstream' : UpstreamConfig),
      addServer upstream w.val = .ok upstream' := by
    have hcolon : findLastOf 58 (bytes "a") = none := by decide +kernel
    have hserver := addServer_eq upstream (bytes "a")
    rw [hcolon] at hserver
    exact ⟨⟨bytes "a", by decide +kernel⟩, _, hserver⟩
  refine sticks_dispatch fun directive => ?_
  split_ifs
  · exact (reports_convertedAndSemicolon hserver).sticks
  · exact sticks_number exists_stoi _
  · exact sticks_error _

theorem reports_parseUpstreamBlock : rules.Reports parseUpstreamBlock :=
  reports_consumeWord.bind consumeWord_shrinks fun _ =>
    reports_consumeWord.bind consumeWord_shrinks fun _ =>
      reports_braces (fun upstream => (reads_upstreamItem upstream).commits)
        (fun upstream => sticks_unlessAtEnd (sticks_parseUpstreamDirective upstream)
          fun _ more hc => dispatch_closes hc more)
        (fun _ _ more hc => dispatch_closes hc more) _

/-- No block begins with `}`. -/
theorem configItem_closes (parsed : Parsed) {c : Token} (h : rules.closes c) (more : List Token) :
    ∃ e, configItem.run parsed (c :: more) = .error e := by
  obtain ⟨e, he⟩ := consumeWord_closes h more
  exact ifWord_error ⟨e, bind_of_error (bind_of_error he)⟩
    (ifWord_error ⟨e, bind_of_error (bind_of_error he)⟩ ⟨_, rfl⟩)

theorem sticks_configItem (parsed : Parsed) : rules.Sticks False (configItem.run parsed) := by
  have hother : rules.Sticks False (fun tokens => error (bytes "Expected 'server' or 'upstream' block, got '" ++
      currentValue tokens ++ bytes "'") tokens : Parse Parsed) :=
    Sticks.throws fun ts => ⟨_, error_eq _ ts, _, rfl⟩
  have hserver : rules.Reports (do
      let config ← parseServerBlock
      return parsed.addConfig config) :=
    reports_parseServerBlock.bind parseServerBlock_shrinks fun _ => Reports.pure _
  have hupstream : rules.Reports (do
      let upstream ← parseUpstreamBlock
      return parsed.setUpstream upstream) :=
    reports_parseUpstreamBlock.bind parseUpstreamBlock_shrinks fun _ => Reports.pure _
  have hcloses : ∀ {α β : Type} {q : Word → Parse α} {f : α → Parse β} (c : Token) more,
      rules.closes c → ∃ e, (consumeWord >>= q >>= f) (c :: more) = .error e := by
    intro α β q f c more hc
    obtain ⟨e, he⟩ := dispatch_closes (q := q) hc more
    exact ⟨e, bind_of_error he⟩
  refine hserver.sticks.choice (hupstream.sticks.choice hother (checkWord_congr _)
    (fun c more hc => ⟨hcloses c more hc, _, rfl⟩) id id False.elim False.elim)
    (checkWord_congr _) (fun c more hc => ⟨hcloses c more hc, ?_⟩) id id False.elim False.elim
  exact ifWord_error (hcloses c more hc) ⟨_, rfl⟩

/-! ## The Token at Which Parsing Stops -/

/-- The tokens go on to a configuration. -/
def Viable (front : List Token) : Prop := ∃ more parsed, Configures (front ++ more) parsed

/-- **The tokens that the parser takes**: they go on to a configuration; but where `}` may
    stand, any word may, for the name of a directive. -/
inductive Taken : List Token → Prop where
  | viable {front : List Token} (h : Viable front) : Taken front
  | name {before : List Token} {t c : Token} (hword : t.lexeme.type = .word)
      (hcloses : c.lexeme = .rbrace) (h : Viable (before ++ [c])) : Taken (before ++ [t])

/-- **Parsing stops in front of `rest`**: the tokens before it are taken, the next one is not. -/
structure StopsAt (tokens front rest : List Token) : Prop where
  split : tokens = front ++ rest
  taken : Taken front
  next : ∀ t ∈ rest.head?, ¬ Taken (front ++ [t])

theorem Viable.left {front more : List Token} (h : Viable (front ++ more)) : Viable front := by
  obtain ⟨more', parsed, hparsed⟩ := h
  exact ⟨more ++ more', parsed, by rwa [← List.append_assoc]⟩

/-- Every beginning of what is taken is taken. -/
theorem Taken.left {front more : List Token} (h : Taken (front ++ more)) : Taken front := by
  rcases List.eq_nil_or_concat more with rfl | ⟨more, t, rfl⟩
  · rwa [List.append_nil] at h
  · generalize hx : front ++ (more.concat t) = x at h
    cases h with
    | viable h =>
      rw [← hx] at h
      exact .viable h.left
    | name hword hcloses h =>
      -- only the last word is taken for a name
      rw [List.concat_eq_append, ← List.append_assoc] at hx
      obtain ⟨rfl, -⟩ := List.append_inj' hx rfl
      rw [List.append_assoc] at h
      exact .viable h.left

/-- Two places to stop at are not one behind the other. -/
theorem StopsAt.le {tokens front rest front' rest' : List Token} (h : StopsAt tokens front rest)
    (h' : StopsAt tokens front' rest') : front'.length ≤ front.length := by
  by_contra hless
  have hprefix : front <+: front' := by
    have hfront : front <+: tokens := ⟨rest, h.split.symm⟩
    have hfront' : front' <+: tokens := ⟨rest', h'.split.symm⟩
    exact List.prefix_of_prefix_length_le hfront hfront' (by omega)
  obtain ⟨more, rfl⟩ := hprefix
  cases more with
  | nil => simp at hless
  | cons t more =>
    have hrest : rest = t :: more ++ rest' := by
      have hsame := h.split.symm.trans h'.split
      rw [List.append_assoc] at hsame
      exact List.append_cancel_left hsame
    -- the later place takes the token at which the earlier one stops
    refine h.next t (by rw [hrest]; rfl) ?_
    have htaken := h'.taken
    rw [List.append_cons] at htaken
    exact htaken.left

/-- A server block behind some blocks. -/
theorem viable_of_render {front : List Token} {more : List Lexeme} {blocks : List Block}
    {parsed : Parsed} (hfront : front.map Token.lexeme ++ more = render blocks)
    (hmeaning : meaning blocks = .ok parsed) : Viable front := by
  refine ⟨(more ++ (Block.server []).render).map (⟨·, 0⟩), parsed.addConfig {},
    blocks ++ [.server []], ?_, ⟨.server [], by simp, rfl⟩, ?_⟩
  · simp only [List.map_append, List.map_map, Function.comp_def, List.map_id']
    rw [← List.append_assoc, hfront]
    simp [render]
  · unfold meaning at hmeaning ⊢
    rw [List.foldlM_append, hmeaning]
    rfl

theorem goesOn_iff {front : List Token} :
    GoesOn (configItem.loop (·.isEmpty) {}) front ↔ Viable front := by
  constructor
  · rintro ⟨more, parsed, hok⟩
    obtain ⟨text, htext, ⟨blocks, hblocks, hmeaning⟩, -⟩ := configLoop_iff.mp hok
    rw [List.append_nil] at htext
    rw [← htext, List.map_append] at hblocks
    exact viable_of_render hblocks hmeaning
  · rintro ⟨more, parsed, blocks, hblocks, -, hmeaning⟩
    exact ⟨more, parsed, configLoop_iff.mpr ⟨_, (List.append_nil _).symm, ⟨blocks, hblocks, hmeaning⟩, rfl⟩⟩

theorem viable_nil : Viable [] := by
  have hrender : ([] : List Token).map Token.lexeme ++ [] = render [] := rfl
  exact viable_of_render hrender rfl

theorem takes_iff {front : List Token} :
    rules.Takes False (configItem.loop (·.isEmpty) {}) front ↔ Taken front := by
  constructor
  · intro h
    cases h with
    | goesOn h => exact .viable (goesOn_iff.mp h)
    | first hword hopen =>
      obtain ⟨c, hcloses, h⟩ := hopen.resolve_left id
      have hviable : Viable ([] ++ [c]) := goesOn_iff.mp h
      exact .name hword hcloses hviable
    | name _ hword hcloses h => exact .name hword hcloses (goesOn_iff.mp h)
  · intro h
    cases h with
    | viable h => exact .goesOn (goesOn_iff.mpr h)
    | @name before _ c hword hcloses h =>
      cases before with
      | nil => exact .first hword (.inr ⟨c, hcloses, goesOn_iff.mpr h⟩)
      | cons _ _ => exact .name (by simp) hword hcloses (goesOn_iff.mpr h)

/-- **The parser throws where it is stuck.** -/
theorem sticks_configLoop : rules.Sticks False (configItem.loop (·.isEmpty) {}) := by
  have hloop : rules.Sticks False (configItem.loop (·.isEmpty) {} >>= pure) := by
    refine Sticks.loop (fun parsed => (reads_configItem parsed).commits) sticks_configItem
      isEmpty_congr (fun parsed => ⟨[], parsed, ?_⟩) (fun parsed ts hts e he => ?_)
      (fun parsed => iff_of_false ?_ id) (fun parsed c more hc => configItem_closes parsed hc more) {}
    · exact loop_bind_of_stop rfl
    · rw [loop_bind_of_stop hts] at he
      cases he
    · intro hopen
      obtain ⟨c, hc, hgo⟩ := hopen.resolve_left id
      refine not_goesOn_of_error (fun more => ?_) hgo
      obtain ⟨e, he⟩ := configItem_closes parsed hc more
      refine ⟨e, ?_⟩
      rw [loop_bind_of_not_stop rfl]
      exact bind_of_error he
  rwa [bind_pure] at hloop

/-- **There is one place at which parsing stops.** -/
theorem existsUnique_stopsAt (tokens : List Token) :
    ∃! stop : List Token × List Token, StopsAt tokens stop.1 stop.2 := by
  -- token by token, up to the first that is not taken
  have hexists : ∀ rest front, tokens = front ++ rest → Taken front →
      ∃ stop : List Token × List Token, StopsAt tokens stop.1 stop.2 := by
    intro rest
    induction rest with
    | nil => exact fun front hsplit htaken => ⟨(front, []), hsplit, htaken, by simp⟩
    | cons t rest ih =>
      intro front hsplit htaken
      by_cases hnext : Taken (front ++ [t])
      · exact ih (front ++ [t]) (by rw [hsplit, List.append_cons]) hnext
      · refine ⟨(front, t :: rest), hsplit, htaken, fun t' ht' => ?_⟩
        obtain rfl := Option.some.inj ht'
        exact hnext
  obtain ⟨stop, hstop⟩ := hexists tokens [] rfl (.viable viable_nil)
  refine ⟨stop, hstop, fun stop' hstop' => ?_⟩
  have hlength := Nat.le_antisymm (hstop'.le hstop) (hstop.le hstop')
  obtain ⟨hfront, hrest⟩ := List.append_inj (hstop'.split.symm.trans hstop.split) hlength.symm
  exact Prod.ext hfront hrest

/-- Every error that is no conversion's carries the line of that place. -/
theorem stopsAt_of_error {tokens : List Token} {e : ConfigException}
    (h : configItem.loop (·.isEmpty) {} tokens = .error e) (hconversion : ∀ c, e ≠ .conversion c) :
    ∃ front rest, StopsAt tokens front rest ∧ ∃ message, e = .configError (lineAt rest) message := by
  rcases sticks_configLoop tokens e h with ⟨c, hc⟩ | ⟨front, rest, hsplit, hthrown, hstuck⟩
  · exact absurd hc (hconversion c)
  refine ⟨front, rest, ⟨hsplit, ?_, fun t ht htaken => hstuck.next t ht (takes_iff.mpr htaken)⟩, hthrown⟩
  by_cases hfront : front = []
  · rw [hfront]
    exact .viable viable_nil
  · exact takes_iff.mp (hstuck.taken hfront)

/-! ## Server Block Headers -/

/-- The words `server {` stand somewhere, other than as the name of an upstream block. -/
def HasServerHeader (tokens : List Token) : Prop :=
  ∃ front back, tokens.map Token.lexeme = front ++ keyword "server" isWord_server :: .lbrace :: back ∧
    front.getLast? ≠ some (keyword "upstream" isWord_upstream)

theorem lbrace_not_mem (directives : List UpstreamDirective) :
    Lexeme.lbrace ∉ directives.flatMap UpstreamDirective.render := by
  intro hmem
  obtain ⟨d, -, hd⟩ := List.mem_flatMap.mp hmem
  cases d <;> simp [UpstreamDirective.render, keyword] at hd

/-- A word in front of a brace does not stand within a text without one. -/
theorem behind_rbrace {inner rest front back : List Lexeme} {w : Word} (hno : Lexeme.lbrace ∉ inner)
    (heq : inner ++ [.rbrace] ++ rest = front ++ .word w :: .lbrace :: back) :
    ∃ front', front = inner ++ [.rbrace] ++ front' ∧ rest = front' ++ .word w :: .lbrace :: back := by
  rcases List.append_eq_append_iff.mp heq with ⟨u, hu, hu'⟩ | ⟨u, hu, hu'⟩
  · exact ⟨u, hu, hu'⟩
  · match u, hu, hu' with
    | [], hu, hu' => exact ⟨[], by simpa using hu.symm, hu'.symm⟩
    | [x], hu, hu' =>
      -- the word would be the closing brace
      obtain ⟨-, hx⟩ := List.append_inj' hu rfl
      have hword := (List.cons.inj hu').1
      rw [← (List.cons.inj hx).1] at hword
      cases hword
    | x :: y :: u, hu, hu' =>
      obtain ⟨-, htail⟩ := List.cons.inj hu'
      have hbrace : Lexeme.lbrace = y := (List.cons.inj htail).1
      have hmem : Lexeme.lbrace ∈ inner ++ [.rbrace] := by
        rw [hu, hbrace]
        simp
      simp [hno] at hmem

/-- Among upstream blocks these words only name one. -/
theorem getLast?_of_upstreams {blocks : List Block} (h : ∀ block ∈ blocks, block.isServer = false)
    {front back : List Lexeme}
    (heq : render blocks = front ++ keyword "server" isWord_server :: .lbrace :: back) :
    front.getLast? = some (keyword "upstream" isWord_upstream) := by
  induction blocks generalizing front with
  | nil =>
    have hlen := congrArg List.length heq
    simp [render] at hlen
  | cons block blocks ih =>
    have hrest := fun {front} => @ih (fun b hb => h b (List.mem_cons_of_mem _ hb)) front
    cases block with
    | server items => exact absurd (h _ List.mem_cons_self) (by simp [Block.isServer])
    | upstream name directives =>
      have hcut : render (Block.upstream name directives :: blocks) =
          keyword "upstream" isWord_upstream :: .word name :: .lbrace ::
            (directives.flatMap UpstreamDirective.render ++ [.rbrace] ++ render blocks) := by
        simp [render, Block.render]
      rw [hcut] at heq
      have hkeywords : keyword "upstream" ≠ keyword "server" := by decide +kernel
      have hno := lbrace_not_mem directives
      generalize directives.flatMap UpstreamDirective.render = inner at heq hno
      match front, heq with
      | [], heq => exact absurd (List.cons.inj heq).1 hkeywords
      | [a], heq =>
        obtain rfl := (List.cons.inj heq).1
        rfl
      | [_, _], heq => simp [keyword] at heq
      | a :: b :: c :: front, heq =>
        -- behind the brace of the block, only the next blocks have another one
        simp only [List.cons_append, List.cons.injEq] at heq
        obtain ⟨-, -, -, heq⟩ := heq
        obtain ⟨front', rfl, hblocks⟩ := behind_rbrace hno heq
        have hlast := hrest hblocks
        simp [List.getLast?_append, List.getLast?_cons, hlast]

/-- With a header among the tokens, the last check of `parse_config` does not fail. -/
theorem ne_runtimeError {tokens : List Token} (h : HasServerHeader tokens) (message : Bytes) :
    parseConfig tokens ≠ .error (.runtimeError message) := by
  intro herror
  unfold parseConfig at herror
  split at herror
  · next e hloop =>
    -- the loop throws no such error
    obtain rfl := Except.error.inj herror
    rcases sticks_configLoop tokens _ hloop with ⟨c, hc⟩ | ⟨_, _, _, ⟨_, hthrown⟩, _⟩
    · cases hc
    · cases hthrown
  · next parsed rest hloop =>
    obtain ⟨text, rfl, ⟨blocks, htext, hmeaning⟩, hrest⟩ := configLoop_iff.mp hloop
    split at herror
    · next hconfigs =>
      obtain ⟨front, back, hheader, hname⟩ := h
      rw [List.isEmpty_iff.mp hrest, List.append_nil, htext] at hheader
      refine hname (getLast?_of_upstreams (fun block hblock => ?_) hheader)
      by_contra hserver
      have hne := (configs_ne_nil_iff hmeaning).mpr (.inr ⟨block, hblock, by simpa using hserver⟩)
      exact hne hconfigs
    · cases herror

/-- **A rejected configuration with a server block is reported with the line of the
    token at which parsing stopped, unless a number in it is refused.** -/
theorem configError_iff {input : Bytes} {e : ConfigException}
    (hheader : HasServerHeader (tokenize input)) (hrejected : parseString input = .error e) :
    (∃! stop : List Token × List Token, StopsAt (tokenize input) stop.1 stop.2 ∧
        ∃ message, e = .configError (lineAt stop.2) message) ↔
      ∀ c, ¬ RefusesNumber (tokenize input) c := by
  have herror : parseConfig (tokenize input) = .error e := hrejected
  constructor
  · intro h c hrefuses
    obtain ⟨stop, ⟨-, message, rfl⟩, -⟩ := h
    rw [(parseConfig_conversion_iff _ c).mpr hrefuses] at herror
    cases herror
  · intro h
    have hconversion : ∀ c, e ≠ .conversion c := by
      intro c hc
      rw [hc] at herror
      exact h c ((parseConfig_conversion_iff _ c).mp herror)
    have hruntime : ∀ message, e ≠ .runtimeError message := by
      intro message hm
      rw [hm] at herror
      exact ne_runtimeError hheader message herror
    obtain ⟨front, rest, hstop⟩ :=
      stopsAt_of_error ((parseConfig_error_iff hruntime).mp herror) hconversion
    exact ⟨(front, rest), hstop, fun stop hstop' =>
      (existsUnique_stopsAt _).unique hstop'.1 hstop.1⟩

/-! ## Two Rejected Configurations -/

open ConfigLayout

/-- A server block that is not closed. -/
def openLayout : Layout where
  items := [([], keyword "server" isWord_server), ([.space 32 isSpace_blank], .lbrace)]
  written := by
    intro item hitem
    simp only [List.mem_cons, List.not_mem_nil, or_false] at hitem
    rcases hitem with rfl | rfl
    · exact isWritten_server
    · trivial
  apart := by simp [Apart, keyword, Lexeme.type]
  trailing := []
  unfinished := none

theorem parseConfig_unclosed (line line' : Int) :
    parseConfig [⟨keyword "server" isWord_server, line⟩, ⟨.lbrace, line'⟩] =
      .error (.configError (-1) (bytes "Unclosed server block — missing '\x7d'")) := by
  have hinner : serverItem.loop (check .rbrace) {} [] =
      .error (.configError (-1) (bytes "Unclosed server block — missing '\x7d'")) := by
    rw [Body.loop_of_not_stop rfl]
    rfl
  have hblock : parseServerBlock [⟨keyword "server" isWord_server, line⟩, ⟨.lbrace, line'⟩] =
      .error (.configError (-1) (bytes "Unclosed server block — missing '\x7d'")) := by
    unfold parseServerBlock
    rw [bind_of_ok rfl, bind_of_ok rfl]
    exact bind_of_error hinner
  have hword : checkWord (bytes "server") [⟨keyword "server" isWord_server, line⟩, ⟨.lbrace, line'⟩] = true := by
    simp [checkWord, keyword, Lexeme.type, Lexeme.value]
  refine (parseConfig_error_iff fun message h => by cases h).mpr ?_
  rw [Body.loop_of_not_stop rfl]
  refine bind_of_error ?_
  unfold configItem ifWord
  dsimp only
  rw [if_pos hword]
  exact bind_of_error hblock

theorem configError_unclosed :
    (∃! stop : List Token × List Token, StopsAt (tokenize (bytes "server \x7b")) stop.1 stop.2 ∧
        ∃ message, ConfigException.configError (-1) (bytes "Unclosed server block — missing '\x7d'") =
          .configError (lineAt stop.2) message) ↔
      ∀ c, ¬ RefusesNumber (tokenize (bytes "server \x7b")) c := by
  have htext : openLayout.text = bytes "server \x7b" := by decide +kernel
  obtain ⟨line, line', htokens⟩ : ∃ line line', tokenize (bytes "server \x7b") =
      [⟨keyword "server" isWord_server, line⟩, ⟨.lbrace, line'⟩] := by
    rw [← htext, openLayout.tokenize_eq]
    exact ⟨_, _, rfl⟩
  apply configError_iff
  · rw [htokens]
    exact ⟨[], [], rfl, by simp⟩
  · show parseConfig (tokenize (bytes "server \x7b")) = _
    rw [htokens]
    exact parseConfig_unclosed line line'

/-- What `std::stoi` throws at the port `abc` leaves `parse_string`. -/
theorem not_configError_port :
    ¬ ∀ (input : Bytes) (e : ConfigException), HasServerHeader (tokenize input) →
      parseString input = .error e → ∃ line message, e = .configError line message := by
  intro h
  have hwritten : ∀ b ∈ bytes "abc", isWordByte b = true := by decide +kernel
  have hlisten : ConfigParser.listen {} (bytes "abc") = .error .invalidArgument := by
    have hstoi : stoi (listenPort (bytes "abc")) = .error .invalidArgument := by decide +kernel
    rw [listen_eq, hstoi]
    rfl
  have htokens := (listenLayout ⟨bytes "abc", by decide +kernel⟩ hwritten).tokenize_lexemes
  have herror : parseString (listenLayout ⟨bytes "abc", by decide +kernel⟩ hwritten).text =
      .error (.conversion .invalidArgument) := by
    have hrefused : RefusedServer [keyword "listen" isWord_listen, .word ⟨bytes "abc", by decide +kernel⟩]
        .invalidArgument := ⟨.listen ⟨bytes "abc", by decide +kernel⟩, rfl, (ServerDirective.apply_listen {} _).trans hlisten⟩
    exact (parseConfig_conversion_iff _ _).mpr ⟨[], _, [.semicolon, .rbrace], {}, htokens, rfl,
      .inl ⟨[], _, {}, rfl, rfl, hrefused⟩⟩
  obtain ⟨line, message, he⟩ := h _ _ ⟨[], _, htokens, by simp⟩ herror
  cases he

end ConfigErrors

end VeloxServe
