import VeloxServe.Config.ConfigPrinter

/-! # Accepted Configurations

    What `ConfigParser` returns, of whatever text: a writable configuration, in
    which every text is a word of the tokenizer or a default, every `int` is in
    its range, and each upstream stands under its own name. Together with the
    printer this says exactly which configurations there are.
-/

namespace VeloxServe

open StdString ConfigParser ConfigGrammar ConfigLayout ConfigNumbers

namespace ConfigPrinter

/-! ## Section 1: What Directives Keep -/

/-- What a directive keeps, a list of directives keeps. -/
theorem foldlM_keeps_written {σ ι ε : Type} {apply : σ → ι → Except ε σ} {render : ι → List Lexeme}
    {Q : σ → Prop} (hstep : ∀ s d s', Written (render d) → Q s → apply s d = .ok s' → Q s')
    {ds : List ι} {s s' : σ} (hds : Written (ds.flatMap render)) (h : ds.foldlM apply s = .ok s')
    (hs : Q s) : Q s' := by
  induction ds generalizing s with
  | nil =>
    obtain rfl := Except.ok.inj h
    exact hs
  | cons d ds ih =>
    rw [List.flatMap_cons] at hds
    obtain ⟨hd, hds⟩ := List.forall_mem_append.mp hds
    cases happly : apply s d with
    | error e =>
      rw [List.foldlM_cons, happly] at h
      cases h
    | ok next =>
      rw [foldlM_cons_ok happly] at h
      exact ih hds h (hstep s d next hd hs happly)

/-- The second token of a directive. -/
theorem Written.second {k : Lexeme} {w : Word} {rest : List Lexeme}
    (h : Written (k :: .word w :: rest)) : IsToken w.val :=
  isToken_of_isWritten (h _ (List.mem_cons_of_mem _ List.mem_cons_self))

/-- `push_back`. -/
theorem forall_mem_push {α : Type} {p : α → Prop} {l : List α} {a : α} (hl : ∀ x ∈ l, p x)
    (ha : p a) : ∀ x ∈ l ++ [a], p x :=
  List.forall_mem_append.mpr ⟨hl, List.forall_mem_singleton.mpr ha⟩

theorem WritableLocation.apply {loc : LocationConfig} {d : LocationDirective} (hd : Written d.render)
    (h : WritableLocation loc) : WritableLocation (d.apply loc) := by
  cases d with
  | root path => exact { h with root := .inr hd.second }
  | index file => exact { h with indexFile := hd.second }
  | proxyPass url => exact { h with proxyPass := .inr hd.second }
  | methods names =>
    refine { h with methods := List.forall_mem_append.mpr ⟨h.methods, fun m hm => ?_⟩ }
    obtain ⟨name, hname, rfl⟩ := List.mem_map.mp hm
    refine isToken_of_isWritten (hd _ (List.mem_cons_of_mem _ (List.mem_append_left _ ?_)))
    exact List.mem_map_of_mem hname
  | autoindex value => exact { h with }

theorem isToken_index : IsToken (bytes "index.html") := by decide +kernel

/-- **A location block that is read is writable.** -/
theorem writable_meaning {block : LocationBlock} (h : Written block.render) :
    WritableLocation block.meaning := by
  have hpath := h.second
  have hdirectives : Written (block.directives.flatMap LocationDirective.render) := by
    intro l hl
    refine h l (List.mem_cons_of_mem _ (List.mem_cons_of_mem _ (List.mem_cons_of_mem _ ?_)))
    exact List.mem_append_left _ hl
  have hstart : WritableLocation { path := block.path.val, methods_words := List.forall_mem_nil _ } :=
    ⟨hpath, .inl rfl, isToken_index, .inl rfl, List.forall_mem_nil _⟩
  have hfold : block.directives.foldlM (fun loc d => (.ok (d.apply loc) : Except Unit LocationConfig))
      { path := block.path.val, methods_words := List.forall_mem_nil _ } = .ok block.meaning :=
    List.foldlM_pure
  refine foldlM_keeps_written (fun loc d loc' hd hloc hok => ?_) hdirectives hfold hstart
  obtain rfl := Except.ok.inj hok
  exact hloc.apply hd

theorem fitsInt_of_stoi {s : Bytes} {i : Int} (h : stoi s = .ok i) : FitsInt i :=
  ⟨(stoi_range h).1, (stoi_range h).2⟩

theorem Plain.take {s : Bytes} (h : Plain s) (n : Nat) : Plain (s.take n) :=
  fun b hb => h b (List.mem_of_mem_take hb)

/-- The host that `listen` stores has no colon. -/
theorem WritableServer.listen {config config' : ServerConfig} (h : WritableServer config)
    {value : Bytes} (hvalue : Plain value) (hlisten : ConfigParser.listen config value = .ok config') :
    WritableServer config' := by
  unfold ConfigParser.listen at hlisten
  split at hlisten
  · next colon hcolon =>
    obtain ⟨port, hport, rfl⟩ := bind_ok_iff.mp hlisten
    obtain ⟨host, back, rfl, hhost, rfl⟩ := find_singleton_split hcolon
    refine { h with port := fitsInt_of_stoi hport, host := hvalue.take _, noColon := ?_ }
    show (58 : UInt8) ∉ (host ++ 58 :: back).take host.length
    rw [List.take_left]
    exact hhost
  · obtain ⟨port, hport, rfl⟩ := bind_ok_iff.mp hlisten
    exact { h with port := fitsInt_of_stoi hport }

theorem WritableServer.setErrorPage {config : ServerConfig} (h : WritableServer config) {code : Int}
    {page : Bytes} (hcode : FitsInt code) (hpage : IsToken page) :
    WritableServer (setErrorPage config code page) where
  port := h.port
  host := h.host
  noColon := h.noColon
  serverName := h.serverName
  root := h.root
  clientMaxBodySize := h.clientMaxBodySize
  rateLimit := h.rateLimit
  errorPages := by
    intro c p hp
    by_cases hc : c = code
    · rw [show (ConfigParser.setErrorPage config code page).errorPages c = some page from if_pos hc] at hp
      obtain rfl := Option.some.inj hp
      exact ⟨hc ▸ hcode, hpage⟩
    · rw [show (ConfigParser.setErrorPage config code page).errorPages c = config.errorPages c from
        if_neg hc] at hp
      exact h.errorPages c p hp
  finite := by
    obtain ⟨codes, hcodes⟩ := h.finite
    refine ⟨code :: codes, fun c hc => ?_⟩
    by_cases heq : c = code
    · exact heq ▸ List.mem_cons_self
    · refine List.mem_cons_of_mem _ (hcodes c fun hnone => hc ?_)
      exact (if_neg heq).trans hnone
  locations := h.locations

theorem WritableServer.apply {config config' : ServerConfig} {item : ServerItem}
    (hitem : Written item.render) (h : WritableServer config) (happly : item.apply config = .ok config') :
    WritableServer config' := by
  cases item with
  | location block =>
    obtain rfl := Except.ok.inj happly
    have hblock := writable_meaning hitem
    exact { h with locations := forall_mem_push h.locations hblock }
  | directive d =>
    cases d with
    | listen value =>
      exact h.listen (Written.second hitem).plain
        ((ServerDirective.apply_listen config value).symm.trans happly)
    | serverName name =>
      obtain rfl := Except.ok.inj happly
      exact { h with serverName := Written.second hitem }
    | root path =>
      obtain rfl := Except.ok.inj happly
      exact { h with root := Written.second hitem }
    | errorPage code path =>
      obtain ⟨n, hn, rfl⟩ := bind_ok_iff.mp happly
      have hpage : IsToken path.val := isToken_of_isWritten (hitem _ (by simp [ServerItem.render, ServerDirective.render]))
      exact h.setErrorPage (fitsInt_of_stoi hn) hpage
    | clientMaxBodySize size =>
      obtain ⟨n, -, rfl⟩ := bind_ok_iff.mp happly
      exact { h with clientMaxBodySize := Nat.mod_lt _ (by decide) }
    | rateLimit rate =>
      obtain ⟨n, hn, rfl⟩ := bind_ok_iff.mp happly
      exact { h with rateLimit := fitsInt_of_stoi hn }

theorem writable_default : WritableServer {} where
  port := ⟨by decide, by decide⟩
  host := by decide +kernel
  noColon := by decide +kernel
  serverName := by decide +kernel
  root := by decide +kernel
  clientMaxBodySize := by decide
  rateLimit := ⟨by decide, by decide⟩
  errorPages := fun _ _ h => by cases h
  finite := ⟨[], fun _ h => absurd rfl h⟩
  locations := List.forall_mem_nil _

/-- The hosts that `server` stores are made of bytes of words. -/
theorem WritableUpstream.server {upstream upstream' : UpstreamConfig} (h : WritableUpstream upstream)
    {addr : Bytes} (haddr : Plain addr) (hserver : addServer upstream addr = .ok upstream') :
    WritableUpstream upstream' := by
  rw [addServer_eq] at hserver
  split at hserver
  · obtain rfl := Except.ok.inj hserver
    have hport : FitsInt 80 := ⟨by decide, by decide⟩
    exact { h with servers := forall_mem_push h.servers ⟨haddr, hport⟩ }
  · obtain ⟨port, hport, rfl⟩ := map_ok_iff.mp hserver
    exact { h with servers := forall_mem_push h.servers ⟨haddr.take _, fitsInt_of_stoi hport⟩ }

theorem WritableUpstream.apply {upstream upstream' : UpstreamConfig} {d : UpstreamDirective}
    (hd : Written d.render) (h : WritableUpstream upstream) (happly : d.apply upstream = .ok upstream') :
    WritableUpstream upstream' := by
  cases d with
  | server addr =>
    exact h.server hd.second.plain
      ((UpstreamDirective.apply_server upstream addr).symm.trans happly)
  | healthCheckInterval seconds =>
    obtain ⟨n, hn, rfl⟩ := bind_ok_iff.mp happly
    exact { h with healthCheckInterval := fitsInt_of_stoi hn }

/-! ## Section 2: Whole Texts -/

theorem WritableBlocks.setUpstream {parsed : Parsed} (h : WritableBlocks parsed) {upstream : UpstreamConfig}
    (hupstream : WritableUpstream upstream) : WritableBlocks (parsed.setUpstream upstream) where
  configs := h.configs
  upstreams := by
    intro name u hu
    unfold Parsed.setUpstream at hu
    dsimp only at hu
    split at hu
    · next hname =>
      obtain rfl := Option.some.inj hu
      exact ⟨hname.symm, hupstream⟩
    · exact h.upstreams name u hu
  finite := by
    obtain ⟨names, hnames⟩ := h.finite
    refine ⟨upstream.name :: names, fun name hname => ?_⟩
    by_cases heq : name = upstream.name
    · exact heq ▸ List.mem_cons_self
    · refine List.mem_cons_of_mem _ (hnames name fun hnone => hname ?_)
      exact (if_neg heq).trans hnone

theorem WritableBlocks.apply {parsed parsed' : Parsed} {block : Block} (hblock : Written block.render)
    (h : WritableBlocks parsed) (happly : block.apply parsed = .ok parsed') : WritableBlocks parsed' := by
  cases block with
  | server items =>
    obtain ⟨config, hitems, rfl⟩ := bind_ok_iff.mp happly
    have hwritten : Written (items.flatMap ServerItem.render) := by
      intro l hl
      refine hblock l (List.mem_cons_of_mem _ (List.mem_cons_of_mem _ ?_))
      exact List.mem_append_left _ hl
    have hconfig : WritableServer config :=
      foldlM_keeps_written (fun _ _ _ hd hs hok => hs.apply hd hok) hwritten hitems writable_default
    exact { h with configs := forall_mem_push h.configs hconfig }
  | upstream name directives =>
    obtain ⟨upstream, hdirectives, rfl⟩ := bind_ok_iff.mp happly
    have hwritten : Written (directives.flatMap UpstreamDirective.render) := by
      intro l hl
      refine hblock l (List.mem_cons_of_mem _ (List.mem_cons_of_mem _ (List.mem_cons_of_mem _ ?_)))
      exact List.mem_append_left _ hl
    have hinterval : FitsInt 5 := ⟨by decide, by decide⟩
    have hstart : WritableUpstream { name := name.val } :=
      ⟨Written.second hblock, List.forall_mem_nil _, hinterval⟩
    have hupstream : WritableUpstream upstream :=
      foldlM_keeps_written (fun _ _ _ hd hs hok => hs.apply hd hok) hwritten hdirectives hstart
    have hset := h.setUpstream hupstream
    unfold Parsed.setUpstream at hset
    rw [UpstreamDirective.foldlM_name hdirectives] at hset
    exact hset

/-- **What is accepted is writable.** -/
theorem writable_of_parseString {input : Bytes} {parsed : Parsed}
    (h : parseString input = .ok parsed) : Writable parsed := by
  obtain ⟨blocks, htokens, hserver, hmeaning⟩ := (parseConfig_iff _ _).mp h
  have hwritten : Written (render blocks) := by
    rw [← htokens]
    intro l hl
    obtain ⟨t, ht, rfl⟩ := List.mem_map.mp hl
    exact isWritten_tokenizeFrom t ht
  have hstart : WritableBlocks {} :=
    ⟨List.forall_mem_nil _, fun _ _ h => (by cases h), [], fun _ h => absurd rfl h⟩
  have hblocks : WritableBlocks parsed :=
    foldlM_keeps_written (fun _ _ _ hd hs hok => hs.apply hd hok) hwritten hmeaning hstart
  exact ⟨hblocks, (configs_ne_nil_iff hmeaning).mpr (.inr hserver)⟩

/-! ## Section 3: Main Result -/

/-- The tables of a writable configuration can be listed. -/
theorem exists_lists {parsed : Parsed} (h : Writable parsed) :
    ∃ names codes, Lists names codes parsed := by
  have hcodes : ∀ configs : List ServerConfig, (∀ config ∈ configs, WritableServer config) →
      ∃ codes : List Int, ∀ config ∈ configs, ∀ code, config.errorPages code ≠ none → code ∈ codes := by
    intro configs hconfigs
    induction configs with
    | nil => exact ⟨[], List.forall_mem_nil _⟩
    | cons config configs ih =>
      obtain ⟨hconfig, hrest⟩ := List.forall_mem_cons.mp hconfigs
      obtain ⟨first, hfirst⟩ := hconfig.finite
      obtain ⟨codes, hcodes⟩ := ih hrest
      refine ⟨first ++ codes, List.forall_mem_cons.mpr ⟨fun code hcode => ?_, fun c hc code hcode => ?_⟩⟩
      · exact List.mem_append_left _ (hfirst code hcode)
      · exact List.mem_append_right _ (hcodes c hc code hcode)
  obtain ⟨names, hnames⟩ := h.finite
  obtain ⟨codes, hcodes⟩ := hcodes parsed.configs h.configs
  exact ⟨names, codes, hnames, hcodes⟩

/-- **The configurations that a text leads to are the writable ones**, and each of
    them is read back from the text that the printer makes of it. -/
theorem accepted_iff_writable (parsed : Parsed) :
    ((∃ input, parseString input = .ok parsed) ↔ Writable parsed) ∧
      ∀ input, parseString input = .ok parsed → ∀ names codes, Lists names codes parsed →
        parseString (print names codes parsed) = .ok parsed := by
  refine ⟨⟨?_, fun h => ?_⟩, fun input h names codes hlists => ?_⟩
  · intro h
    obtain ⟨input, hinput⟩ := h
    exact writable_of_parseString hinput
  · obtain ⟨names, codes, hlists⟩ := exists_lists h
    exact ⟨_, parseString_print h hlists⟩
  · exact parseString_print (writable_of_parseString h) hlists

end ConfigPrinter

end VeloxServe
