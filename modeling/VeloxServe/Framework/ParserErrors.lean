import VeloxServe.Framework.TokenParser

/-! # Errors of Recursive Descent

    How the parsers of `TokenParser` fail:

    * **Where a parser is stuck**: it takes the tokens that go on to an input it
      accepts, and not the next one. Names are an exception: where one may stand,
      any word is taken for it. These places are those at which a block may be
      closed.
    * **Texts that throw**: the beginnings of inputs on which a parser throws
      errors of one kind, put together like the languages it accepts.
-/

namespace TokenParser

variable {τ κ ε α β γ σ : Type}

/-! ## Runs That Fail -/

section

variable {p : TokenParser τ ε α}

theorem bind_of_ok {f : α → TokenParser τ ε β} {ts mid : List τ} {a : α}
    (h : p ts = .ok (a, mid)) : (p >>= f) ts = f a mid := by
  show (p ts >>= fun x => f x.1 x.2) = _
  rw [h]
  rfl

theorem bind_of_error {f : α → TokenParser τ ε β} {ts : List τ} {e : ε} (h : p ts = .error e) :
    (p >>= f) ts = .error e := by
  show (p ts >>= fun x => f x.1 x.2) = _
  rw [h]
  rfl

theorem bind_error {f : α → TokenParser τ ε β} {ts : List τ} {e : ε} :
    (p >>= f) ts = .error e ↔ p ts = .error e ∨ ∃ a mid, p ts = .ok (a, mid) ∧ f a mid = .error e := by
  cases hp : p ts with
  | error e' =>
    rw [bind_of_error hp]
    simp
  | ok r =>
    obtain ⟨a, mid⟩ := r
    rw [bind_of_ok hp]
    simp

/-- A loop that does not stop runs its body and goes on. -/
theorem Body.loop_of_not_stop {body : Body τ ε σ} {stop : List τ → Bool} {s : σ} {ts : List τ}
    (h : stop ts = false) : body.loop stop s ts = (body.run s >>= body.loop stop) ts := by
  unfold Body.loop
  rw [Body.loopOn, if_neg (by simp [h])]
  split
  · next e he => exact (bind_of_error he).symm
  · next s' rest hrun => exact (bind_of_ok hrun).symm

theorem Body.loop_of_stop {body : Body τ ε σ} {stop : List τ → Bool} {s : σ} {ts : List τ}
    (h : stop ts = true) : body.loop stop s ts = .ok (s, ts) := by
  unfold Body.loop
  rw [Body.loopOn, if_pos h]

end

/-! ## Where a Parser Stops -/

theorem head?_append_left {front : List τ} (h : front ≠ []) (rest rest' : List τ) :
    (front ++ rest').head? = (front ++ rest).head? := by
  obtain ⟨t, front, rfl⟩ := List.exists_cons_of_ne_nil h
  rfl

/-- The tokens go on to an input that the parser takes as a whole. -/
def GoesOn (p : TokenParser τ ε α) (front : List τ) : Prop :=
  ∃ more a, p (front ++ more) = .ok (a, [])

/-- A parser that takes some tokens takes them whatever follows. -/
def Commits (p : TokenParser τ ε α) : Prop :=
  ∀ ts a rest, p ts = .ok (a, rest) →
    ∃ text, ts = text ++ rest ∧ ∀ rest', p (text ++ rest') = .ok (a, rest')

theorem Recognises.commits {shape : τ → κ} {p : TokenParser τ ε α} {L : List κ → α → Prop}
    (h : Recognises shape p L) : Commits p := by
  intro ts a rest hok
  obtain ⟨text, rfl, htext⟩ := (h ts a rest).mp hok
  exact ⟨text, rfl, fun rest' => (h _ a rest').mpr ⟨text, rfl, htext⟩⟩

theorem Commits.pure (a : α) : Commits (pure a : TokenParser τ ε α) := by
  intro ts b rest h
  obtain ⟨rfl, rfl⟩ := pure_ok.mp h
  exact ⟨[], rfl, fun _ => rfl⟩

theorem Commits.throws {p : TokenParser τ ε α} (h : ∀ ts, ∃ e, p ts = .error e) : Commits p := by
  intro ts a rest hok
  obtain ⟨e, he⟩ := h ts
  rw [he] at hok
  cases hok

theorem Commits.bind {p : TokenParser τ ε α} {f : α → TokenParser τ ε β} (hp : Commits p)
    (hf : ∀ a, Commits (f a)) : Commits (p >>= f) := by
  intro ts b rest h
  obtain ⟨a, mid, hok, hrest⟩ := bind_ok.mp h
  obtain ⟨front, rfl, hfront⟩ := hp ts a mid hok
  obtain ⟨back, rfl, hback⟩ := hf a mid b rest hrest
  refine ⟨front ++ back, by simp, fun rest' => ?_⟩
  rw [List.append_assoc, bind_of_ok (hfront _)]
  exact hback rest'

section

variable {body : Body τ ε σ} {stop : List τ → Bool} {close : σ → TokenParser τ ε α}

theorem loop_bind_of_stop {s : σ} {ts : List τ} (h : stop ts = true) :
    (body.loop stop s >>= close) ts = close s ts := bind_of_ok (Body.loop_of_stop h)

/-- A loop that does not stop, and what follows it. -/
theorem loop_bind_of_not_stop {s : σ} {ts : List τ} (h : stop ts = false) :
    (body.loop stop s >>= close) ts =
      (body.run s >>= fun s' => body.loop stop s' >>= close) ts := by
  cases hrun : body.run s ts with
  | error e =>
    have hloop : body.loop stop s ts = .error e := by
      rw [Body.loop_of_not_stop h]
      exact bind_of_error hrun
    rw [bind_of_error hloop, bind_of_error hrun]
  | ok result =>
    obtain ⟨s', mid⟩ := result
    have hloop : body.loop stop s ts = body.loop stop s' mid := by
      rw [Body.loop_of_not_stop h]
      exact bind_of_ok hrun
    rw [bind_of_ok hrun]
    show (body.loop stop s ts >>= fun x => close x.1 x.2) = _
    rw [hloop]
    rfl

/-- A loop that stops by the next token, in front of a parser that takes it. -/
theorem Commits.loop (hbody : ∀ s, Commits (body.run s)) (hclose : ∀ s, Commits (close s))
    (hshrinks : ∀ s, Shrinks (close s))
    (hstop : ∀ ts ts' : List τ, ts'.head? = ts.head? → stop ts' = stop ts) (s : σ) :
    Commits (body.loop stop s >>= close) := by
  intro ts a rest hok
  -- on what is left, which the body shrinks
  induction hn : ts.length using Nat.strongRecOn generalizing ts s with
  | ind n ih =>
    have hhead : ∀ {text mid : List τ}, ts = text ++ mid → text ≠ [] → ∀ rest',
        stop (text ++ rest') = stop ts := by
      intro text mid hts htext rest'
      rw [hts]
      exact hstop _ _ (head?_append_left htext _ _)
    cases hts : stop ts with
    | true =>
      rw [loop_bind_of_stop hts] at hok
      obtain ⟨text, rfl, hrun⟩ := hclose s ts a rest hok
      have htext : text ≠ [] := by
        rintro rfl
        exact absurd (hshrinks s _ a _ hok) (by simp)
      refine ⟨text, rfl, fun rest' => ?_⟩
      rw [loop_bind_of_stop ((hhead rfl htext rest').trans hts)]
      exact hrun rest'
    | false =>
      rw [loop_bind_of_not_stop hts] at hok
      obtain ⟨s', mid, hrun, hrest⟩ := bind_ok.mp hok
      have hless := body.shrinks s ts s' mid hrun
      obtain ⟨front, rfl, hfront⟩ := hbody s ts s' mid hrun
      obtain ⟨back, rfl, hback⟩ := ih mid.length (hn ▸ hless) s' mid hrest rfl
      have htext : front ≠ [] := by
        rintro rfl
        simp at hless
      refine ⟨front ++ back, by simp, fun rest' => ?_⟩
      rw [List.append_assoc, loop_bind_of_not_stop ((hhead rfl htext _).trans hts),
        bind_of_ok (hfront _)]
      exact hback rest'

end

/-- What there is to know of a grammar in which any word may stand for a name, in the
    places where a closing token may stand too. -/
structure ErrorRules (τ ε : Type) where
  /-- An error that is thrown when these tokens are left. -/
  thrown : List τ → ε → Prop
  /-- An error of another kind. -/
  other : ε → Prop
  word : τ → Prop
  closes : τ → Prop

namespace ErrorRules

variable (R : ErrorRules τ ε)

/-- A name may stand at the beginning: the parser is one for what a name begins, or a
    closing token may stand there. -/
def Opens (named : Prop) (p : TokenParser τ ε α) : Prop := named ∨ ∃ c, R.closes c ∧ GoesOn p [c]

/-- The parser takes these tokens: they go on to an input, but for a last word that stands
    for a name. -/
inductive Takes (named : Prop) (p : TokenParser τ ε α) : List τ → Prop where
  | goesOn {front : List τ} (h : GoesOn p front) : Takes named p front
  | first {t : τ} (hword : R.word t) (h : R.Opens named p) : Takes named p [t]
  | name {before : List τ} {t c : τ} (hbefore : before ≠ []) (hword : R.word t)
      (hcloses : R.closes c) (h : GoesOn p (before ++ [c])) : Takes named p (before ++ [t])

/-- The parser takes `front`, and not the next token. -/
structure StuckAt (named : Prop) (p : TokenParser τ ε α) (front rest : List τ) : Prop where
  taken : front ≠ [] → R.Takes named p front
  next : ∀ t ∈ rest.head?, ¬ R.Takes named p (front ++ [t])

/-- On this input the parser throws no error, or another one, or where it is stuck. -/
def SticksAt (named : Prop) (p : TokenParser τ ε α) (ts : List τ) : Prop :=
  ∀ e, p ts = .error e → R.other e ∨
    ∃ front rest, ts = front ++ rest ∧ R.thrown rest e ∧ R.StuckAt named p front rest

/-- **Errors are thrown where the parser is stuck.** -/
def Sticks (named : Prop) (p : TokenParser τ ε α) : Prop := ∀ ts, R.SticksAt named p ts

variable {R} {named named' : Prop} {p q : TokenParser τ ε α}

/-- How a last token is taken: as it is, or as a word that stands for a name. -/
theorem Takes.last {front : List τ} {t : τ} (h : R.Takes named p (front ++ [t])) :
    GoesOn p (front ++ [t]) ∨ R.word t ∧ (front = [] ∧ R.Opens named p ∨
      front ≠ [] ∧ ∃ c, R.closes c ∧ GoesOn p (front ++ [c])) := by
  generalize hx : front ++ [t] = x at h
  cases h with
  | goesOn hgo => exact .inl hgo
  | first hword hopen =>
    obtain ⟨rfl, ht⟩ := List.append_inj' (hx.trans (List.nil_append _).symm) rfl
    obtain rfl := (List.cons.inj ht).1
    exact .inr ⟨hword, .inl ⟨rfl, hopen⟩⟩
  | name hbefore hword hcloses hgo =>
    obtain ⟨rfl, ht⟩ := List.append_inj' hx rfl
    obtain rfl := (List.cons.inj ht).1
    exact .inr ⟨hword, .inr ⟨hbefore, _, hcloses, hgo⟩⟩

/-- A parser that does the same on every input that begins like this one. -/
theorem StuckAt.agree {front rest : List τ} (h : R.StuckAt named p front rest)
    (hagree : ∀ ts', ts'.head? = (front ++ rest).head? → q ts' = p ts')
    (hopens : R.Opens named p → R.Opens named' q)
    (hfirst : ∀ t ∈ (front ++ rest).head?, R.word t → R.Opens named' q → R.Takes named p [t]) :
    R.StuckAt named' q front rest := by
  -- what begins with the first token goes on alike for both
  have hgoes : ∀ x, x ≠ [] → x.head? = (front ++ rest).head? → (GoesOn q x ↔ GoesOn p x) := by
    intro x hx hhead
    unfold GoesOn
    have hsame : ∀ more, q (x ++ more) = p (x ++ more) := by
      intro more
      have hmore := head?_append_left hx [] more
      rw [List.append_nil] at hmore
      exact hagree _ (hmore.trans hhead)
    simp only [hsame]
  constructor
  · intro hne
    cases h.taken hne with
    | goesOn hgo =>
      have hhead := head?_append_left hne [] rest
      rw [List.append_nil] at hhead
      exact .goesOn ((hgoes front hne hhead.symm).mpr hgo)
    | first hword hopen => exact .first hword (hopens hopen)
    | name hbefore hword hcloses hgo =>
      refine .name hbefore hword hcloses ((hgoes _ (by simp) ?_).mpr hgo)
      rw [List.append_assoc]
      exact head?_append_left hbefore _ _
  · intro t ht htakes
    obtain ⟨rest, rfl⟩ := List.head?_eq_some_iff.mp ht
    have hhead : ∀ y : τ, front ≠ [] → (front ++ [y]).head? = (front ++ t :: rest).head? :=
      fun y hne => head?_append_left hne _ _
    rcases htakes.last with hgo | ⟨hword, ⟨rfl, hopen⟩ | ⟨hne, c, hcloses, hgo⟩⟩
    · refine h.next t ht (.goesOn ((hgoes _ (by simp) ?_).mp hgo))
      by_cases hne : front = []
      · rw [hne]
        rfl
      · exact hhead t hne
    · exact h.next _ ht (hfirst _ rfl hword hopen)
    · exact h.next t ht (.name hne hword hcloses ((hgoes _ (by simp) (hhead _ hne)).mp hgo))

/-! ## Rules -/

theorem Sticks.pure (a : α) : R.Sticks named (pure a : TokenParser τ ε α) := by
  intro ts e h
  cases h

/-- A parser that always throws. -/
theorem Sticks.throws (h : ∀ ts, ∃ e, p ts = .error e ∧ R.thrown ts e) : R.Sticks False p := by
  have hnever : ∀ x, ¬ GoesOn p x := by
    rintro x ⟨more, a, hok⟩
    obtain ⟨e, he, -⟩ := h (x ++ more)
    rw [he] at hok
    cases hok
  intro ts e he
  obtain ⟨e', he', hthrown⟩ := h ts
  obtain rfl := Except.error.inj (he.symm.trans he')
  refine .inr ⟨[], ts, rfl, hthrown, fun hne => absurd rfl hne, fun t _ htakes => ?_⟩
  rcases htakes.last with hgo | ⟨-, ⟨-, hopen⟩ | ⟨-, c, -, hgo⟩⟩
  · exact hnever _ hgo
  · obtain ⟨c, -, hgo⟩ := hopen.resolve_left id
    exact hnever _ hgo
  · exact hnever _ hgo

/-- A parser of one token, which may refuse it with an error of another kind. -/
theorem Sticks.token {accepts : τ → Prop}
    (hbad : ∀ ts, (∀ t ∈ ts.head?, ¬ accepts t) → ∃ e, p ts = .error e ∧ R.thrown ts e)
    (hgood : ∀ t rest e, accepts t → p (t :: rest) = .error e → R.other e)
    (hclose : ∀ c, R.closes c → ¬ accepts c) : R.Sticks False p := by
  have haccepts : ∀ t, GoesOn p [t] → accepts t := by
    rintro t ⟨more, a, hok⟩
    by_contra hnot
    obtain ⟨e, he, -⟩ := hbad (t :: more) fun t' ht' => by
      obtain rfl := Option.some.inj ht'
      exact hnot
    exact absurd (he.symm.trans hok) (by simp)
  intro ts e he
  by_cases hnone : ∀ t ∈ ts.head?, ¬ accepts t
  case neg =>
    push Not at hnone
    obtain ⟨t, ht, hyes⟩ := hnone
    obtain ⟨rest, rfl⟩ := List.head?_eq_some_iff.mp ht
    -- the token is the right one, and what it says is refused
    exact .inl (hgood t rest e hyes he)
  obtain ⟨e', he', hthrown⟩ := hbad ts hnone
  obtain rfl := Except.error.inj (he.symm.trans he')
  refine .inr ⟨[], ts, rfl, hthrown, fun hne => absurd rfl hne, fun t ht htakes => ?_⟩
  rcases htakes.last with hgo | ⟨-, ⟨-, hopen⟩ | ⟨hne, -⟩⟩
  · exact hnone t ht (haccepts t hgo)
  · obtain ⟨c, hcloses, hgo⟩ := hopen.resolve_left id
    exact hclose c hcloses (haccepts c hgo)
  · exact hne rfl

section

variable {f : α → TokenParser τ ε β} {ts : List τ}

/-- A sequence goes on where its first part does. -/
theorem goesOn_bind (hcommits : Commits p) (hgo : ∀ ts a mid, p ts = .ok (a, mid) → GoesOn (f a) [])
    {front : List τ} (h : GoesOn p front) : GoesOn (p >>= f) front := by
  obtain ⟨more, a, hok⟩ := h
  obtain ⟨text, htext, hrun⟩ := hcommits _ a _ hok
  obtain ⟨more', b, hb⟩ := hgo _ a _ hok
  refine ⟨more ++ more', b, ?_⟩
  rw [← List.append_assoc, htext, List.append_nil, bind_of_ok (hrun more')]
  exact hb

/-- Where the first part throws, only what the first part takes goes on. -/
theorem goesOn_of_bind (hcommits : Commits p) {front rest : List τ} {e : ε}
    (he : p (front ++ rest) = .error e) {t : τ} (h : GoesOn (p >>= f) (front ++ [t])) :
    GoesOn p (front ++ [t]) := by
  obtain ⟨more, b, hok⟩ := h
  obtain ⟨a, mid, hfirst, -⟩ := bind_ok.mp hok
  obtain ⟨text, htext, hrun⟩ := hcommits _ a _ hfirst
  rw [List.append_assoc] at htext
  rcases List.append_eq_append_iff.mp htext with ⟨u, rfl, hu⟩ | ⟨u, rfl, -⟩
  · -- the text contains the next token
    cases u with
    | nil =>
      have hrest := hrun rest
      rw [List.append_nil, he] at hrest
      cases hrest
    | cons t' u =>
      obtain ⟨rfl, -⟩ := List.cons.inj hu
      refine ⟨u, a, ?_⟩
      have hwhole := hrun []
      rwa [List.append_nil, List.append_cons] at hwhole
  · -- without the next token it would not have thrown
    have hrest := hrun (u ++ rest)
    rw [← List.append_assoc, he] at hrest
    cases hrest

/-- The first part is stuck. -/
theorem SticksAt.first (hcommits : Commits p) (hp : R.SticksAt named p ts)
    (hgo : ∀ ts a mid, p ts = .ok (a, mid) → GoesOn (f a) []) {e : ε} (he : p ts = .error e) :
    R.other e ∨ ∃ front rest, ts = front ++ rest ∧ R.thrown rest e ∧
      R.StuckAt named (p >>= f) front rest := by
  rcases hp e he with hother | ⟨front, rest, rfl, hthrown, hstuck⟩
  · exact .inl hother
  have hback : ∀ t : τ, GoesOn (p >>= f) (front ++ [t]) → GoesOn p (front ++ [t]) :=
    fun t => goesOn_of_bind hcommits he
  refine .inr ⟨front, rest, rfl, hthrown, fun hne => ?_, fun t ht htakes => hstuck.next t ht ?_⟩
  · have htaken := hstuck.taken hne
    cases htaken with
    | goesOn hgoes => exact .goesOn (goesOn_bind hcommits hgo hgoes)
    | first hword hopen =>
      refine .first hword (hopen.imp id ?_)
      rintro ⟨c, hcloses, hgoes⟩
      exact ⟨c, hcloses, goesOn_bind hcommits hgo hgoes⟩
    | name hbefore hword hcloses hgoes =>
      exact .name hbefore hword hcloses (goesOn_bind hcommits hgo hgoes)
  · rcases htakes.last with hgoes | ⟨hword, ⟨rfl, hopen⟩ | ⟨hne, c, hcloses, hgoes⟩⟩
    · exact .goesOn (hback t hgoes)
    · refine .first hword (hopen.imp id ?_)
      rintro ⟨c, hcloses, hgoes⟩
      exact ⟨c, hcloses, hback c hgoes⟩
    · exact .name hne hword hcloses (hback _ hgoes)

/-- The second part is stuck, behind a text of the first. -/
theorem SticksAt.second (hcommits : Commits p) (hshrinks : Shrinks p) {a : α} {mid : List τ}
    (hok : p ts = .ok (a, mid)) (hf : R.SticksAt False (f a) mid)
    (htaken : ∀ text, ts = text ++ mid → R.Takes named (p >>= f) text) {e : ε}
    (he : f a mid = .error e) :
    R.other e ∨ ∃ front rest, ts = front ++ rest ∧ R.thrown rest e ∧
      R.StuckAt named (p >>= f) front rest := by
  rcases hf e he with hother | ⟨front, rest, rfl, hthrown, hstuck⟩
  · exact .inl hother
  obtain ⟨text, rfl, hrun⟩ := hcommits _ a _ hok
  have htext : text ≠ [] := by
    rintro rfl
    exact absurd (hshrinks _ a _ hok) (by simp)
  -- behind the text of the first part it is up to the second
  have hgoes : ∀ x, GoesOn (p >>= f) (text ++ x) ↔ GoesOn (f a) x := by
    intro x
    unfold GoesOn
    simp only [List.append_assoc, bind_of_ok (hrun _)]
  refine .inr ⟨text ++ front, rest, (List.append_assoc _ _ _).symm, hthrown, fun _ => ?_,
    fun t ht htakes => hstuck.next t ht ?_⟩
  · by_cases hfront : front = []
    · rw [hfront, List.append_nil]
      exact htaken text rfl
    · have htakes := hstuck.taken hfront
      cases htakes with
      | goesOn h => exact .goesOn ((hgoes _).mpr h)
      | first hword hopen =>
        obtain ⟨c, hcloses, h⟩ := hopen.resolve_left id
        exact .name htext hword hcloses ((hgoes _).mpr h)
      | name hbefore hword hcloses h =>
        rw [← List.append_assoc]
        refine .name (by simp [htext]) hword hcloses ?_
        rw [List.append_assoc]
        exact (hgoes _).mpr h
  · rcases htakes.last with h | ⟨hword, ⟨hnil, -⟩ | ⟨-, c, hcloses, h⟩⟩
    · rw [List.append_assoc] at h
      exact .goesOn ((hgoes _).mp h)
    · exact absurd (List.append_eq_nil_iff.mp hnil).1 htext
    · rw [List.append_assoc] at h
      by_cases hfront : front = []
      · rw [hfront] at h ⊢
        exact .first hword (.inr ⟨_, hcloses, (hgoes _).mp h⟩)
      · exact .name hfront hword hcloses ((hgoes _).mp h)

/-- **Sequence**, at one input. -/
theorem SticksAt.bind (hcommits : Commits p) (hshrinks : Shrinks p) (hp : R.SticksAt named p ts)
    (hf : ∀ a mid, p ts = .ok (a, mid) → R.SticksAt False (f a) mid)
    (hgo : ∀ ts a mid, p ts = .ok (a, mid) → GoesOn (f a) []) : R.SticksAt named (p >>= f) ts := by
  intro e he
  rcases bind_error.mp he with he | ⟨a, mid, hok, he⟩
  · exact hp.first hcommits hgo he
  · refine (hf a mid hok).second hcommits hshrinks hok (fun text htext => ?_) he
    obtain ⟨text', htext', hrun⟩ := hcommits ts a mid hok
    obtain rfl := List.append_cancel_right (htext.symm.trans htext')
    obtain ⟨more, b, hb⟩ := hgo ts a mid hok
    exact .goesOn ⟨more, b, (bind_of_ok (hrun more)).trans hb⟩

/-- **Names**: any word may stand first, and only some go on. -/
theorem Sticks.names (hcommits : Commits p) (hshrinks : Shrinks p)
    (hbad : ∀ ts, (∀ t ∈ ts.head?, ¬ R.word t) → ∃ e, p ts = .error e ∧ R.thrown ts e)
    (hgood : ∀ t rest, R.word t → ∃ a, p (t :: rest) = .ok (a, rest))
    (hf : ∀ a, R.Sticks False (f a)) : R.Sticks True (p >>= f) := by
  intro ts e he
  rcases bind_error.mp he with he | ⟨a, mid, hok, he⟩
  · have hnone : ∀ t ∈ ts.head?, ¬ R.word t := by
      intro t ht hword
      obtain ⟨rest, rfl⟩ := List.head?_eq_some_iff.mp ht
      obtain ⟨a, hok⟩ := hgood t rest hword
      exact absurd (he.symm.trans hok) (by simp)
    obtain ⟨e', he', hthrown⟩ := hbad ts hnone
    obtain rfl := Except.error.inj (he.symm.trans he')
    refine .inr ⟨[], ts, rfl, hthrown, fun hne => absurd rfl hne, fun t ht htakes => hnone t ht ?_⟩
    rcases htakes.last with hgo | ⟨hword, -⟩
    · obtain ⟨more, b, hrun⟩ := hgo
      by_contra hword
      obtain ⟨e', he', -⟩ := hbad (t :: more) fun t' ht' => by
        obtain rfl := Option.some.inj ht'
        exact hword
      rw [List.nil_append, List.singleton_append, bind_of_error he'] at hrun
      cases hrun
    · exact hword
  · refine (hf a mid).second hcommits hshrinks hok (fun text htext => ?_) he
    -- the text is the word
    subst htext
    cases text with
    | nil => exact absurd (hshrinks _ a _ hok) (by simp)
    | cons t text =>
      have hword : R.word t := by
        by_contra hnot
        obtain ⟨e', he', -⟩ := hbad (t :: text ++ mid) fun t' ht' => by
          obtain rfl := Option.some.inj ht'
          exact hnot
        rw [he'] at hok
        cases hok
      obtain ⟨b, hb⟩ := hgood t (text ++ mid) hword
      have hrest := (Prod.mk.inj (Except.ok.inj (hok.symm.trans hb))).2
      obtain rfl : text = [] := by simpa using hrest
      exact .first hword (.inl trivial)

end

theorem not_goesOn_of_error {t : τ} (h : ∀ more, ∃ e, p (t :: more) = .error e) : ¬ GoesOn p [t] := by
  rintro ⟨more, a, hok⟩
  obtain ⟨e, he⟩ := h more
  exact absurd (he.symm.trans hok) (by simp)

/-- **Choice** on the next token, of which neither part begins with a closing one. -/
theorem Sticks.choice {guard : List τ → Bool} {named₁ named₂ : Prop} (hp : R.Sticks named₁ p)
    (hq : R.Sticks named₂ q)
    (hguard : ∀ ts ts' : List τ, ts'.head? = ts.head? → guard ts' = guard ts)
    (hcloses : ∀ c more, R.closes c → (∃ e, p (c :: more) = .error e) ∧ ∃ e, q (c :: more) = .error e)
    (hp' : named₁ → named) (hq' : named₂ → named)
    (hpFirst : named → ∀ t more, R.word t → guard (t :: more) = true → R.Takes named₁ p [t])
    (hqFirst : named → ∀ t more, R.word t → guard (t :: more) = false → R.Takes named₂ q [t]) :
    R.Sticks named (fun ts => if guard ts then p ts else q ts) := by
  have hnever : ¬ ∃ c, R.closes c ∧ GoesOn (fun ts => if guard ts then p ts else q ts) [c] := by
    rintro ⟨c, hc, hgo⟩
    refine not_goesOn_of_error (fun more => ?_) hgo
    split
    · exact (hcloses c more hc).1
    · exact (hcloses c more hc).2
  intro ts e he
  dsimp only at he
  -- the part that is chosen is chosen on every input that begins like this one
  have hpart : ∀ {named' : Prop} {r : TokenParser τ ε α} {value : Bool},
      R.SticksAt named' r ts → guard ts = value →
      (∀ ts', guard ts' = value → (if guard ts' then p ts' else q ts') = r ts') →
      (named' → named) → (∀ c more, R.closes c → ∃ e, r (c :: more) = .error e) →
      (named → ∀ t more, R.word t → guard (t :: more) = value → R.Takes named' r [t]) →
      R.SticksAt named (fun ts => if guard ts then p ts else q ts) ts := by
    intro named' r value hr hts hsame himp hclosesPart hfirst e he
    have he : (if guard ts then p ts else q ts) = .error e := he
    rw [hsame ts hts] at he
    rcases hr e he with hother | ⟨front, rest, rfl, hthrown, hstuck⟩
    · exact .inl hother
    refine .inr ⟨front, rest, rfl, hthrown, hstuck.agree (fun ts' hts' => ?_) (fun hopen => ?_)
      fun t ht hword hopen => ?_⟩
    · exact hsame ts' ((hguard _ _ hts').trans hts)
    · rcases hopen with hnamed | ⟨c, hc, hgo⟩
      · exact .inl (himp hnamed)
      · exact absurd hgo (not_goesOn_of_error fun more => hclosesPart c more hc)
    · obtain ⟨more, hmore⟩ := List.head?_eq_some_iff.mp ht
      rw [hmore] at hts
      exact hfirst (hopen.resolve_right hnever) t more hword hts
  cases hts : guard ts with
  | true =>
    exact hpart (hp ts) hts (fun ts' h => if_pos h) hp' (fun c more hc => (hcloses c more hc).1)
      hpFirst e he
  | false =>
    exact hpart (hq ts) hts (fun ts' h => if_neg (by simp [h])) hq'
      (fun c more hc => (hcloses c more hc).2) hqFirst e he

section

variable {body : Body τ ε σ} {stop : List τ → Bool} {close : σ → TokenParser τ ε α}

/-- **Loops** with what follows them, when the loop stops by the next token, its body does
    not begin with a closing one, and names may stand where the loop may end. -/
theorem Sticks.loop (hcommits : ∀ s, Commits (body.run s)) (hbody : ∀ s, R.Sticks named (body.run s))
    (hstop : ∀ ts ts' : List τ, ts'.head? = ts.head? → stop ts' = stop ts)
    (hgo : ∀ s, GoesOn (body.loop stop s >>= close) [])
    (hend : ∀ s ts, stop ts = true → R.SticksAt False (body.loop stop s >>= close) ts)
    (hopens : ∀ s, R.Opens False (body.loop stop s >>= close) ↔ named)
    (hcloses : ∀ s c more, R.closes c → ∃ e, body.run s (c :: more) = .error e) (s : σ) :
    R.Sticks False (body.loop stop s >>= close) := by
  intro ts
  -- on what is left, which the body shrinks
  induction hn : ts.length using Nat.strongRecOn generalizing ts s with
  | ind n ih =>
    cases hts : stop ts with
    | true => exact hend s ts hts
    | false =>
      have hstep : R.SticksAt named (body.run s >>= fun s' => body.loop stop s' >>= close) ts :=
        (hbody s ts).bind (hcommits s) (body.shrinks s)
          (fun s' mid hrun => ih mid.length (hn ▸ body.shrinks s ts s' mid hrun) s' mid rfl)
          fun _ s' _ _ => hgo s'
      intro e he
      rw [loop_bind_of_not_stop hts] at he
      rcases hstep e he with hother | ⟨front, rest, rfl, hthrown, hstuck⟩
      · exact .inl hother
      refine .inr ⟨front, rest, rfl, hthrown, hstuck.agree (fun ts' hts' => ?_) (fun hopen => ?_)
        fun t _ hword hopen => .first hword (.inl ((hopens s).mp hopen))⟩
      · exact loop_bind_of_not_stop ((hstop _ _ hts').trans hts)
      · rcases hopen with hnamed | ⟨c, hc, hgoes⟩
        · exact (hopens s).mpr hnamed
        · refine absurd hgoes (not_goesOn_of_error fun more => ?_)
          obtain ⟨e', he'⟩ := hcloses s c more hc
          exact ⟨e', bind_of_error he'⟩

/-- Where a loop stops, which it does at every closing token, its end is stuck. -/
theorem SticksAt.closed {s : σ} {ts : List τ} (hclose : R.SticksAt False (close s) ts)
    (hstop : ∀ ts ts' : List τ, ts'.head? = ts.head? → stop ts' = stop ts)
    (hcloses : ∀ c more, R.closes c → stop (c :: more) = true) (hts : stop ts = true) :
    R.SticksAt False (body.loop stop s >>= close) ts := by
  intro e he
  rw [loop_bind_of_stop hts] at he
  have hgoes : ∀ c, R.closes c →
      (GoesOn (body.loop stop s >>= close) [c] ↔ GoesOn (close s) [c]) := by
    intro c hc
    unfold GoesOn
    simp only [List.singleton_append, loop_bind_of_stop (hcloses c _ hc)]
  rcases hclose e he with hother | ⟨front, rest, rfl, hthrown, hstuck⟩
  · exact .inl hother
  refine .inr ⟨front, rest, rfl, hthrown, hstuck.agree (fun ts' hts' => ?_) (fun hopen => ?_)
    fun t _ hword hopen => .first hword ?_⟩
  · exact loop_bind_of_stop ((hstop _ _ hts').trans hts)
  · obtain ⟨c, hc, hgo⟩ := hopen.resolve_left id
    exact .inr ⟨c, hc, (hgoes c hc).mpr hgo⟩
  · obtain ⟨c, hc, hgo⟩ := hopen.resolve_left id
    exact .inr ⟨c, hc, (hgoes c hc).mp hgo⟩

end

/-- A part of the grammar that has inputs, and reports its errors. -/
structure Reports (R : ErrorRules τ ε) (p : TokenParser τ ε α) : Prop where
  commits : Commits p
  sticks : R.Sticks False p
  goesOn : GoesOn p []

theorem Reports.pure (a : α) : R.Reports (pure a : TokenParser τ ε α) :=
  ⟨Commits.pure a, Sticks.pure a, [], a, rfl⟩

/-- **Sequence.** -/
theorem Reports.bind {f : α → TokenParser τ ε β} (hp : R.Reports p) (hshrinks : Shrinks p)
    (hf : ∀ a, R.Reports (f a)) : R.Reports (p >>= f) where
  commits := hp.commits.bind fun a => (hf a).commits
  sticks := fun ts => (hp.sticks ts).bind hp.commits hshrinks (fun a mid _ => (hf a).sticks mid)
    fun _ a _ _ => (hf a).goesOn
  goesOn := goesOn_bind hp.commits (fun _ a _ _ => (hf a).goesOn) hp.goesOn

/-- **Loops** up to a token at which they stop. -/
theorem Reports.loop {body : Body τ ε σ} {stop : List τ → Bool} {close : σ → TokenParser τ ε α}
    (hcommits : ∀ s, Commits (body.run s)) (hbody : ∀ s, R.Sticks named (body.run s))
    (hclose : ∀ s, Commits (close s)) (hshrinks : ∀ s, Shrinks (close s))
    (hend : ∀ s ts, stop ts = true → R.SticksAt False (close s) ts)
    (hstop : ∀ ts ts' : List τ, ts'.head? = ts.head? → stop ts' = stop ts)
    (hstops : ∀ c more, R.closes c → stop (c :: more) = true)
    (hcloses : ∀ s c more, R.closes c → ∃ e, body.run s (c :: more) = .error e)
    (hlast : ∀ s, ∃ more a, stop more = true ∧ close s more = .ok (a, []))
    (hopens : ∀ s, R.Opens False (close s) ↔ named) (s : σ) :
    R.Reports (body.loop stop s >>= close) := by
  have hgo : ∀ s, GoesOn (body.loop stop s >>= close) [] := by
    intro s
    obtain ⟨more, a, hmore, hok⟩ := hlast s
    exact ⟨more, a, (loop_bind_of_stop hmore).trans hok⟩
  refine ⟨Commits.loop hcommits hclose hshrinks hstop s, ?_, hgo s⟩
  refine Sticks.loop hcommits hbody hstop hgo (fun s ts hts => ?_) (fun s => ?_) hcloses s
  · exact SticksAt.closed (hend s ts hts) hstop hstops hts
  · rw [← hopens s]
    refine or_congr Iff.rfl (exists_congr fun c => and_congr_right fun hc => ?_)
    unfold GoesOn
    simp only [List.singleton_append, loop_bind_of_stop (hstops c _ hc)]

end ErrorRules

/-! ## Texts That Throw -/

section

variable {wrap : γ → ε} {p : TokenParser τ ε α}

/-- The parser throws no error of a kind. -/
def Quiet (wrap : γ → ε) (p : TokenParser τ ε α) : Prop := ∀ ts c, p ts ≠ .error (wrap c)

theorem Quiet.pure (a : α) : Quiet wrap (pure a : TokenParser τ ε α) := by
  intro ts c h
  cases h

theorem Quiet.bind {f : α → TokenParser τ ε β} (hp : Quiet wrap p) (hf : ∀ a, Quiet wrap (f a)) :
    Quiet wrap (p >>= f) := by
  intro ts c h
  rcases bind_error.mp h with h | ⟨a, mid, -, h⟩
  · exact hp ts c h
  · exact hf a mid c h

theorem Body.loop_error {body : Body τ ε σ} {stop : List τ → Bool} {s : σ} {ts : List τ} {e : ε} :
    body.loop stop s ts = .error e ↔ stop ts = false ∧ (body.run s ts = .error e ∨
      ∃ s₁ mid, body.run s ts = .ok (s₁, mid) ∧ body.loop stop s₁ mid = .error e) := by
  cases hstop : stop ts with
  | true =>
    rw [loop_of_stop hstop]
    simp
  | false =>
    rw [loop_of_not_stop hstop, bind_error]
    simp

theorem Quiet.loop {body : Body τ ε σ} (hbody : ∀ s, Quiet wrap (body.run s))
    (stop : List τ → Bool) (s : σ) : Quiet wrap (body.loop stop s) := by
  intro ts c h
  induction hn : ts.length using Nat.strongRecOn generalizing ts s with
  | ind n ih =>
    rcases (Body.loop_error.mp h).2 with h | ⟨s₁, mid, hrun, h⟩
    · exact hbody s ts c h
    · exact ih mid.length (hn ▸ body.shrinks s ts s₁ mid hrun) s₁ mid h rfl

variable (shape : τ → κ)

/-- The parser throws an error of a kind exactly on the inputs that begin with certain texts. -/
def Throws (wrap : γ → ε) (p : TokenParser τ ε α) (R : List κ → γ → Prop) : Prop :=
  ∀ ts c, p ts = .error (wrap c) ↔ ∃ text rest, ts = text ++ rest ∧ R (text.map shape) c

variable {shape}

theorem Throws.congr {R S : List κ → γ → Prop} (h : Throws shape wrap p R)
    (hRS : ∀ text c, R text c ↔ S text c) : Throws shape wrap p S := by
  intro ts c
  rw [h ts c]
  simp only [hRS]

theorem Quiet.throws (h : Quiet wrap p) : Throws shape wrap p fun _ _ => False := by
  intro ts c
  constructor
  · exact fun hthrow => absurd hthrow (h ts c)
  · intro hfalse
    obtain ⟨-, -, -, hfalse⟩ := hfalse
    exact hfalse.elim

/-- **Sequence**: the first parser throws, or the second one behind a text of the first. -/
theorem Throws.bind {f : α → TokenParser τ ε β} {L : List κ → α → Prop} {R : List κ → γ → Prop}
    {S : α → List κ → γ → Prop} (hp : Recognises shape p L) (hR : Throws shape wrap p R)
    (hf : ∀ a, Throws shape wrap (f a) (S a)) :
    Throws shape wrap (p >>= f) fun text c => R text c ∨
      ∃ front back a, text = front ++ back ∧ L front a ∧ S a back c := by
  intro ts c
  rw [bind_error]
  constructor
  · intro h
    rcases h with h | ⟨a, mid, hok, h⟩
    · obtain ⟨text, rest, rfl, htext⟩ := (hR ts c).mp h
      exact ⟨text, rest, rfl, .inl htext⟩
    · obtain ⟨front, rfl, hfront⟩ := (hp ts a mid).mp hok
      obtain ⟨back, rest, rfl, hback⟩ := (hf a mid c).mp h
      exact ⟨front ++ back, rest, by simp, .inr ⟨_, _, a, by simp, hfront, hback⟩⟩
  · intro h
    obtain ⟨text, rest, rfl, hthrow | ⟨front, back, a, htext, hfront, hback⟩⟩ := h
    · exact .inl ((hR _ c).mpr ⟨text, rest, rfl, hthrow⟩)
    · obtain ⟨front, back, rfl, rfl, rfl⟩ := List.map_eq_append_iff.mp htext
      refine .inr ⟨a, back ++ rest, ?_, ?_⟩
      · exact (hp _ _ _).mpr ⟨front, by simp, hfront⟩
      · exact (hf a _ c).mpr ⟨back, rest, rfl, hback⟩

/-- Behind a quiet parser only the second one throws. -/
theorem Quiet.bind_throws {f : α → TokenParser τ ε β} {L : List κ → α → Prop}
    {S : α → List κ → γ → Prop} (hp : Recognises shape p L) (hquiet : Quiet wrap p)
    (hf : ∀ a, Throws shape wrap (f a) (S a)) :
    Throws shape wrap (p >>= f) fun text c =>
      ∃ front back a, text = front ++ back ∧ L front a ∧ S a back c := by
  refine (Throws.bind hp hquiet.throws hf).congr fun text c => ?_
  simp

/-- A quiet continuation throws nothing more. -/
theorem Throws.bind_quiet {f : α → TokenParser τ ε β} {R : List κ → γ → Prop}
    (hR : Throws shape wrap p R) (hf : ∀ a, Quiet wrap (f a)) : Throws shape wrap (p >>= f) R := by
  intro ts c
  rw [bind_error, ← hR ts c]
  constructor
  · intro h
    rcases h with h | ⟨a, mid, -, h⟩
    · exact h
    · exact absurd h (hf a mid c)
  · exact .inl

/-- **Choice** on the next token. -/
theorem Throws.choice {q : TokenParser τ ε α} {guard : List τ → Bool} {first : κ → Bool}
    {R S : List κ → γ → Prop} (hp : Throws shape wrap p R) (hq : Throws shape wrap q S)
    (hR : ∀ c, ¬ R [] c) (hS : ∀ c, ¬ S [] c)
    (hguard : ∀ t ts, guard (t :: ts) = first (shape t)) :
    Throws shape wrap (fun ts => if guard ts then p ts else q ts) fun text c =>
      ∃ k back, text = k :: back ∧ if first k then R text c else S text c := by
  intro ts c
  dsimp only
  constructor
  · intro h
    split at h
    · next hts =>
      obtain ⟨text, rest, rfl, htext⟩ := (hp ts c).mp h
      cases text with
      | nil => exact absurd htext (hR c)
      | cons t text =>
        rw [List.cons_append, hguard] at hts
        exact ⟨t :: text, rest, rfl, _, _, rfl, by rwa [if_pos hts]⟩
    · next hts =>
      obtain ⟨text, rest, rfl, htext⟩ := (hq ts c).mp h
      cases text with
      | nil => exact absurd htext (hS c)
      | cons t text =>
        rw [List.cons_append, hguard] at hts
        exact ⟨t :: text, rest, rfl, _, _, rfl, by rwa [if_neg hts]⟩
  · intro h
    obtain ⟨text, rest, rfl, k, back, htext, hchoice⟩ := h
    obtain ⟨t, text, rfl, rfl, rfl⟩ := List.map_eq_cons_iff.mp htext
    rw [List.cons_append, hguard]
    split at hchoice
    · next hk =>
      rw [if_pos hk]
      exact (hp _ c).mpr ⟨t :: text, rest, rfl, hchoice⟩
    · next hk =>
      rw [if_neg hk]
      exact (hq _ c).mpr ⟨t :: text, rest, rfl, hchoice⟩

/-- **Loops**: the body throws after some iterations. -/
theorem Throws.loop {body : Body τ ε σ} {stop : List τ → Bool} {B : σ → List κ → σ → Prop}
    {R : List κ → γ → Prop} (hbody : ∀ s, Recognises shape (body.run s) (B s))
    (hR : ∀ s, Throws shape wrap (body.run s) R)
    (hgo : ∀ s text rest s', B s (text.map shape) s' → stop (text ++ rest) = false)
    (hgoR : ∀ text rest c, R (text.map shape) c → stop (text ++ rest) = false) (s : σ) :
    Throws shape wrap (body.loop stop s) fun text c =>
      ∃ front back s₁, text = front ++ back ∧ Iterations B s front s₁ ∧ R back c := by
  intro ts c
  constructor
  · intro h
    -- on what is left, as in the rule about texts that are accepted
    induction hn : ts.length using Nat.strongRecOn generalizing ts s with
    | ind n ih =>
      obtain ⟨-, hbodyError | ⟨s₁, mid, hrun, hloop⟩⟩ := Body.loop_error.mp h
      · obtain ⟨text, rest, rfl, htext⟩ := (hR s ts c).mp hbodyError
        exact ⟨text, rest, rfl, [], _, s, rfl, .done s, htext⟩
      · have hless := body.shrinks s ts s₁ mid hrun
        obtain ⟨text, rfl, htext⟩ := (hbody s ts s₁ mid).mp hrun
        obtain ⟨texts, rest, rfl, front, back, s₂, htexts, hiter, hback⟩ :=
          ih mid.length (hn ▸ hless) s₁ mid hloop rfl
        refine ⟨text ++ texts, rest, by simp, text.map shape ++ front, back, s₂, ?_, ?_, hback⟩
        · rw [List.map_append, htexts, List.append_assoc]
        · exact .next htext hiter
  · intro h
    obtain ⟨text, rest, rfl, front, back, s₁, htext, hiter, hback⟩ := h
    obtain ⟨front, back, rfl, rfl, rfl⟩ := List.map_eq_append_iff.mp htext
    clear htext
    rw [List.append_assoc]
    generalize hshape : front.map shape = shapes at hiter
    induction hiter generalizing front with
    | done s =>
      rw [List.map_eq_nil_iff.mp hshape, List.nil_append, Body.loop_error]
      exact ⟨hgoR back rest c hback, .inl ((hR s _ c).mpr ⟨back, rest, rfl, hback⟩)⟩
    | next hstep _ ih =>
      obtain ⟨first, others, rfl, rfl, rfl⟩ := List.map_eq_append_iff.mp hshape
      rw [List.append_assoc, Body.loop_error]
      refine ⟨hgo _ _ _ _ hstep, .inr ⟨_, others ++ (back ++ rest), ?_, ih others rfl⟩⟩
      exact (hbody _ _ _ _).mpr ⟨first, rfl, hstep⟩

end

end TokenParser
