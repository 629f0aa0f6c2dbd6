import Mathlib.Data.List.Basic

/-! # Recursive Descent

    Parsers that take tokens from the front of a list, and the languages they
    accept. What the grammar sees of a token is its shape; a parser recognises
    a language when it succeeds exactly on the texts of the language, whatever
    comes behind them, each with its own value. The rules below put such
    statements together the way parsers are put together: sequence, choice on
    the next token, and loops up to a closing token.
-/

/-- A parser of tokens `τ` that may throw `ε`. -/
abbrev TokenParser (τ ε α : Type) : Type := StateT (List τ) (Except ε) α

namespace TokenParser

variable {τ κ ε α β σ : Type}

/-! ## Successful Runs -/

theorem pure_ok {a b : α} {ts rest : List τ} :
    (pure a : TokenParser τ ε α) ts = .ok (b, rest) ↔ b = a ∧ rest = ts := by
  show (Except.ok (a, ts) : Except ε (α × List τ)) = .ok (b, rest) ↔ b = a ∧ rest = ts
  constructor
  · intro h
    obtain ⟨rfl, rfl⟩ := Prod.mk.inj (Except.ok.inj h)
    exact ⟨rfl, rfl⟩
  · rintro ⟨rfl, rfl⟩
    rfl

/-- A sequence succeeds when both parts do. -/
theorem bind_ok {p : TokenParser τ ε α} {f : α → TokenParser τ ε β} {ts rest : List τ} {b : β} :
    (p >>= f) ts = .ok (b, rest) ↔ ∃ a mid, p ts = .ok (a, mid) ∧ f a mid = .ok (b, rest) := by
  show (p ts >>= fun x => f x.1 x.2) = .ok (b, rest) ↔ _
  cases hp : p ts with
  | error e =>
    constructor
    · intro h
      cases h
    · rintro ⟨a, mid, h, -⟩
      cases h
  | ok x =>
    obtain ⟨a, mid⟩ := x
    constructor
    · exact fun h => ⟨a, mid, rfl, h⟩
    · rintro ⟨a', mid', h, hf⟩
      obtain ⟨rfl, rfl⟩ := Prod.mk.inj (Except.ok.inj h)
      exact hf

/-! ## Progress -/

/-- A parser that gives back no more than it was given. -/
def Keeps (p : TokenParser τ ε α) : Prop :=
  ∀ ts a rest, p ts = .ok (a, rest) → rest.length ≤ ts.length

/-- A parser that takes at least one token. -/
def Shrinks (p : TokenParser τ ε α) : Prop :=
  ∀ ts a rest, p ts = .ok (a, rest) → rest.length < ts.length

theorem Shrinks.keeps {p : TokenParser τ ε α} (h : Shrinks p) : Keeps p :=
  fun ts a rest hp => Nat.le_of_lt (h ts a rest hp)

theorem Keeps.pure (a : α) : Keeps (pure a : TokenParser τ ε α) := by
  intro ts b rest h
  obtain ⟨-, rfl⟩ := pure_ok.mp h
  exact Nat.le_refl _

theorem Keeps.bind {p : TokenParser τ ε α} {f : α → TokenParser τ ε β} (hp : Keeps p)
    (hf : ∀ a, Keeps (f a)) : Keeps (p >>= f) := by
  intro ts b rest h
  obtain ⟨a, mid, hmid, hrest⟩ := bind_ok.mp h
  exact Nat.le_trans (hf a mid b rest hrest) (hp ts a mid hmid)

theorem Shrinks.bind {p : TokenParser τ ε α} {f : α → TokenParser τ ε β} (hp : Shrinks p)
    (hf : ∀ a, Keeps (f a)) : Shrinks (p >>= f) := by
  intro ts b rest h
  obtain ⟨a, mid, hmid, hrest⟩ := bind_ok.mp h
  exact Nat.lt_of_le_of_lt (hf a mid b rest hrest) (hp ts a mid hmid)

/-! ## Loops -/

/-- A loop body: each iteration takes at least one token. -/
structure Body (τ ε σ : Type) where
  run : σ → TokenParser τ ε σ
  shrinks : ∀ s, Shrinks (run s)

def Body.loopOn (body : Body τ ε σ) (stop : List τ → Bool) (s : σ) (ts : List τ) :
    Except ε (σ × List τ) :=
  if stop ts then .ok (s, ts)
  else match _h : body.run s ts with
    | .error e => .error e
    | .ok (s', rest) => body.loopOn stop s' rest
termination_by ts.length
decreasing_by exact body.shrinks s ts s' rest _h

/-- `while (!stop) body`. -/
def Body.loop (body : Body τ ε σ) (stop : List τ → Bool) (s : σ) : TokenParser τ ε σ :=
  body.loopOn stop s

/-- A loop stops, or runs its body once and goes on. -/
theorem Body.loop_ok {body : Body τ ε σ} {stop : List τ → Bool} {s s' : σ} {ts rest : List τ} :
    body.loop stop s ts = .ok (s', rest) ↔
      if stop ts then s' = s ∧ rest = ts
      else ∃ s₁ mid, body.run s ts = .ok (s₁, mid) ∧ body.loop stop s₁ mid = .ok (s', rest) := by
  unfold Body.loop
  rw [Body.loopOn]
  split
  · constructor
    · intro h
      obtain ⟨rfl, rfl⟩ := Prod.mk.inj (Except.ok.inj h)
      exact ⟨rfl, rfl⟩
    · rintro ⟨rfl, rfl⟩
      rfl
  · split
    · next e he =>
      constructor
      · intro h
        cases h
      · rintro ⟨s₁, mid, h, -⟩
        rw [he] at h
        cases h
    · next s₁ mid hrun =>
      constructor
      · exact fun h => ⟨s₁, mid, hrun, h⟩
      · rintro ⟨s₂, mid', h, hloop⟩
        rw [hrun] at h
        obtain ⟨rfl, rfl⟩ := Prod.mk.inj (Except.ok.inj h)
        exact hloop

theorem Body.loop_keeps (body : Body τ ε σ) (stop : List τ → Bool) (s : σ) :
    Keeps (body.loop stop s) := by
  intro ts
  -- on what is left: the body shrinks it
  induction hn : ts.length using Nat.strongRecOn generalizing ts s with
  | ind n ih =>
    intro s' rest h
    rw [Body.loop_ok] at h
    split at h
    · obtain ⟨-, rfl⟩ := h
      exact Nat.le_of_eq hn
    · obtain ⟨s₁, mid, hrun, hloop⟩ := h
      have hlt := body.shrinks s ts s₁ mid hrun
      have hle := ih mid.length (hn ▸ hlt) s₁ mid rfl s' rest hloop
      omega

/-! ## Languages -/

variable (shape : τ → κ)

/-- A parser succeeds exactly on the texts of a language, each with its value. -/
def Recognises (p : TokenParser τ ε α) (L : List κ → α → Prop) : Prop :=
  ∀ ts a rest, p ts = .ok (a, rest) ↔ ∃ text, ts = text ++ rest ∧ L (text.map shape) a

variable {shape}

theorem Recognises.congr {p : TokenParser τ ε α} {L M : List κ → α → Prop}
    (h : Recognises shape p L) (hLM : ∀ text a, L text a ↔ M text a) : Recognises shape p M := by
  intro ts a rest
  rw [h ts a rest]
  simp only [hLM]

theorem Recognises.pure (a : α) :
    Recognises shape (pure a : TokenParser τ ε α) fun text b => text = [] ∧ b = a := by
  intro ts b rest
  rw [pure_ok]
  constructor
  · rintro ⟨rfl, rfl⟩
    exact ⟨[], rfl, rfl, rfl⟩
  · rintro ⟨text, rfl, htext, rfl⟩
    rw [List.map_eq_nil_iff.mp htext]
    exact ⟨rfl, rfl⟩

/-- **Sequence**: the texts are put one behind the other. -/
theorem Recognises.bind {p : TokenParser τ ε α} {f : α → TokenParser τ ε β}
    {L : List κ → α → Prop} {M : α → List κ → β → Prop} (hp : Recognises shape p L)
    (hf : ∀ a, Recognises shape (f a) (M a)) :
    Recognises shape (p >>= f) fun text b => ∃ front back a, text = front ++ back ∧ L front a ∧
      M a back b := by
  intro ts b rest
  rw [bind_ok]
  constructor
  · rintro ⟨a, mid, hmid, hrest⟩
    obtain ⟨front, rfl, hfront⟩ := (hp ts a mid).mp hmid
    obtain ⟨back, rfl, hback⟩ := (hf a mid b rest).mp hrest
    exact ⟨front ++ back, by simp, _, _, a, by simp, hfront, hback⟩
  · rintro ⟨text, rfl, front, back, a, htext, hfront, hback⟩
    obtain ⟨front, back, rfl, rfl, rfl⟩ := List.map_eq_append_iff.mp htext
    refine ⟨a, back ++ rest, (hp _ _ _).mpr ⟨front, by simp, hfront⟩, ?_⟩
    exact (hf a _ _ _).mpr ⟨back, rfl, hback⟩

/-- What is done with the value does not change the texts. -/
theorem Recognises.map {p : TokenParser τ ε α} {L : List κ → α → Prop}
    (hp : Recognises shape p L) (f : α → β) :
    Recognises shape (do
        let a ← p
        Pure.pure (f a)) fun text b => ∃ a, L text a ∧ f a = b := by
  refine (hp.bind fun a => Recognises.pure (f a)).congr fun text b => ?_
  constructor
  · rintro ⟨front, _, a, rfl, hfront, rfl, rfl⟩
    exact ⟨a, by rwa [List.append_nil], rfl⟩
  · rintro ⟨a, htext, rfl⟩
    exact ⟨text, [], a, by rw [List.append_nil], htext, rfl, rfl⟩

/-- A parser that always throws recognises nothing. -/
theorem Recognises.throws {p : TokenParser τ ε α} (h : ∀ ts, ∃ e, p ts = .error e) :
    Recognises shape p fun _ _ => False := by
  intro ts a rest
  obtain ⟨e, he⟩ := h ts
  rw [he]
  constructor
  · intro hok
    cases hok
  · rintro ⟨-, -, hfalse⟩
    exact hfalse.elim

/-- **Choice**: the next token tells which of two parsers applies. -/
theorem Recognises.choice {p q : TokenParser τ ε α} {guard : List τ → Bool} {first : κ → Bool}
    {L M : List κ → α → Prop} (hp : Recognises shape p L) (hq : Recognises shape q M)
    (hL : ∀ a, ¬ L [] a) (hM : ∀ a, ¬ M [] a)
    (hguard : ∀ t ts, guard (t :: ts) = first (shape t)) :
    Recognises shape (fun ts => if guard ts then p ts else q ts) fun text a =>
      ∃ k back, text = k :: back ∧ if first k then L text a else M text a := by
  intro ts a rest
  dsimp only
  constructor
  · intro h
    split at h
    · next hts =>
      obtain ⟨text, rfl, htext⟩ := (hp ts a rest).mp h
      -- a text of either language has a first token, which is the one looked at
      cases text with
      | nil => exact absurd htext (hL a)
      | cons t text =>
        rw [List.cons_append, hguard] at hts
        exact ⟨t :: text, rfl, _, _, rfl, by rwa [if_pos hts]⟩
    · next hts =>
      obtain ⟨text, rfl, htext⟩ := (hq ts a rest).mp h
      cases text with
      | nil => exact absurd htext (hM a)
      | cons t text =>
        rw [List.cons_append, hguard] at hts
        exact ⟨t :: text, rfl, _, _, rfl, by rwa [if_neg hts]⟩
  · rintro ⟨text, rfl, k, back, htext, hchoice⟩
    obtain ⟨t, text, rfl, rfl, rfl⟩ := List.map_eq_cons_iff.mp htext
    rw [List.cons_append, hguard]
    split at hchoice
    · next hk =>
      rw [if_pos hk]
      exact (hp _ _ _).mpr ⟨t :: text, rfl, hchoice⟩
    · next hk =>
      rw [if_neg hk]
      exact (hq _ _ _).mpr ⟨t :: text, rfl, hchoice⟩

/-- The texts of some iterations, from one value of the loop's variable to another. -/
inductive Iterations (B : σ → List κ → σ → Prop) : σ → List κ → σ → Prop where
  | done (s : σ) : Iterations B s [] s
  | next {s s₁ s' : σ} {text texts : List κ} (h : B s text s₁) (hs : Iterations B s₁ texts s') :
      Iterations B s (text ++ texts) s'

/-- Iterations are the items of a list, applied in order. -/
theorem iterations_iff {ι : Type} {render : ι → List κ} {apply : σ → ι → Except ε σ}
    {B : σ → List κ → σ → Prop}
    (hB : ∀ s text s', B s text s' ↔ ∃ i, text = render i ∧ apply s i = .ok s') {s s' : σ}
    {text : List κ} :
    Iterations B s text s' ↔
      ∃ items : List ι, text = items.flatMap render ∧ items.foldlM apply s = .ok s' := by
  constructor
  · intro h
    induction h with
    | done s => exact ⟨[], rfl, rfl⟩
    | next hstep _ ih =>
      obtain ⟨i, rfl, hi⟩ := (hB _ _ _).mp hstep
      obtain ⟨items, rfl, hitems⟩ := ih
      refine ⟨i :: items, rfl, ?_⟩
      rw [List.foldlM_cons, hi]
      exact hitems
  · rintro ⟨items, rfl, hitems⟩
    -- the fold fails as soon as one item cannot be applied
    induction items generalizing s with
    | nil =>
      obtain rfl := Except.ok.inj hitems
      exact .done _
    | cons i items ih =>
      rw [List.foldlM_cons] at hitems
      cases hi : apply s i with
      | error e =>
        rw [hi] at hitems
        cases hitems
      | ok s₁ =>
        rw [hi] at hitems
        exact .next ((hB _ _ _).mpr ⟨i, rfl, hi⟩) (ih hitems)

theorem foldlM_ok {ι : Type} (apply : σ → ι → σ) (items : List ι) (s : σ) :
    items.foldlM (fun s i => (.ok (apply s i) : Except ε σ)) s = .ok (items.foldl apply s) := by
  induction items generalizing s with
  | nil => rfl
  | cons i items ih => exact ih (apply s i)

/-- The same for items that cannot fail. -/
theorem iterations_iff_foldl {ι : Type} {render : ι → List κ} {apply : σ → ι → σ}
    {B : σ → List κ → σ → Prop}
    (hB : ∀ s text s', B s text s' ↔ ∃ i, text = render i ∧ apply s i = s') {s s' : σ}
    {text : List κ} :
    Iterations B s text s' ↔
      ∃ items : List ι, text = items.flatMap render ∧ items.foldl apply s = s' := by
  have hB' : ∀ s text s', B s text s' ↔
      ∃ i, text = render i ∧ (.ok (apply s i) : Except Empty σ) = .ok s' := by
    intro s text s'
    rw [hB]
    simp only [Except.ok.injEq]
  rw [iterations_iff hB']
  simp only [foldlM_ok, Except.ok.injEq]

/-- **Loop rule**: a loop that stops where the iterations' texts cannot go on. -/
theorem Body.loop_iff {body : Body τ ε σ} {stop : List τ → Bool} {B : σ → List κ → σ → Prop}
    (hbody : ∀ s, Recognises shape (body.run s) (B s))
    (hgo : ∀ s text rest s', B s (text.map shape) s' → stop (text ++ rest) = false)
    {s s' : σ} {ts rest : List τ} :
    body.loop stop s ts = .ok (s', rest) ↔
      ∃ text, ts = text ++ rest ∧ Iterations B s (text.map shape) s' ∧ stop rest = true := by
  constructor
  · intro h
    -- on what is left, as the loop does not end when its body stands still
    induction hn : ts.length using Nat.strongRecOn generalizing ts s with
    | ind n ih =>
      rw [Body.loop_ok] at h
      split at h
      · next hstop =>
        obtain ⟨rfl, rfl⟩ := h
        exact ⟨[], rfl, .done _, hstop⟩
      · obtain ⟨s₁, mid, hrun, hloop⟩ := h
        have hlt := body.shrinks s ts s₁ mid hrun
        obtain ⟨text, rfl, htext⟩ := (hbody s ts s₁ mid).mp hrun
        obtain ⟨texts, rfl, htexts, hstop⟩ := ih mid.length (hn ▸ hlt) hloop rfl
        refine ⟨text ++ texts, by simp, ?_, hstop⟩
        rw [List.map_append]
        exact .next htext htexts
  · -- on the iterations, none of which begins where the loop stops
    rintro ⟨text, rfl, hiter, hstop⟩
    generalize hshape : text.map shape = shapes at hiter
    induction hiter generalizing text with
    | done s =>
      rw [List.map_eq_nil_iff.mp hshape, Body.loop_ok]
      simp [hstop]
    | next hstep _ ih =>
      obtain ⟨front, back, rfl, rfl, rfl⟩ := List.map_eq_append_iff.mp hshape
      rw [Body.loop_ok, List.append_assoc, if_neg (by simp [hgo _ _ _ _ hstep])]
      exact ⟨_, back ++ rest, (hbody _ _ _ _).mpr ⟨front, rfl, hstep⟩, ih back rfl⟩

/-- **A loop up to a closing token** recognises the iterations and that token. -/
theorem Recognises.block {body : Body τ ε σ} {stop : List τ → Bool} {close : TokenParser τ ε β}
    {B : σ → List κ → σ → Prop} {closing : κ} {value : β} {finish : σ → α}
    (hbody : ∀ s, Recognises shape (body.run s) (B s))
    (hclose : Recognises shape close fun text b => text = [closing] ∧ b = value)
    (hgo : ∀ s text rest s', B s (text.map shape) s' → stop (text ++ rest) = false)
    (hstop : ∀ t rest, shape t = closing → stop (t :: rest) = true) (s : σ) :
    Recognises shape (do
        let s ← body.loop stop s
        let _ ← close
        Pure.pure (finish s)) fun text a =>
      ∃ texts s', text = texts ++ [closing] ∧ Iterations B s texts s' ∧ a = finish s' := by
  intro ts a rest
  rw [bind_ok]
  constructor
  · rintro ⟨s', mid, hloop, hrest⟩
    obtain ⟨text, rfl, htext, -⟩ := (Body.loop_iff hbody hgo).mp hloop
    obtain ⟨b, mid', hclosed, hpure⟩ := bind_ok.mp hrest
    obtain ⟨rfl, rfl⟩ := pure_ok.mp hpure
    obtain ⟨last, rfl, hlast, -⟩ := (hclose _ _ _).mp hclosed
    exact ⟨text ++ last, by simp, text.map shape, s', by rw [List.map_append, hlast], htext, rfl⟩
  · rintro ⟨text, rfl, texts, s', htext, hiter, rfl⟩
    obtain ⟨front, last, rfl, rfl, hlast⟩ := List.map_eq_append_iff.mp htext
    obtain ⟨t, rfl, ht⟩ : ∃ t, last = [t] ∧ shape t = closing := by
      obtain ⟨t, l, rfl, ht, hl⟩ := List.map_eq_cons_iff.mp hlast
      exact ⟨t, by rw [List.map_eq_nil_iff.mp hl], ht⟩
    have hstopped : stop (t :: rest) = true := hstop t rest ht
    refine ⟨s', t :: rest, ?_, ?_⟩
    · exact (Body.loop_iff hbody hgo).mpr ⟨front, by simp, hiter, hstopped⟩
    · refine bind_ok.mpr ⟨value, rest, ?_, pure_ok.mpr ⟨rfl, rfl⟩⟩
      exact (hclose _ _ _).mpr ⟨[t], rfl, by rw [← ht]; rfl, rfl⟩

end TokenParser
