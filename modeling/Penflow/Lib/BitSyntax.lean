import Penflow.Lib.BitString

/-!
# Bit syntaxes: readers that carry their own round trip

A *token* is one coded number: fixed width, unsigned or signed Exp-Golomb.  A `SyntaxReader` reads a
value off a bit string and reports the tokens it consumed.  Three laws are part of the structure, so
a reader that breaks them cannot be built:

* `consumes`: the bits taken are exactly the bits of the reported tokens;
* `stable`: the same tokens in front of any other rest are read back to the same value;
* `fits`: every reported value fits its code.

Readers form a monad, so a syntax with flags, counted loops and dependent widths is written as a
`do` block and inherits the laws.  `stable` is the rule later proofs use: whoever copies the tokens
of a syntax has copied the value.
-/

namespace BitSyntax

open BitString

/-- One coded number. -/
inductive Token where
  /-- An `n`-bit number. -/
  | u (n v : ℕ)
  /-- An unsigned Exp-Golomb code. -/
  | ue (v : ℕ)
  /-- A signed Exp-Golomb code. -/
  | se (v : ℤ)
  deriving DecidableEq

namespace Token

/-- The code of a token. -/
def bits : Token → List Bool
  | u n v => natBits n v
  | ue v => ueBits v
  | se v => seBits v

/-- The value fits its code. -/
def Fits : Token → Prop
  | u n v => v < 2 ^ n
  | ue v => v < 2 ^ 32 - 1
  | se v => seCode v < 2 ^ 32 - 1

end Token

/-- The code of a token sequence. -/
def tokenBits (ts : List Token) : List Bool := ts.flatMap Token.bits

@[simp] theorem tokenBits_nil : tokenBits [] = [] := rfl

@[simp] theorem tokenBits_cons (t : Token) (ts : List Token) :
    tokenBits (t :: ts) = t.bits ++ tokenBits ts := rfl

@[simp] theorem tokenBits_append (ts us : List Token) :
    tokenBits (ts ++ us) = tokenBits ts ++ tokenBits us := List.flatMap_append ..

/-- A reader of a bit syntax: the value, the tokens consumed and the bits left over. -/
structure SyntaxReader (ε α : Type) where
  run : List Bool → Except ε (α × List Token × List Bool)
  consumes : ∀ {s a ts s'}, run s = .ok (a, ts, s') → s = tokenBits ts ++ s'
  stable : ∀ {s a ts s'}, run s = .ok (a, ts, s') →
    ∀ s'', run (tokenBits ts ++ s'') = .ok (a, ts, s'')
  fits : ∀ {s a ts s'}, run s = .ok (a, ts, s') → ∀ t ∈ ts, t.Fits

namespace SyntaxReader

variable {ε α β : Type}

/-! ### The monad -/

/-- Read nothing. -/
def nothing (a : α) : SyntaxReader ε α where
  run s := .ok (a, [], s)
  consumes h := by cases h; rfl
  stable h s'' := by cases h; rfl
  fits h := by cases h; simp

/-- Refuse. -/
def fail (e : ε) : SyntaxReader ε α where
  run _ := .error e
  consumes h := by cases h
  stable h := by cases h
  fits h := by cases h

/-- Read with `q`, then with the reader its value selects. -/
def bindRun (q : SyntaxReader ε α) (f : α → SyntaxReader ε β) (s : List Bool) :
    Except ε (β × List Token × List Bool) :=
  match q.run s with
  | .error e => .error e
  | .ok (a, ts, s') =>
    match (f a).run s' with
    | .error e => .error e
    | .ok (b, us, s'') => .ok (b, ts ++ us, s'')

theorem bindRun_eq_ok {q : SyntaxReader ε α} {f : α → SyntaxReader ε β} {s s'' : List Bool}
    {b : β} {ts : List Token} :
    bindRun q f s = .ok (b, ts, s'') ↔ ∃ a ts₁ s' ts₂, q.run s = .ok (a, ts₁, s') ∧
      (f a).run s' = .ok (b, ts₂, s'') ∧ ts = ts₁ ++ ts₂ := by
  constructor
  · intro h
    unfold bindRun at h
    split at h
    case h_1 => cases h
    case h_2 a ts₁ s' hq =>
      split at h
      case h_1 => cases h
      case h_2 hf =>
        cases h
        exact ⟨a, ts₁, s', _, hq, hf, rfl⟩
  · rintro ⟨a, ts₁, s', ts₂, hq, hf, rfl⟩
    simp only [bindRun, hq, hf]

/-- Sequencing; the laws of the parts give those of the whole. -/
def seq (q : SyntaxReader ε α) (f : α → SyntaxReader ε β) : SyntaxReader ε β where
  run := bindRun q f
  consumes h := by
    obtain ⟨a, ts₁, s', ts₂, hq, hf, rfl⟩ := bindRun_eq_ok.1 h
    rw [q.consumes hq, (f a).consumes hf, tokenBits_append, List.append_assoc]
  stable h s'' := by
    obtain ⟨a, ts₁, s', ts₂, hq, hf, rfl⟩ := bindRun_eq_ok.1 h
    refine bindRun_eq_ok.2 ⟨a, ts₁, _, ts₂, ?_, (f a).stable hf s'', rfl⟩
    rw [tokenBits_append, List.append_assoc]
    exact q.stable hq _
  fits h := by
    obtain ⟨a, ts₁, s', ts₂, hq, hf, rfl⟩ := bindRun_eq_ok.1 h
    intro t ht
    rcases List.mem_append.1 ht with ht | ht
    · exact q.fits hq t ht
    · exact (f a).fits hf t ht

instance : Monad (SyntaxReader ε) where
  pure := nothing
  bind := seq

@[simp] theorem run_pure (a : α) (s : List Bool) :
    (pure a : SyntaxReader ε α).run s = .ok (a, [], s) := rfl

@[simp] theorem run_fail (e : ε) (s : List Bool) :
    (fail e : SyntaxReader ε α).run s = .error e := rfl

theorem run_bind (q : SyntaxReader ε α) (f : α → SyntaxReader ε β) (s : List Bool) :
    (q >>= f).run s = bindRun q f s := rfl

theorem ext_run {q q' : SyntaxReader ε α} (h : ∀ s, q.run s = q'.run s) : q = q' := by
  cases q
  cases q'
  congr
  exact funext h

instance : LawfulMonad (SyntaxReader ε) := LawfulMonad.mk' _
  (fun q => ext_run fun s => by
    show bindRun q (fun a => pure a) s = q.run s
    rw [bindRun]
    cases q.run s with
    | error e => rfl
    | ok x => simp)
  (fun a f => ext_run fun s => by
    rw [run_bind, bindRun]
    show (match (f a).run s with
      | .error e => .error e
      | .ok (b, us, s'') => .ok (b, [] ++ us, s'')) = (f a).run s
    cases (f a).run s <;> rfl)
  (fun q f g => ext_run fun s => by
    simp only [run_bind, bindRun]
    cases q.run s with
    | error e => rfl
    | ok x =>
        simp only
        cases (f x.1).run x.2.2 with
        | error e => rfl
        | ok y =>
            simp only
            cases (g y.1).run y.2.2 with
            | error e => rfl
            | ok z => simp only [List.append_assoc])

theorem run_bind_eq_ok {q : SyntaxReader ε α} {f : α → SyntaxReader ε β} {s s'' : List Bool}
    {b : β} {ts : List Token} :
    (q >>= f).run s = .ok (b, ts, s'') ↔ ∃ a ts₁ s' ts₂, q.run s = .ok (a, ts₁, s') ∧
      (f a).run s' = .ok (b, ts₂, s'') ∧ ts = ts₁ ++ ts₂ := bindRun_eq_ok

/-- One step of a replay: `q` reads its tokens, the continuation reads the rest. -/
theorem run_bind_of_ok {q : SyntaxReader ε α} {f : α → SyntaxReader ε β} {s s' s'' : List Bool}
    {a : α} {b : β} {ts us : List Token} (hq : q.run s = .ok (a, ts, s'))
    (hf : (f a).run s' = .ok (b, us, s'')) : (q >>= f).run s = .ok (b, ts ++ us, s'') :=
  run_bind_eq_ok.2 ⟨a, ts, s', us, hq, hf, rfl⟩

/-- What a reader reads, without the tokens: the value and the bits left over. -/
def parse (q : SyntaxReader ε α) (s : List Bool) : Except ε (α × List Bool) :=
  (q.run s).map fun x => (x.1, x.2.2)

theorem parse_of_run {q : SyntaxReader ε α} {s s' : List Bool} {a : α} {ts : List Token}
    (h : q.run s = .ok (a, ts, s')) : q.parse s = .ok (a, s') := by
  rw [parse, h]
  rfl

theorem run_of_parse {q : SyntaxReader ε α} {s s' : List Bool} {a : α}
    (h : q.parse s = .ok (a, s')) : ∃ ts, q.run s = .ok (a, ts, s') := by
  rw [parse] at h
  cases hrun : q.run s with
  | error e =>
      rw [hrun] at h
      cases h
  | ok x =>
      rw [hrun] at h
      cases h
      exact ⟨x.2.1, rfl⟩

/-- Parsing in sequence. -/
theorem parse_bind (q : SyntaxReader ε α) (f : α → SyntaxReader ε β) (s : List Bool) :
    (q >>= f).parse s = (q.parse s).bind fun x => (f x.1).parse x.2 := by
  rw [parse, run_bind, bindRun, parse]
  cases q.run s with
  | error e => rfl
  | ok x =>
      show Except.map _ (match (f x.1).run x.2.2 with
        | .error e => .error e
        | .ok (b, us, s'') => .ok (b, x.2.1 ++ us, s'')) = ((f x.1).run x.2.2).map _
      cases (f x.1).run x.2.2 <;> rfl

theorem parse_bind_eq_ok {q : SyntaxReader ε α} {f : α → SyntaxReader ε β} {s s'' : List Bool}
    {b : β} : (q >>= f).parse s = .ok (b, s'') ↔
      ∃ a s', q.parse s = .ok (a, s') ∧ (f a).parse s' = .ok (b, s'') := by
  rw [parse_bind]
  cases q.parse s with
  | error e =>
      refine iff_of_false (fun h => ?_) ?_
      · cases h
      · rintro ⟨a, s', h, -⟩
        cases h
  | ok x =>
      constructor
      · intro h
        exact ⟨x.1, x.2, rfl, h⟩
      · rintro ⟨a, s', h, hf⟩
        cases h
        exact hf

theorem parse_bind_pure {q : SyntaxReader ε α} {f : α → β} {s s' : List Bool} {b : β} :
    (q >>= fun a => pure (f a)).parse s = .ok (b, s') ↔ ∃ a, q.parse s = .ok (a, s') ∧ f a = b := by
  rw [parse_bind_eq_ok]
  constructor
  · rintro ⟨a, s₁, hq, hret⟩
    cases hret
    exact ⟨a, hq, rfl⟩
  · rintro ⟨a, hq, rfl⟩
    exact ⟨a, s', hq, rfl⟩

/-! ### Reading one token -/

/-- An `n`-bit number; `e` when the bits run out. -/
def u (e : ε) (n : ℕ) : SyntaxReader ε ℕ where
  run s := match natRead n s with
    | none => .error e
    | some (v, s') => .ok (v, [.u n v], s')
  consumes h := by
    split at h
    case h_1 => cases h
    case h_2 hr => cases h; simpa [Token.bits] using (natRead_eq_some hr).1
  stable h s'' := by
    split at h
    case h_1 => cases h
    case h_2 hr =>
      cases h
      simp [Token.bits, natRead_append (natRead_eq_some hr).2]
  fits h := by
    split at h
    case h_1 => cases h
    case h_2 hr => cases h; simpa [Token.Fits] using (natRead_eq_some hr).2

/-- An unsigned Exp-Golomb code; `e` when there is none. -/
def ue (e : ε) : SyntaxReader ε ℕ where
  run s := match ueRead s with
    | none => .error e
    | some (v, s') => .ok (v, [.ue v], s')
  consumes h := by
    split at h
    case h_1 => cases h
    case h_2 hr => cases h; simpa [Token.bits] using (ueRead_eq_some hr).1
  stable h s'' := by
    split at h
    case h_1 => cases h
    case h_2 hr =>
      cases h
      simp [Token.bits, ueRead_append (ueRead_eq_some hr).2]
  fits h := by
    split at h
    case h_1 => cases h
    case h_2 hr => cases h; simpa [Token.Fits] using (ueRead_eq_some hr).2

/-- A signed Exp-Golomb code; `e` when there is none. -/
def se (e : ε) : SyntaxReader ε ℤ where
  run s := match seRead s with
    | none => .error e
    | some (v, s') => .ok (v, [.se v], s')
  consumes h := by
    split at h
    case h_1 => cases h
    case h_2 hr => cases h; simpa [Token.bits] using (seRead_eq_some hr).1
  stable h s'' := by
    split at h
    case h_1 => cases h
    case h_2 hr =>
      cases h
      simp [Token.bits, seRead_append (seRead_eq_some hr).2]
  fits h := by
    split at h
    case h_1 => cases h
    case h_2 hr => cases h; simpa [Token.Fits] using (seRead_eq_some hr).2

theorem u_run_append {e : ε} {n v : ℕ} (h : v < 2 ^ n) (s : List Bool) :
    (u e n).run (natBits n v ++ s) = .ok (v, [.u n v], s) := by
  simp [u, natRead_append h]

theorem ue_run_append {e : ε} {v : ℕ} (h : v < 2 ^ 32 - 1) (s : List Bool) :
    (ue e).run (ueBits v ++ s) = .ok (v, [.ue v], s) := by
  simp [ue, ueRead_append h]

/-! ### The tokens read -/

theorem u_tokens {e : ε} {n v : ℕ} {s s' : List Bool} {ts : List Token}
    (h : (u e n).run s = .ok (v, ts, s')) : ts = [.u n v] := by
  simp only [u] at h
  split at h
  · cases h
  · cases h
    rfl

theorem ue_tokens {e : ε} {v : ℕ} {s s' : List Bool} {ts : List Token}
    (h : (ue e).run s = .ok (v, ts, s')) : ts = [.ue v] := by
  simp only [ue] at h
  split at h
  · cases h
  · cases h
    rfl

theorem se_tokens {e : ε} {v : ℤ} {s s' : List Bool} {ts : List Token}
    (h : (se e).run s = .ok (v, ts, s')) : ts = [.se v] := by
  simp only [se] at h
  split at h
  · cases h
  · cases h
    rfl

/-! ### Flags and counted loops -/

/-- A block that is there exactly when `c` holds. -/
def given (c : Prop) [Decidable c] (q : SyntaxReader ε α) : SyntaxReader ε (Option α) :=
  if c then some <$> q else pure none

/-- A block behind its presence flag. -/
def flagged (e : ε) (q : SyntaxReader ε α) : SyntaxReader ε (Option α) := do
  let flag ← u e 1
  given (flag = 1) q

/-- `n` copies of a block. -/
def times : ℕ → SyntaxReader ε α → SyntaxReader ε (List α)
  | 0, _ => pure []
  | n + 1, q => do
    let a ← q
    let as ← times n q
    pure (a :: as)

/-- A computation on values read before. -/
def compute : Except ε α → SyntaxReader ε α
  | .error e => fail e
  | .ok a => pure a

theorem run_map_eq_ok {q : SyntaxReader ε α} {f : α → β} {s s' : List Bool} {b : β}
    {ts : List Token} :
    (f <$> q).run s = .ok (b, ts, s') ↔ ∃ a, q.run s = .ok (a, ts, s') ∧ f a = b := by
  refine run_bind_eq_ok.trans ⟨?_, ?_⟩
  · rintro ⟨a, ts₁, s₁, ts₂, hq, hf, rfl⟩
    cases hf
    exact ⟨a, by rwa [List.append_nil], rfl⟩
  · rintro ⟨a, hq, rfl⟩
    exact ⟨a, ts, s', [], hq, rfl, (List.append_nil ts).symm⟩

/-- A counted loop reads as many blocks as it counts. -/
theorem times_run {q : SyntaxReader ε α} {code : α → List Token}
    (hq : ∀ {s a ts s'}, q.run s = .ok (a, ts, s') → ts = code a) {n : ℕ} {s s' : List Bool}
    {as : List α} {ts : List Token} (h : (times n q).run s = .ok (as, ts, s')) :
    as.length = n ∧ ts = as.flatMap code ∧ ∀ a ∈ as, ∃ s ts s', q.run s = .ok (a, ts, s') := by
  induction n generalizing s as ts with
  | zero =>
      cases h
      exact ⟨rfl, rfl, by simp⟩
  | succ n ih =>
      obtain ⟨a, ts₁, s₁, us, ha, hmore, rfl⟩ := run_bind_eq_ok.1 h
      obtain ⟨as', ts₂, s₂, vs, has, hret, rfl⟩ := run_bind_eq_ok.1 hmore
      cases hret
      obtain ⟨rfl, rfl, hall⟩ := ih has
      refine ⟨rfl, ?_, ?_⟩
      · rw [List.append_nil, List.flatMap_cons, hq ha]
      · intro b hb
        rcases List.mem_cons.1 hb with rfl | hb
        · exact ⟨_, _, _, ha⟩
        · exact hall b hb

theorem given_pos {c : Prop} [Decidable c] (hc : c) (q : SyntaxReader ε α) :
    given c q = some <$> q := if_pos hc

theorem given_neg {c : Prop} [Decidable c] (hc : ¬ c) (q : SyntaxReader ε α) :
    given c q = pure none := if_neg hc

/-! ### Values a reader can yield -/

/-- Some input makes `q` read `a`. -/
def Yields (q : SyntaxReader ε α) (a : α) : Prop := ∃ s ts s', q.run s = .ok (a, ts, s')

theorem u_yields {e : ε} {n v : ℕ} (h : (u e n).Yields v) : v < 2 ^ n := by
  obtain ⟨s, ts, s', h⟩ := h
  simp only [u] at h
  split at h
  · cases h
  · rename_i hr
    cases h
    exact (natRead_eq_some hr).2

theorem ue_yields {e : ε} {v : ℕ} (h : (ue e).Yields v) : v < 2 ^ 32 - 1 := by
  obtain ⟨s, ts, s', h⟩ := h
  simp only [ue] at h
  split at h
  · cases h
  · rename_i hr
    cases h
    exact (ueRead_eq_some hr).2

theorem se_yields {e : ε} {v : ℤ} (h : (se e).Yields v) : seCode v < 2 ^ 32 - 1 := by
  obtain ⟨s, ts, s', h⟩ := h
  simp only [se] at h
  split at h
  · cases h
  · rename_i hr
    cases h
    exact (seRead_eq_some hr).2

/-- A conditional block is there exactly when its condition holds. -/
theorem given_yields {c : Prop} [Decidable c] {q : SyntaxReader ε α} {b : Option α}
    (h : (given c q).Yields b) : b.isSome ↔ c := by
  obtain ⟨s, ts, s', h⟩ := h
  by_cases hc : c
  · rw [given_pos hc] at h
    obtain ⟨a, -, rfl⟩ := run_map_eq_ok.1 h
    exact iff_of_true rfl hc
  · rw [given_neg hc] at h
    cases h
    exact iff_of_false Bool.false_ne_true hc

/-- Every value `q` can yield has the property `P`. -/
def Ensures (q : SyntaxReader ε α) (P : α → Prop) : Prop := ∀ a, q.Yields a → P a

theorem ensures_pure {P : α → Prop} {a : α} (h : P a) : (pure a : SyntaxReader ε α).Ensures P := by
  rintro b ⟨s, ts, s', hrun⟩
  cases hrun
  exact h

theorem Ensures.bind {q : SyntaxReader ε α} {f : α → SyntaxReader ε β} {P : β → Prop}
    (h : ∀ a, q.Yields a → (f a).Ensures P) : (q >>= f).Ensures P := by
  rintro b ⟨s, ts, s', hrun⟩
  obtain ⟨a, ts₁, s₁, ts₂, hq, hf, -⟩ := run_bind_eq_ok.1 hrun
  exact h a ⟨_, _, _, hq⟩ b ⟨_, _, _, hf⟩

/-! ### Bit strings that spell a value -/

/-- `bs` spells `a`: in front of any rest, `q` takes exactly `bs` and reads `a`. -/
def Spells (q : SyntaxReader ε α) (bs : List Bool) (a : α) : Prop :=
  ∀ s, ∃ ts, q.run (bs ++ s) = .ok (a, ts, s)

/-- What was read is spelt by the tokens it was read from. -/
theorem spells_of_run {q : SyntaxReader ε α} {s s' : List Bool} {a : α} {ts : List Token}
    (h : q.run s = .ok (a, ts, s')) : q.Spells (tokenBits ts) a :=
  fun s'' => ⟨ts, q.stable h s''⟩

/-- What is spelt in front is read first. -/
theorem Spells.parse_bind {q : SyntaxReader ε α} {bs : List Bool} {a : α} (h : q.Spells bs a)
    (f : α → SyntaxReader ε β) (s : List Bool) : (q >>= f).parse (bs ++ s) = (f a).parse s := by
  obtain ⟨ts, hq⟩ := h s
  rw [SyntaxReader.parse_bind, parse_of_run hq]
  rfl

theorem spells_pure (a : α) : (pure a : SyntaxReader ε α).Spells [] a := fun _ => ⟨[], rfl⟩

theorem spells_u {e : ε} {n v : ℕ} (h : v < 2 ^ n) : (u e n).Spells (natBits n v) v :=
  fun s => ⟨_, u_run_append h s⟩

theorem spells_ue {e : ε} {v : ℕ} (h : v < 2 ^ 32 - 1) : (ue e).Spells (ueBits v) v :=
  fun s => ⟨_, ue_run_append h s⟩

theorem spells_se {e : ε} {v : ℤ} (h : seCode v < 2 ^ 32 - 1) : (se e).Spells (seBits v) v :=
  fun s => ⟨[.se v], by simp [se, seRead_append h]⟩

theorem Spells.bind {q : SyntaxReader ε α} {f : α → SyntaxReader ε β} {bs cs : List Bool} {a : α}
    {b : β} (hq : q.Spells bs a) (hf : (f a).Spells cs b) : (q >>= f).Spells (bs ++ cs) b := by
  intro s
  obtain ⟨ts, hts⟩ := hq (cs ++ s)
  obtain ⟨us, hus⟩ := hf s
  rw [List.append_assoc]
  exact ⟨ts ++ us, run_bind_of_ok hts hus⟩

theorem Spells.map {q : SyntaxReader ε α} {bs : List Bool} {a : α} (h : q.Spells bs a)
    (f : α → β) : (f <$> q).Spells bs (f a) := by
  intro s
  obtain ⟨ts, hts⟩ := h s
  exact ⟨ts, run_map_eq_ok.2 ⟨a, hts, rfl⟩⟩

/-- A block that is there: a flag of 1, then the block. -/
theorem Spells.flagged {e : ε} {q : SyntaxReader ε α} {bs : List Bool} {a : α}
    (h : q.Spells bs a) : (flagged e q).Spells (natBits 1 1 ++ bs) (some a) := by
  refine (spells_u (by decide)).bind ?_
  rw [given_pos rfl]
  exact h.map some

/-- A block that is not there: a flag of 0. -/
theorem spells_flagged_none {e : ε} {q : SyntaxReader ε α} :
    (flagged e q).Spells (natBits 1 0) none := by
  have h : (flagged e q).Spells (natBits 1 0 ++ []) none := by
    refine (spells_u (by decide)).bind ?_
    rw [given_neg (by decide)]
    exact spells_pure none
  rwa [List.append_nil] at h

end SyntaxReader

end BitSyntax
