import Penflow.Encoder.BitIO

/-!
# Walks: reading one bit string while writing another

The SPS patchers move a `BitReader` and a `BitWriter` along together.  A `Walk` is such a piece of
code; it carries the one fact every walk has, that neither cursor ever goes back.

A walk is compared with two readers of `BitSyntax`, one for what it takes from the input and one for
what it leaves in the output:

* `Rewrites p q q' f g`: `p` takes what `q` reads, say `b`; what it writes is spelt `f b` in `q'`;
  it returns `g b`; and it fails exactly when and how `q` fails;
* `Copies p q`: the special case that changes nothing;
* `Reads p q` and `Writes p q a`: the walks that only read and the walks that only write.

Each way the patchers combine steps has one rule below, and a patcher is verified by following its
text with these rules.
-/

namespace Penflow

open BitString BitSyntax SyntaxReader

/-- Code that moves a reader and a writer, onward only. -/
structure Walk (α : Type) where
  run : BitReader → BitWriter → Outcome (α × BitReader × BitWriter)
  onward : ∀ {r w a r' w'}, run r w = .ok (a, r', w') → ∃ k bs, r' = r.skip k ∧ w' = w.push bs

namespace Walk

variable {α β γ : Type}

/-! ### The monad -/

/-- Do nothing. -/
def stay (a : α) : Walk α where
  run r w := .ok (a, r, w)
  onward h := by
    cases h
    exact ⟨0, [], rfl, rfl⟩

/-- Walk with `p`, then with the walk its value selects. -/
def andThen (p : Walk α) (f : α → Walk β) : Walk β where
  run r w := do
    let (a, r, w) ← p.run r w
    (f a).run r w
  onward h := by
    obtain ⟨⟨a, r₁, w₁⟩, hp, hf⟩ := Outcome.bind_eq_ok.1 h
    obtain ⟨k, bs, rfl, rfl⟩ := p.onward hp
    obtain ⟨k', bs', rfl, rfl⟩ := (f a).onward hf
    exact ⟨k + k', bs ++ bs', BitReader.skip_skip .., BitWriter.push_push ..⟩

instance : Monad Walk where
  pure := stay
  bind := andThen

@[simp] theorem run_pure (a : α) (r : BitReader) (w : BitWriter) :
    (pure a : Walk α).run r w = .ok (a, r, w) := rfl

theorem run_bind (p : Walk α) (f : α → Walk β) (r : BitReader) (w : BitWriter) :
    (p >>= f).run r w = (p.run r w).bind fun x => (f x.1).run x.2.1 x.2.2 := rfl

theorem ext_run {p p' : Walk α} (h : ∀ r w, p.run r w = p'.run r w) : p = p' := by
  cases p
  cases p'
  congr
  funext r w
  exact h r w

instance : LawfulMonad Walk := LawfulMonad.mk' _
  (fun p => ext_run fun r w => by
    show (p.run r w).bind _ = p.run r w
    cases p.run r w <;> rfl)
  (fun a f => ext_run fun r w => rfl)
  (fun p f g => ext_run fun r w => by
    simp only [run_bind]
    cases p.run r w <;> rfl)

/-! ### Steps -/

section Steps

variable [BuildProfile]

/-- `r.read_bits(n)?` -/
def readBits (n : ℕ) : Walk ℕ where
  run r w := do
    let (v, r) ← r.readBits n
    pure (v, r, w)
  onward h := by
    obtain ⟨⟨v, r'⟩, hread, hret⟩ := Outcome.bind_eq_ok.1 h
    cases hret
    exact ⟨n, [], BitReader.readBits_skip hread, rfl⟩

/-- `r.read_ue()?` -/
def readUe : Walk ℕ where
  run r w := do
    let (v, r) ← r.readUe
    pure (v, r, w)
  onward h := by
    obtain ⟨⟨v, r'⟩, hread, hret⟩ := Outcome.bind_eq_ok.1 h
    cases hret
    rw [BitReader.readUe_eq] at hread
    split at hread
    · cases hread
    · cases hread
      exact ⟨_, [], rfl, rfl⟩

/-- `r.read_se()?` -/
def readSe : Walk ℤ where
  run r w := do
    let (v, r) ← r.readSe
    pure (v, r, w)
  onward h := by
    obtain ⟨⟨v, r'⟩, hread, hret⟩ := Outcome.bind_eq_ok.1 h
    cases hret
    rw [BitReader.readSe_eq] at hread
    split at hread
    · cases hread
    · cases hread
      exact ⟨_, [], rfl, rfl⟩

/-- `w.write_bits(value, n)` -/
def writeBits (value n : ℕ) : Walk Unit where
  run r w := do
    let w ← w.writeBits value n
    pure ((), r, w)
  onward h := by
    obtain ⟨w', hwrite, hret⟩ := Outcome.bind_eq_ok.1 h
    cases hret
    obtain ⟨bs, rfl⟩ := BitWriter.writeBits_push hwrite
    exact ⟨0, bs, rfl, rfl⟩

/-- `w.write_ue(value)` -/
def writeUe (value : ℕ) : Walk Unit where
  run r w := do
    let w ← w.writeUe value
    pure ((), r, w)
  onward h := by
    obtain ⟨w', hwrite, hret⟩ := Outcome.bind_eq_ok.1 h
    cases hret
    obtain ⟨bs, rfl⟩ := BitWriter.writeUe_push hwrite
    exact ⟨0, bs, rfl, rfl⟩

/-- `w.write_se(value)` -/
def writeSe (value : ℤ) : Walk Unit where
  run r w := do
    let w ← w.writeSe value
    pure ((), r, w)
  onward h := by
    obtain ⟨w', hwrite, hret⟩ := Outcome.bind_eq_ok.1 h
    cases hret
    obtain ⟨bs, rfl⟩ := BitWriter.writeSe_push hwrite
    exact ⟨0, bs, rfl, rfl⟩

/-- `let v = r.read_bits(n)?; w.write_bits(v, n);` -/
def copyBits (n : ℕ) : Walk ℕ := do
  let v ← readBits n
  writeBits v n
  pure v

/-- `let v = r.read_ue()?; w.write_ue(v);` -/
def copyUe : Walk ℕ := do
  let v ← readUe
  writeUe v
  pure v

/-- `let v = r.read_se()?; w.write_se(v);` -/
def copySe : Walk ℤ := do
  let v ← readSe
  writeSe v
  pure v

/-- `copyBits`, the value used no further. -/
def passBits (n : ℕ) : Walk Unit := do
  let _ ← copyBits n
  pure ()

/-- `copyUe`, the value used no further. -/
def passUe : Walk Unit := do
  let _ ← copyUe
  pure ()

/-- `copySe`, the value used no further. -/
def passSe : Walk Unit := do
  let _ ← copySe
  pure ()

end Steps

/-- A computation that moves neither cursor. -/
def ofOutcome (x : Outcome α) : Walk α where
  run r w := do
    let a ← x
    pure (a, r, w)
  onward h := by
    obtain ⟨a, -, hret⟩ := Outcome.bind_eq_ok.1 h
    cases hret
    exact ⟨0, [], rfl, rfl⟩

/-- `if c { p }` -/
def onlyIf (c : Prop) [Decidable c] (p : Walk Unit) : Walk Unit := if c then p else pure ()

/-- `if c { return Err(EngineError::NotInitialized); }` -/
def refuseIf (c : Prop) [Decidable c] : Walk Unit :=
  if c then ofOutcome (.error (.err .notInitialized)) else pure ()

/-- `for _ in 0..n { p }` -/
def times : ℕ → Walk Unit → Walk Unit
  | 0, _ => pure ()
  | n + 1, p => do
    p
    times n p

/-- A flag the walk goes on from only when it is 0. -/
def copyZeroFlag [BuildProfile] : Walk Unit := do
  let flag ← readBits 1
  refuseIf (flag = 1)
  writeBits 0 1

/-- `let flag = r.read_bits(1)?; w.write_bits(flag, 1); if flag == 1 { p }` -/
def flagged [BuildProfile] (p : Walk Unit) : Walk ℕ := do
  let flag ← copyBits 1
  onlyIf (flag = 1) p
  pure flag

end Walk

/-! ### The descriptors of the RBSP syntax -/

/-- A reader of RBSP syntax; it fails as the walks do. -/
abbrev Rbsp := SyntaxReader Fault

namespace Rbsp

/-- u(n) -/
def u (n : ℕ) : Rbsp ℕ := SyntaxReader.u (.err .notInitialized) n

/-- ue(v) -/
def ue : Rbsp ℕ := SyntaxReader.ue (.err .notInitialized)

/-- se(v) -/
def se : Rbsp ℤ := SyntaxReader.se (.err .notInitialized)

/-- A block behind its presence flag. -/
def flagged {α : Type} (q : Rbsp α) : Rbsp (Option α) :=
  SyntaxReader.flagged (.err .notInitialized) q

/-- Syntax the walks do not go into. -/
def refuseIf (c : Prop) [Decidable c] : Rbsp Unit :=
  if c then fail (.err .notInitialized) else pure ()

/-- A flag that must be 0. -/
def zeroFlag : Rbsp Unit := do
  let flag ← u 1
  refuseIf (flag = 1)

end Rbsp

/-! ### Walks against readers -/

variable {α α₁ β β' β₁ β₁' : Type}

/-- `p` takes what `q` reads, returns the `g` of it and writes bits that `W` allows for it. -/
def Walks (p : Walk α) (q : Rbsp β) (g : β → α) (W : β → List Bool → Prop) : Prop :=
  ∀ r w, match q.run r.rest with
    | .error e => p.run r w = .error e
    | .ok (b, ts, _) => ∃ bs, W b bs ∧
        p.run r w = .ok (g b, r.skip (tokenBits ts).length, w.push bs)

/-- What `p` writes is spelt `f b` in `q'` whenever it reads `b` in `q`. -/
def Rewrites (p : Walk α) (q : Rbsp β) (q' : Rbsp β') (f : β → β') (g : β → α) : Prop :=
  Walks p q g fun b bs => q'.Spells bs (f b)

/-- `p` writes what it reads. -/
abbrev Copies (p : Walk Unit) (q : Rbsp β) : Prop := Rewrites p q q id fun _ => ()

/-- `p` writes nothing. -/
def Reads (p : Walk α) (q : Rbsp β) (g : β → α) : Prop := Walks p q g fun _ bs => bs = []

/-- `p` takes and returns what `q` says, whatever it writes. -/
def Follows (p : Walk α) (q : Rbsp β) (g : β → α) : Prop := Walks p q g fun _ _ => True

/-- `p` reads nothing, and what it writes is spelt `a` in `q`. -/
def Writes (p : Walk Unit) (q : Rbsp β) (a : β) : Prop :=
  ∃ bs, q.Spells bs a ∧ ∀ r w, p.run r w = .ok ((), r, w.push bs)

/-- **Sequencing.**  The second walk starts where the first reader stopped. -/
theorem Walks.bind {p₁ : Walk α₁} {q₁ : Rbsp β₁} {g₁ : β₁ → α₁} {W₁ : β₁ → List Bool → Prop}
    {p₂ : α₁ → Walk α} {q₂ : β₁ → Rbsp β} {g : β → α} {V : β₁ → β → List Bool → Prop}
    {W : β → List Bool → Prop} (h₁ : Walks p₁ q₁ g₁ W₁)
    (h₂ : ∀ b, q₁.Yields b → Walks (p₂ (g₁ b)) (q₂ b) g (V b))
    (hW : ∀ b c bs cs, W₁ b bs → V b c cs → W c (bs ++ cs)) :
    Walks (p₁ >>= p₂) (q₁ >>= q₂) g W := by
  intro r w
  have hfst := h₁ r w
  rw [SyntaxReader.run_bind, bindRun, Walk.run_bind]
  cases hq₁ : q₁.run r.rest with
  | error e =>
      rw [hq₁] at hfst
      exact congrArg (Except.bind · _) hfst
  | ok x =>
      obtain ⟨b, ts, s'⟩ := x
      rw [hq₁] at hfst
      obtain ⟨bs, hbs, hp₁⟩ := hfst
      have hrest : (r.skip (tokenBits ts).length).rest = s' :=
        BitReader.rest_skip_of_append (q₁.consumes hq₁)
      have hsnd := h₂ b ⟨_, _, _, hq₁⟩ (r.skip (tokenBits ts).length) (w.push bs)
      rw [hrest] at hsnd
      rw [hp₁]
      simp only
      cases hq₂ : (q₂ b).run s' with
      | error e =>
          rw [hq₂] at hsnd
          exact hsnd
      | ok y =>
          obtain ⟨c, us, s''⟩ := y
          rw [hq₂] at hsnd
          obtain ⟨cs, hcs, hp₂⟩ := hsnd
          refine ⟨bs ++ cs, hW b c bs cs hbs hcs, ?_⟩
          refine hp₂.trans ?_
          rw [BitReader.skip_skip, BitWriter.push_push, tokenBits_append, List.length_append]

theorem Walks.mono {p : Walk α} {q : Rbsp β} {g : β → α} {W W' : β → List Bool → Prop}
    (h : Walks p q g W) (hW : ∀ b bs, W b bs → W' b bs) : Walks p q g W' := by
  intro r w
  have hrw := h r w
  split at hrw
  · exact hrw
  · obtain ⟨bs, hbs, hp⟩ := hrw
    exact ⟨bs, hW _ _ hbs, hp⟩

theorem Walks.follows {p : Walk α} {q : Rbsp β} {g : β → α} {W : β → List Bool → Prop}
    (h : Walks p q g W) : Follows p q g := h.mono fun _ _ _ => trivial

theorem Follows.bind {p₁ : Walk α₁} {q₁ : Rbsp β₁} {g₁ : β₁ → α₁} {W₁ : β₁ → List Bool → Prop}
    {p₂ : α₁ → Walk α} {q₂ : β₁ → Rbsp β} {g : β → α} (h₁ : Walks p₁ q₁ g₁ W₁)
    (h₂ : ∀ b, q₁.Yields b → Follows (p₂ (g₁ b)) (q₂ b) g) :
    Follows (p₁ >>= p₂) (q₁ >>= q₂) g :=
  Walks.bind h₁ h₂ fun _ _ _ _ _ _ => trivial

/-- What a walk that succeeds says about its input and its output. -/
theorem Walks.of_run {p : Walk α} {q : Rbsp β} {g : β → α} {W : β → List Bool → Prop}
    (h : Walks p q g W) {r r' : BitReader} {w w' : BitWriter} {a : α}
    (hp : p.run r w = .ok (a, r', w')) : ∃ b ts s bs, q.run r.rest = .ok (b, ts, s) ∧ W b bs ∧
      a = g b ∧ r' = r.skip (tokenBits ts).length ∧ w' = w.push bs := by
  have hrw := h r w
  split at hrw
  · rw [hp] at hrw
    cases hrw
  · rename_i b ts s hq
    obtain ⟨bs, hbs, hrun⟩ := hrw
    rw [hp] at hrun
    cases hrun
    exact ⟨b, ts, s, bs, hq, hbs, rfl, rfl, rfl⟩

/-! ### Single steps -/

/-- A walk that is one reader method and nothing else. -/
theorem reads_of_method {p : Walk β} {q : Rbsp β} {m : BitReader → Outcome (β × BitReader)}
    (hrun : ∀ r w, p.run r w = (m r).bind fun x => .ok (x.1, x.2, w))
    (hm : ∀ r, match q.run r.rest with
      | .error e => m r = .error e
      | .ok (b, ts, _) => m r = .ok (b, r.skip (tokenBits ts).length)) : Reads p q id := by
  intro r w
  have hr := hm r
  split at hr
  · rw [hrun, hr]
    rfl
  · exact ⟨[], rfl, by rw [hrun, hr]; rfl⟩

/-- A walk that is one writer method and nothing else. -/
theorem writes_of_method {p : Walk Unit} {q : Rbsp β} {m : BitWriter → Outcome BitWriter}
    {bs : List Bool} {a : β}
    (hrun : ∀ r w, p.run r w = (m w).bind fun w => .ok ((), r, w))
    (hm : ∀ w, m w = .ok (w.push bs)) (hs : q.Spells bs a) : Writes p q a := by
  refine ⟨bs, hs, fun r w => ?_⟩
  rw [hrun, hm]
  rfl

/-- Both Exp-Golomb descriptors move the cursor to where the reader's rest begins. -/
theorem skip_length_eq {r : BitReader} {t : Token} {s : List Bool} (h : r.rest = t.bits ++ s) :
    r.skip (r.rest.length - s.length) = r.skip (tokenBits [t]).length := by
  rw [h, tokenBits_cons, tokenBits_nil, List.append_nil, List.length_append, Nat.add_sub_cancel]

section Steps

variable [BuildProfile]

theorem reads_bits {n : ℕ} (hn : n ≤ 32) : Reads (Walk.readBits n) (Rbsp.u n) id := by
  refine reads_of_method (m := fun r => r.readBits n) (fun _ _ => rfl) fun r => ?_
  rw [BitReader.readBits_eq hn]
  simp only [Rbsp.u, SyntaxReader.u]
  cases natRead n r.rest with
  | none => rfl
  | some x => simp [Token.bits]

theorem reads_ue : Reads Walk.readUe Rbsp.ue id := by
  refine reads_of_method (m := BitReader.readUe) (fun _ _ => rfl) fun r => ?_
  rw [BitReader.readUe_eq]
  simp only [Rbsp.ue, SyntaxReader.ue]
  cases hv : ueRead r.rest with
  | none => rfl
  | some x =>
      simp only
      rw [skip_length_eq (t := .ue x.1) (ueRead_eq_some hv).1]

theorem reads_se : Reads Walk.readSe Rbsp.se id := by
  refine reads_of_method (m := BitReader.readSe) (fun _ _ => rfl) fun r => ?_
  rw [BitReader.readSe_eq]
  simp only [Rbsp.se, SyntaxReader.se]
  cases hv : seRead r.rest with
  | none => rfl
  | some x =>
      simp only
      rw [skip_length_eq (t := .se x.1) (seRead_eq_some hv).1]

theorem writeBits_run {n : ℕ} (hn : n ≤ 32) (v : ℕ) (r : BitReader) (w : BitWriter) :
    (Walk.writeBits v n).run r w = .ok ((), r, w.push (natBits n v)) := by
  show (w.writeBits v n).bind _ = _
  rw [BitWriter.writeBits_eq v hn]
  rfl

theorem writes_bits {v n : ℕ} (hn : n ≤ 32) (hv : v < 2 ^ n) :
    Writes (Walk.writeBits v n) (Rbsp.u n) v :=
  writes_of_method (fun _ _ => rfl) (BitWriter.writeBits_eq v hn) (spells_u hv)

theorem writes_ue {v : ℕ} (hv : v < 2 ^ 32 - 1) : Writes (Walk.writeUe v) Rbsp.ue v :=
  writes_of_method (fun _ _ => rfl) (BitWriter.writeUe_eq hv) (spells_ue hv)

theorem writes_se {v : ℤ} (hv : seCode v < 2 ^ 32 - 1) : Writes (Walk.writeSe v) Rbsp.se v :=
  writes_of_method (fun _ _ => rfl) (BitWriter.writeSe_eq hv) (spells_se hv)

end Steps

/-! ### Rules -/

/-- A walk that ends with a value. -/
theorem Rewrites.ret {f : β → β'} {g : β → α} {a : α} {b : β} {b' : β'} (hf : f b = b')
    (hg : g b = a) : Rewrites (pure a) (pure b) (pure b') f g :=
  fun _ _ => ⟨[], hf ▸ spells_pure (f b), by rw [hg]; rfl⟩

/-- A walk that ends: the record read and the record left are both complete. -/
theorem Rewrites.done {f : β → β'} {b : β} {b' : β'} (h : f b = b') :
    Rewrites (pure ()) (pure b) (pure b') f fun _ => () := .ret h rfl

/-- Sequencing two rewrites. -/
theorem Rewrites.bind {p₁ : Walk α₁} {q₁ : Rbsp β₁} {q₁' : Rbsp β₁'} {f₁ : β₁ → β₁'} {g₁ : β₁ → α₁}
    {p₂ : α₁ → Walk α} {q₂ : β₁ → Rbsp β} {q₂' : β₁' → Rbsp β'} {f : β → β'} {g : β → α}
    (h₁ : Rewrites p₁ q₁ q₁' f₁ g₁)
    (h₂ : ∀ b, q₁.Yields b → Rewrites (p₂ (g₁ b)) (q₂ b) (q₂' (f₁ b)) f g) :
    Rewrites (p₁ >>= p₂) (q₁ >>= q₂) (q₁' >>= q₂') f g :=
  Walks.bind (V := fun b c bs => (q₂' (f₁ b)).Spells bs (f c)) h₁ h₂
    fun _ _ _ _ hbs hcs => Spells.bind hbs hcs

/-- A block copied as it is, then the rest. -/
theorem Rewrites.copy {p₁ : Walk Unit} {q₁ : Rbsp β₁} {p₂ : Walk α} {q₂ : β₁ → Rbsp β}
    {q₂' : β₁ → Rbsp β'} {f : β → β'} {g : β → α} (h₁ : Copies p₁ q₁)
    (h₂ : ∀ b, Rewrites p₂ (q₂ b) (q₂' b) f g) :
    Rewrites (p₁ >>= fun _ => p₂) (q₁ >>= q₂) (q₁ >>= q₂') f g :=
  Rewrites.bind h₁ fun b _ => h₂ b

/-- A block copied as it is, its value returned, then the rest. -/
theorem Rewrites.value {p₁ : Walk β₁} {q₁ : Rbsp β₁} {p₂ : β₁ → Walk α} {q₂ : β₁ → Rbsp β}
    {q₂' : β₁ → Rbsp β'} {f : β → β'} {g : β → α} (h₁ : Rewrites p₁ q₁ q₁ id id)
    (h₂ : ∀ b, q₁.Yields b → Rewrites (p₂ b) (q₂ b) (q₂' b) f g) :
    Rewrites (p₁ >>= p₂) (q₁ >>= q₂) (q₁ >>= q₂') f g :=
  Rewrites.bind h₁ h₂

/-- A computation both readers repeat. -/
theorem Rewrites.compute {x : Outcome α₁} {p : α₁ → Walk α} {q : α₁ → Rbsp β} {q' : α₁ → Rbsp β'}
    {f : β → β'} {g : β → α} (h : ∀ v, x = .ok v → Rewrites (p v) (q v) (q' v) f g) :
    Rewrites (Walk.ofOutcome x >>= p) (SyntaxReader.compute x >>= q)
      (SyntaxReader.compute x >>= q') f g := by
  cases x with
  | error e => exact fun _ _ => rfl
  | ok v =>
      refine Rewrites.value (Rewrites.ret rfl rfl) fun b hb => ?_
      obtain ⟨s, ts, s', hb⟩ := hb
      cases hb
      exact h v rfl

/-- A computation both readers repeat, its result returned. -/
theorem Rewrites.computed {x : Outcome α} {k : α → β} {g : β → α} (h : ∀ v, g (k v) = v) :
    Rewrites (Walk.ofOutcome x) (do let v ← SyntaxReader.compute x; pure (k v))
      (do let v ← SyntaxReader.compute x; pure (k v)) id g := by
  cases x with
  | error e => exact fun _ _ => rfl
  | ok v => exact fun _ _ => ⟨[], spells_pure (k v), by rw [h]; rfl⟩

/-- A computation that succeeds. -/
theorem Walks.compute {x : Outcome α₁} {v : α₁} (hx : x = .ok v) {p : α₁ → Walk α} {q : Rbsp β}
    {g : β → α} {W : β → List Bool → Prop} (h : Walks (p v) q g W) :
    Walks (Walk.ofOutcome x >>= p) q g W := by
  subst hx
  exact h

/-- Writing first puts the written bits in front. -/
theorem Walks.afterWrite {p₁ : Walk Unit} {bs : List Bool} {p : Walk α} {q : Rbsp β} {g : β → α}
    {W : β → List Bool → Prop} (h : Walks p q g W)
    (h₁ : ∀ r w, p₁.run r w = .ok ((), r, w.push bs)) :
    Walks (p₁ >>= fun _ => p) q g fun b cs => ∃ cs', W b cs' ∧ cs = bs ++ cs' := by
  intro r w
  have hrw := h r (w.push bs)
  rw [Walk.run_bind, h₁]
  split at hrw
  · exact hrw
  · obtain ⟨cs, hcs, hp⟩ := hrw
    refine ⟨bs ++ cs, ⟨cs, hcs, rfl⟩, ?_⟩
    rw [← BitWriter.push_push]
    exact hp

/-- A walk that reads, then one that writes: what the input had is replaced. -/
theorem Rewrites.replace {p₁ : Walk α₁} {q₁ : Rbsp β₁} {g₁ : β₁ → α₁} {p₂ : Walk Unit}
    {q₁' : Rbsp β₁'} {b' : β₁'} {p₃ : Walk α} {q₂ : β₁ → Rbsp β} {q₂' : β₁' → Rbsp β'} {f : β → β'}
    {g : β → α} (h₁ : Reads p₁ q₁ g₁) (hw : Writes p₂ q₁' b')
    (h₂ : ∀ b, Rewrites p₃ (q₂ b) (q₂' b') f g) :
    Rewrites (p₁ >>= fun _ => p₂ >>= fun _ => p₃) (q₁ >>= q₂) (q₁' >>= q₂') f g := by
  obtain ⟨bs, hspell, hrun⟩ := hw
  refine Walks.bind h₁ (fun b _ => (h₂ b).afterWrite hrun) ?_
  rintro b c _ _ rfl ⟨cs, hcs, rfl⟩
  exact hspell.bind hcs

/-- The last step of a block: the reader goes on to build its record. -/
theorem Walks.last {p : Walk α} {q : Rbsp β₁} {g₁ : β₁ → α} {W₁ : β₁ → List Bool → Prop} {k : β₁ → β}
    {g : β → α} {W : β → List Bool → Prop} (h : Walks p q g₁ W₁) (hg : ∀ b, g (k b) = g₁ b)
    (hW : ∀ b bs, W₁ b bs → W (k b) bs) : Walks p (do let b ← q; pure (k b)) g W := by
  intro r w
  have hrw := h r w
  rw [SyntaxReader.run_bind, bindRun]
  cases hq : q.run r.rest with
  | error e =>
      rw [hq] at hrw
      exact hrw
  | ok x =>
      rw [hq] at hrw
      obtain ⟨bs, hbs, hp⟩ := hrw
      refine ⟨bs, hW _ _ hbs, ?_⟩
      rw [List.append_nil, hg]
      exact hp

theorem Rewrites.last {p : Walk Unit} {q : Rbsp β₁} {q' : Rbsp β₁'} {f₁ : β₁ → β₁'} {k : β₁ → β}
    {k' : β₁' → β'} {f : β → β'} (h : Rewrites p q q' f₁ fun _ => ())
    (hf : ∀ b, f (k b) = k' (f₁ b)) :
    Rewrites p (do let b ← q; pure (k b)) (do let b' ← q'; pure (k' b')) f fun _ => () := by
  refine Walks.last h (fun _ => rfl) fun b bs hbs => ?_
  have hspell := Spells.bind (f := fun b' => (pure (k' b') : Rbsp β')) hbs (spells_pure _)
  rwa [List.append_nil, ← hf] at hspell

/-- A walk that goes on to return a known value. -/
theorem Walks.returning {p : Walk α₁} {q : Rbsp β} {g₁ : β → α₁} {g : β → α} {a : α}
    {W : β → List Bool → Prop} (h : Walks p q g₁ W) (hg : ∀ b, q.Yields b → g b = a) :
    Walks (do let _ ← p; pure a) q g W := by
  intro r w
  have hrw := h r w
  rw [Walk.run_bind]
  split at hrw
  · rw [hrw]
    rfl
  · rename_i b ts s hq
    obtain ⟨bs, hbs, hp⟩ := hrw
    refine ⟨bs, hbs, ?_⟩
    rw [hp, hg b ⟨_, _, _, hq⟩]
    rfl

/-- Sequencing two walks that only read. -/
theorem Reads.bind {p₁ : Walk α₁} {q₁ : Rbsp β₁} {g₁ : β₁ → α₁} {p₂ : α₁ → Walk α}
    {q₂ : β₁ → Rbsp β} {g : β → α} (h₁ : Reads p₁ q₁ g₁)
    (h₂ : ∀ b, q₁.Yields b → Reads (p₂ (g₁ b)) (q₂ b) g) : Reads (p₁ >>= p₂) (q₁ >>= q₂) g := by
  refine Walks.bind h₁ h₂ ?_
  rintro b c bs cs rfl rfl
  rfl

theorem Reads.done (b : β) : Reads (pure ()) (pure b) fun _ => () := fun _ _ => ⟨[], rfl, rfl⟩

theorem Reads.last {p : Walk Unit} {q : Rbsp β₁} (k : β₁ → β) (h : Reads p q fun _ => ()) :
    Reads p (do let b ← q; pure (k b)) fun _ => () :=
  Walks.last h (fun _ => rfl) fun _ _ hbs => hbs

/-- A block read under a condition. -/
theorem Reads.onlyIf {p : Walk Unit} {q : Rbsp β} {c : Prop} [Decidable c]
    (h : Reads p q fun _ => ()) : Reads (Walk.onlyIf c p) (given c q) fun _ => () := by
  by_cases hc : c
  · rw [Walk.onlyIf, if_pos hc, given_pos hc]
    exact h.last Option.some
  · rw [Walk.onlyIf, if_neg hc, given_neg hc]
    exact Reads.done none

/-- A counted loop that only reads. -/
theorem Reads.times {p : Walk Unit} {q : Rbsp β} (h : Reads p q fun _ => ()) (n : ℕ) :
    Reads (Walk.times n p) (SyntaxReader.times n q) fun _ => () := by
  induction n with
  | zero => exact Reads.done []
  | succ n ih => exact Reads.bind h fun b _ => ih.last _

/-- Sequencing two walks that only write. -/
theorem Writes.bind {p₁ p₂ : Walk Unit} {q₁ : Rbsp β₁} {q₂ : β₁ → Rbsp β} {a : β₁} {b : β}
    (h₁ : Writes p₁ q₁ a) (h₂ : Writes p₂ (q₂ a) b) :
    Writes (p₁ >>= fun _ => p₂) (q₁ >>= q₂) b := by
  obtain ⟨bs, hbs, hp₁⟩ := h₁
  obtain ⟨cs, hcs, hp₂⟩ := h₂
  refine ⟨bs ++ cs, hbs.bind hcs, fun r w => ?_⟩
  rw [Walk.run_bind, hp₁]
  exact (hp₂ r (w.push bs)).trans (by rw [BitWriter.push_push])

theorem Writes.last {p : Walk Unit} {q : Rbsp β₁} {a : β₁} (k : β₁ → β) (h : Writes p q a) :
    Writes p (do let b ← q; pure (k b)) (k a) := by
  obtain ⟨bs, hbs, hp⟩ := h
  have hspell := Spells.bind (f := fun b => (pure (k b) : Rbsp β)) hbs (spells_pure _)
  rw [List.append_nil] at hspell
  exact ⟨bs, hspell, hp⟩

/-- A block that is there. -/
theorem Writes.some {p : Walk Unit} {q : Rbsp β} {a : β} {c : Prop} [Decidable c] (hc : c)
    (h : Writes p q a) : Writes p (given c q) (some a) := by
  rw [given_pos hc]
  exact h.last Option.some

/-- A block whose condition fails leaves no trace. -/
theorem Writes.notGiven {p : Walk Unit} {q : Rbsp β₁} {q₂ : Option β₁ → Rbsp β} {b : β} {c : Prop}
    [Decidable c] (hc : ¬ c) (h : Writes p (q₂ none) b) : Writes p (given c q >>= q₂) b := by
  obtain ⟨bs, hbs, hp⟩ := h
  rw [given_neg hc]
  exact ⟨bs, (spells_pure none).bind hbs, hp⟩

/-- A block that is not there: its flag is 0. -/
theorem writes_absent [BuildProfile] {q : Rbsp β} :
    Writes (Walk.writeBits 0 1) (Rbsp.flagged q) none :=
  writes_of_method (fun _ _ => rfl) (BitWriter.writeBits_eq 0 (by decide)) spells_flagged_none

/-- A block that is not there, then the rest. -/
theorem Writes.absent [BuildProfile] {p : Walk Unit} {q : Rbsp β₁} {q₂ : Option β₁ → Rbsp β} {b : β}
    (h : Writes p (q₂ none) b) :
    Writes (Walk.writeBits 0 1 >>= fun _ => p) (Rbsp.flagged q >>= q₂) b :=
  Writes.bind writes_absent h

/-! ### Copying -/

/-- Writing back what was read, in the same code. -/
theorem rewrites_of_write {p : Walk β} {p' : β → Walk Unit} {q : Rbsp β} (hr : Reads p q id)
    (hw : ∀ v, q.Yields v → Writes (p' v) q v) :
    Rewrites (do let v ← p; p' v; pure v) q q id id := by
  intro r w
  have hread := hr r w
  rw [Walk.run_bind]
  split at hread
  · rw [hread]
    rfl
  · rename_i v ts s hq
    obtain ⟨_, rfl, hp⟩ := hread
    obtain ⟨bs, hbs, hp'⟩ := hw v ⟨_, _, _, hq⟩
    refine ⟨bs, hbs, ?_⟩
    rw [hp, Except.bind, Walk.run_bind, id, hp']
    rfl

section Copying

variable [BuildProfile]

theorem rewrites_bits {n : ℕ} (hn : n ≤ 32) :
    Rewrites (Walk.copyBits n) (Rbsp.u n) (Rbsp.u n) id id :=
  rewrites_of_write (reads_bits hn) fun _ hv => writes_bits hn (u_yields hv)

theorem rewrites_ue : Rewrites Walk.copyUe Rbsp.ue Rbsp.ue id id :=
  rewrites_of_write reads_ue fun _ hv => writes_ue (ue_yields hv)

/-- A number of `n` bits copied, then the rest. -/
theorem Rewrites.bits {n : ℕ} (hn : n ≤ 32) {p : ℕ → Walk α} {q : ℕ → Rbsp β} {q' : ℕ → Rbsp β'}
    {f : β → β'} {g : β → α} (h : ∀ v < 2 ^ n, Rewrites (p v) (q v) (q' v) f g) :
    Rewrites (Walk.copyBits n >>= p) (Rbsp.u n >>= q) (Rbsp.u n >>= q') f g :=
  Rewrites.bind (rewrites_bits hn) fun v hv => h v (u_yields hv)

/-- An unsigned Exp-Golomb code copied, then the rest. -/
theorem Rewrites.ue {p : ℕ → Walk α} {q : ℕ → Rbsp β} {q' : ℕ → Rbsp β'} {f : β → β'} {g : β → α}
    (h : ∀ v < 2 ^ 32 - 1, Rewrites (p v) (q v) (q' v) f g) :
    Rewrites (Walk.copyUe >>= p) (Rbsp.ue >>= q) (Rbsp.ue >>= q') f g :=
  Rewrites.bind rewrites_ue fun v hv => h v (ue_yields hv)

/-- A signed Exp-Golomb code copied, then the rest. -/
theorem Rewrites.se {p : ℤ → Walk α} {q : ℤ → Rbsp β} {q' : ℤ → Rbsp β'} {f : β → β'} {g : β → α}
    (h : ∀ v, Rewrites (p v) (q v) (q' v) f g) :
    Rewrites (Walk.copySe >>= p) (Rbsp.se >>= q) (Rbsp.se >>= q') f g :=
  Rewrites.bind (rewrites_of_write reads_se fun _ hv => writes_se (se_yields hv))
    fun v _ => h v

theorem copies_bits {n : ℕ} (hn : n ≤ 32) : Copies (Walk.passBits n) (Rbsp.u n) :=
  (rewrites_bits hn).returning fun _ _ => rfl

theorem copies_ue : Copies Walk.passUe Rbsp.ue := rewrites_ue.returning fun _ _ => rfl

theorem copies_se : Copies Walk.passSe Rbsp.se :=
  (rewrites_of_write reads_se fun _ hv => writes_se (se_yields hv)).returning fun _ _ => rfl

end Copying

/-- A block copied under a condition. -/
theorem Copies.onlyIf {p : Walk Unit} {q : Rbsp β} {c c' : Prop} [Decidable c] [Decidable c']
    (hc : c ↔ c') (h : c' → Copies p q) : Copies (Walk.onlyIf c p) (given c' q) := by
  by_cases hc' : c'
  · rw [Walk.onlyIf, if_pos (hc.2 hc'), given_pos hc']
    exact (h hc').last fun _ => rfl
  · rw [Walk.onlyIf, if_neg (fun h => hc' (hc.1 h)), given_neg hc']
    exact Rewrites.done rfl

/-- A block copied behind its flag; the walk returns the flag. -/
theorem rewrites_flagged [BuildProfile] {p : Walk Unit} {q : Rbsp β} (h : Copies p q) :
    Rewrites (Walk.flagged p) (Rbsp.flagged q) (Rbsp.flagged q) id
      fun b => if b.isSome then 1 else 0 := by
  refine Rewrites.bits (by decide) fun flag hflag => ?_
  refine Walks.returning (Copies.onlyIf Iff.rfl fun _ => h) fun b hb => ?_
  have hiff := given_yields hb
  by_cases hone : flag = 1
  · rw [if_pos (hiff.2 hone), hone]
  · rw [if_neg (fun hb => hone (hiff.1 hb))]
    omega

/-- A block copied behind its flag, the flag used no further. -/
theorem Rewrites.flagged [BuildProfile] {p : Walk Unit} {q : Rbsp β} {p₂ : Walk α}
    {q₂ : Option β → Rbsp β₁} {q₂' : Option β → Rbsp β₁'} {f : β₁ → β₁'} {g : β₁ → α}
    (h : Copies p q) (h₂ : ∀ b, Rewrites p₂ (q₂ b) (q₂' b) f g) :
    Rewrites (Walk.flagged p >>= fun _ => p₂) (Rbsp.flagged q >>= q₂) (Rbsp.flagged q >>= q₂') f g :=
  Rewrites.bind (rewrites_flagged h) fun b _ => h₂ b

/-- A counted loop. -/
theorem Rewrites.times {p : Walk Unit} {q : Rbsp β} {q' : Rbsp β'} {f : β → β'}
    (h : Rewrites p q q' f fun _ => ()) (n : ℕ) :
    Rewrites (Walk.times n p) (SyntaxReader.times n q) (SyntaxReader.times n q') (List.map f)
      fun _ => () := by
  induction n with
  | zero => exact Rewrites.done rfl
  | succ n ih => exact Rewrites.bind h fun b _ => ih.last fun _ => rfl

/-- A counted loop of copies. -/
theorem Copies.times {p : Walk Unit} {q : Rbsp β} (h : Copies p q) (n : ℕ) :
    Copies (Walk.times n p) (SyntaxReader.times n q) := by
  have hmap := Rewrites.times h n
  rwa [List.map_id_fun] at hmap

/-- A part of the syntax the walk does not go into. -/
theorem copies_refuseIf {c : Prop} [Decidable c] : Copies (Walk.refuseIf c) (Rbsp.refuseIf c) := by
  by_cases hc : c
  · rw [Walk.refuseIf, Rbsp.refuseIf, if_pos hc, if_pos hc]
    exact fun _ _ => rfl
  · rw [Walk.refuseIf, Rbsp.refuseIf, if_neg hc, if_neg hc]
    exact Rewrites.done rfl

theorem copies_zeroFlag [BuildProfile] : Copies Walk.copyZeroFlag Rbsp.zeroFlag := by
  refine Walks.bind (reads_bits (by decide))
    (V := fun flag _ bs => flag = 0 ∧ bs = natBits 1 0) (fun flag hflag => ?_) ?_
  · have hlt := u_yields hflag
    intro r w
    by_cases hone : flag = 1
    · rw [id, Rbsp.refuseIf, Walk.refuseIf, if_pos hone, if_pos hone]
      rfl
    · rw [id, Rbsp.refuseIf, Walk.refuseIf, if_neg hone, if_neg hone]
      exact ⟨natBits 1 0, ⟨by omega, rfl⟩, writeBits_run (by decide) 0 r w⟩
  · rintro flag _ _ _ rfl ⟨rfl, rfl⟩
    exact (spells_u (by decide)).bind (spells_pure _)

/-- **A block the output always has.**  It is rewritten when the input has it and made up when the
input does not. -/
theorem Rewrites.always [BuildProfile] {p p' : Walk Unit} {q : Rbsp β} {f : β → β} {b₀ : β}
    (h : Rewrites p q q f fun _ => ()) (h₀ : Writes p' q b₀) :
    Rewrites (do let flag ← Walk.readBits 1; Walk.writeBits 1 1; if flag = 1 then p else p')
      (Rbsp.flagged q) (Rbsp.flagged q) (fun b => some (b.elim b₀ f)) fun _ => () := by
  have hbody : ∀ flag, Walks (if flag = 1 then p else p') (given (flag = 1) q) (fun _ => ())
      fun b bs => q.Spells bs (b.elim b₀ f) := by
    intro flag
    by_cases hflag : flag = 1
    · rw [if_pos hflag, given_pos hflag]
      exact Walks.last h (fun _ => rfl) fun _ _ hbs => hbs
    · obtain ⟨bs, hbs, hp⟩ := h₀
      rw [if_neg hflag, given_neg hflag]
      exact fun r w => ⟨bs, hbs, hp r w⟩
  refine Walks.bind (reads_bits (by decide))
    (fun flag _ => (hbody flag).afterWrite (writeBits_run (by decide) 1)) ?_
  rintro flag b bs _ rfl ⟨cs, hcs, rfl⟩
  exact hcs.flagged

/-! ### A whole rewrite -/

/-- A stop bit, then zeros to the byte boundary. -/
def IsRbspTrailingBits (s : List Bool) : Prop := ∃ k < 8, s = true :: List.replicate k false

/-- Walk over a whole RBSP and end the output with trailing bits. -/
def Walk.rewriteRbsp [BuildProfile] (p : Walk Unit) (rbsp : List UInt8) : Outcome (List UInt8) := do
  let (_, _, w) ← p.run (.new rbsp) .new
  let w ← w.writeRbspTrailingBits
  pure w.intoBytes

/-- **A whole rewrite.**  The output is what the walk wrote, and trailing bits. -/
theorem Walk.rewriteRbsp_eq_ok [BuildProfile] {p : Walk Unit} {rbsp out : List UInt8}
    (hout : p.rewriteRbsp rbsp = .ok out) :
    ∃ r bs s, p.run (.new rbsp) .new = .ok ((), r, BitWriter.new.push bs) ∧
      bytesBits out = bs ++ s ∧ IsRbspTrailingBits s := by
  obtain ⟨⟨_, r, w⟩, hp, hout⟩ := Outcome.bind_eq_ok.1 hout
  obtain ⟨w', hw', hout⟩ := Outcome.bind_eq_ok.1 hout
  cases hout
  obtain ⟨k, bs, rfl, rfl⟩ := p.onward hp
  rw [BitWriter.writeRbspTrailingBits_eq] at hw'
  cases hw'
  have hlt : padding ((BitWriter.new.push bs).bit_pos + 1) < 8 := Nat.mod_lt _ (by decide)
  refine ⟨_, bs, _, hp, ?_, _, hlt, rfl⟩
  rw [BitWriter.intoBytes, BitWriter.bytesBits_trailing, BitWriter.bits_push, BitWriter.bits_new,
    List.nil_append]

/-- What is spelt at the front of a bit string is parsed off it. -/
theorem parse_of_spells {q : Rbsp β} {b : β} {bs s : List Bool} (h : q.Spells bs b) :
    q.parse (bs ++ s) = .ok (b, s) := by
  obtain ⟨ts, hts⟩ := h s
  exact parse_of_run hts

end Penflow
