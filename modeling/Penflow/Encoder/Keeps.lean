import Penflow.Encoder.Walk

/-!
# Walks on their own output

`Takes p bs a cs` says what a walk does at one place whatever comes behind it: it takes the bits
`bs`, returns `a` and writes the bits `cs`.  A walk *keeps* `bs` when it writes what it takes.

Two classes of walks are built from this.  A `Verbatim` walk keeps everything it reads.  A `Stable`
walk may change what it reads, but it keeps what it wrote: run on its own output it does the same
again, which is what `Stable.rewriteRbsp_idem` says of a whole rewrite.
-/

namespace Penflow

open BitString BitSyntax SyntaxReader

variable {α β γ : Type}

/-- In front of anything, `p` takes `bs`, returns `a` and writes `cs`. -/
def Takes (p : Walk α) (bs : List Bool) (a : α) (cs : List Bool) : Prop :=
  ∀ (r : BitReader) (w : BitWriter) (s : List Bool), r.rest = bs ++ s →
    p.run r w = .ok (a, r.skip bs.length, w.push cs)

/-- `p` writes the bits it takes. -/
abbrev Keeps (p : Walk α) (bs : List Bool) (a : α) : Prop := Takes p bs a bs

/-- Every run of `p` that succeeds writes what it reads. -/
def Verbatim (p : Walk α) : Prop :=
  ∀ r w x, p.run r w = .ok x → ∃ bs s, r.rest = bs ++ s ∧ Keeps p bs x.1

/-- Every run of `p` that succeeds writes what `p` keeps. -/
def Stable (p : Walk α) : Prop :=
  ∀ r w x, p.run r w = .ok x → ∃ bs cs s, r.rest = bs ++ s ∧ Takes p bs x.1 cs ∧ Keeps p cs x.1

theorem Verbatim.stable {p : Walk α} (h : Verbatim p) : Stable p := by
  intro r w x hx
  obtain ⟨bs, s, hrest, hkeeps⟩ := h r w x hx
  exact ⟨bs, bs, s, hrest, hkeeps, hkeeps⟩

/-! ### What a walk takes -/

theorem takes_pure (a : α) : Takes (pure a : Walk α) [] a [] := fun _ _ _ _ => rfl

/-- After what `p` takes, the walk goes on with what is behind it. -/
theorem Takes.run_bind {p : Walk α} {f : α → Walk β} {bs cs s : List Bool} {a : α}
    (hp : Takes p bs a cs) {r : BitReader} (w : BitWriter) (hrest : r.rest = bs ++ s) :
    (p >>= f).run r w = (f a).run (r.skip bs.length) (w.push cs) ∧
      (r.skip bs.length).rest = s := by
  rw [Walk.run_bind, hp r w s hrest]
  exact ⟨rfl, BitReader.rest_skip_of_append hrest⟩

theorem Takes.bind {p : Walk α} {f : α → Walk β} {bs cs bs' cs' : List Bool} {a : α} {b : β}
    (hp : Takes p bs a cs) (hf : Takes (f a) bs' b cs') :
    Takes (p >>= f) (bs ++ bs') b (cs ++ cs') := by
  intro r w s hrest
  rw [List.append_assoc] at hrest
  obtain ⟨hrun, hnext⟩ := hp.run_bind (f := f) w hrest
  rw [hrun, hf _ _ s hnext, BitReader.skip_skip, BitWriter.push_push, List.length_append]

/-- A walk that only reads takes what its syntax spells. -/
theorem Reads.takes {p : Walk α} {q : Rbsp β} {g : β → α} {bs : List Bool} {b : β}
    (h : Reads p q g) (hs : q.Spells bs b) : Takes p bs (g b) [] := by
  intro r w s hrest
  obtain ⟨ts, hq⟩ := hs s
  have hbits : bs = tokenBits ts := List.append_cancel_right (q.consumes hq)
  have hrun := h r w
  rw [hrest, hq] at hrun
  obtain ⟨cs, hcs, hp⟩ := hrun
  subst hcs
  rw [hp, hbits]

/-- What such a walk has read, its syntax spells. -/
theorem Reads.spells_of_run {p : Walk α} {q : Rbsp β} {g : β → α} (h : Reads p q g) {r : BitReader}
    {w : BitWriter} {x : α × BitReader × BitWriter} (hx : p.run r w = .ok x) :
    ∃ bs b s, r.rest = bs ++ s ∧ q.Spells bs b ∧ q.Yields b ∧ x.1 = g b := by
  obtain ⟨b, ts, s, bs, hq, -, ha, -, -⟩ := h.of_run hx
  exact ⟨tokenBits ts, b, s, q.consumes hq, SyntaxReader.spells_of_run hq, ⟨_, _, _, hq⟩, ha⟩

/-- A walk that only writes. -/
theorem takes_of_write {p : Walk Unit} {cs : List Bool}
    (h : ∀ r w, p.run r w = .ok ((), r, w.push cs)) : Takes p [] () cs := fun r w _ _ => h r w

theorem takes_writeBits [BuildProfile] {v n : ℕ} (hn : n ≤ 32) :
    Takes (Walk.writeBits v n) [] () (natBits n v) := takes_of_write (writeBits_run hn v)

theorem takes_writeUe [BuildProfile] {v : ℕ} (hv : v < 2 ^ 32 - 1) :
    Takes (Walk.writeUe v) [] () (ueBits v) := by
  refine takes_of_write fun r w => ?_
  show (w.writeUe v).bind _ = _
  rw [BitWriter.writeUe_eq hv]
  rfl

theorem takes_writeSe [BuildProfile] {v : ℤ} (hv : seCode v < 2 ^ 32 - 1) :
    Takes (Walk.writeSe v) [] () (seBits v) := by
  refine takes_of_write fun r w => ?_
  show (w.writeSe v).bind _ = _
  rw [BitWriter.writeSe_eq hv]
  rfl

/-! ### Verbatim walks -/

theorem verbatim_pure (a : α) : Verbatim (pure a : Walk α) := by
  intro r w x hx
  cases hx
  exact ⟨[], r.rest, rfl, takes_pure a⟩

/-- What a verbatim walk has written is what it went past. -/
theorem Verbatim.of_run {p : Walk α} (h : Verbatim p) {r r' : BitReader} {w w' : BitWriter} {a : α}
    (hp : p.run r w = .ok (a, r', w')) : ∃ bs, r.rest = bs ++ r'.rest ∧ w' = w.push bs := by
  obtain ⟨bs, s, hrest, hkeeps⟩ := h r w _ hp
  rw [hkeeps r w s hrest] at hp
  cases hp
  refine ⟨bs, ?_, rfl⟩
  rw [BitReader.rest_skip_of_append hrest, hrest]

theorem verbatim_ofOutcome (x : Outcome α) : Verbatim (Walk.ofOutcome x) := by
  intro r w y hy
  obtain ⟨a, rfl, hret⟩ := Outcome.bind_eq_ok.1 hy
  cases hret
  exact ⟨[], r.rest, rfl, fun _ _ _ _ => rfl⟩

theorem Verbatim.bind {p : Walk α} {f : α → Walk β} (hp : Verbatim p) (hf : ∀ a, Verbatim (f a)) :
    Verbatim (p >>= f) := by
  intro r w x hx
  obtain ⟨⟨a, r₁, w₁⟩, hfst, -⟩ := Outcome.bind_eq_ok.1 hx
  obtain ⟨bs, s, hrest, hkeeps⟩ := hp r w _ hfst
  obtain ⟨hrun, hnext⟩ := hkeeps.run_bind (f := f) w hrest
  obtain ⟨cs, s', hrest', hkeeps'⟩ := hf a _ _ _ (hrun ▸ hx)
  refine ⟨bs ++ cs, s', ?_, hkeeps.bind hkeeps'⟩
  rw [hrest, ← hnext, hrest', List.append_assoc]

/-- A computation that succeeds, then the rest. -/
theorem Verbatim.compute {x : Outcome α} {v : α} (hx : x = .ok v) {f : α → Walk β}
    (h : Verbatim (f v)) : Verbatim (Walk.ofOutcome x >>= f) := by
  subst hx
  exact h

/-- Reading a code and writing it back. -/
theorem verbatim_of_code {p : Walk β} {p' : β → Walk Unit} {q : Rbsp β} (code : β → List Bool)
    (hr : Reads p q id) (hq : ∀ {s v ts s'}, q.run s = .ok (v, ts, s') → tokenBits ts = code v)
    (hw : ∀ v, q.Yields v → Takes (p' v) [] () (code v)) :
    Verbatim (do let v ← p; p' v; pure v) := by
  intro r w x hx
  obtain ⟨⟨v, r₁, w₁⟩, hrun, hnext⟩ := Outcome.bind_eq_ok.1 hx
  obtain ⟨v', ts, s, bs, hread, -, hv, -, -⟩ := hr.of_run hrun
  obtain rfl : v = v' := hv
  have htake : Takes p (code v) v [] := hq hread ▸ hr.takes (SyntaxReader.spells_of_run hread)
  have hkeeps : Keeps (do let v ← p; p' v; pure v) (code v) v := by
    have hwrite := (hw v ⟨_, _, _, hread⟩).bind (f := fun _ => pure v) (takes_pure v)
    have h := htake.bind (f := fun v => do p' v; pure v) hwrite
    rwa [List.append_nil, List.append_nil, List.nil_append] at h
  have hrest : r.rest = code v ++ s := hq hread ▸ q.consumes hread
  rw [hkeeps r w s hrest] at hx
  cases hx
  exact ⟨code v, s, hrest, hkeeps⟩

section Codes

variable [BuildProfile]

theorem verbatim_copyBits {n : ℕ} (hn : n ≤ 32) : Verbatim (Walk.copyBits n) := by
  refine verbatim_of_code (natBits n) (reads_bits hn) ?_ fun v _ => takes_writeBits hn
  intro s v ts s' h
  rw [u_tokens h, tokenBits_cons, tokenBits_nil, List.append_nil, Token.bits]

theorem verbatim_copyUe : Verbatim Walk.copyUe := by
  refine verbatim_of_code ueBits reads_ue ?_ fun v hv => takes_writeUe (ue_yields hv)
  intro s v ts s' h
  rw [ue_tokens h, tokenBits_cons, tokenBits_nil, List.append_nil, Token.bits]

theorem verbatim_copySe : Verbatim Walk.copySe := by
  refine verbatim_of_code seBits reads_se ?_ fun v hv => takes_writeSe (se_yields hv)
  intro s v ts s' h
  rw [se_tokens h, tokenBits_cons, tokenBits_nil, List.append_nil, Token.bits]

/-- A number of `n` bits copied, then the rest. -/
theorem Verbatim.bits {n : ℕ} (hn : n ≤ 32) {f : ℕ → Walk α} (h : ∀ v, Verbatim (f v)) :
    Verbatim (Walk.copyBits n >>= f) := (verbatim_copyBits hn).bind h

/-- An unsigned Exp-Golomb code copied, then the rest. -/
theorem Verbatim.ue {f : ℕ → Walk α} (h : ∀ v, Verbatim (f v)) : Verbatim (Walk.copyUe >>= f) :=
  verbatim_copyUe.bind h

/-- A signed Exp-Golomb code copied, then the rest. -/
theorem Verbatim.se {f : ℤ → Walk α} (h : ∀ v, Verbatim (f v)) : Verbatim (Walk.copySe >>= f) :=
  verbatim_copySe.bind h

theorem verbatim_passBits {n : ℕ} (hn : n ≤ 32) : Verbatim (Walk.passBits n) :=
  .bits hn fun _ => verbatim_pure ()

theorem verbatim_passUe : Verbatim Walk.passUe := .ue fun _ => verbatim_pure ()

theorem verbatim_passSe : Verbatim Walk.passSe := .se fun _ => verbatim_pure ()

end Codes

theorem Verbatim.onlyIf {c : Prop} [Decidable c] {p : Walk Unit} (h : Verbatim p) :
    Verbatim (Walk.onlyIf c p) := by
  rw [Walk.onlyIf]
  split
  · exact h
  · exact verbatim_pure ()

theorem verbatim_refuseIf {c : Prop} [Decidable c] : Verbatim (Walk.refuseIf c) := by
  rw [Walk.refuseIf]
  split
  · exact verbatim_ofOutcome _
  · exact verbatim_pure ()

theorem Verbatim.times {p : Walk Unit} (h : Verbatim p) (n : ℕ) : Verbatim (Walk.times n p) := by
  induction n with
  | zero => exact verbatim_pure ()
  | succ n ih => exact h.bind fun _ => ih

theorem Verbatim.flagged [BuildProfile] {p : Walk Unit} (h : Verbatim p) :
    Verbatim (Walk.flagged p) :=
  .bits (by decide) fun _ => h.onlyIf.bind fun _ => verbatim_pure _

/-! ### Stable walks -/

theorem Stable.bind {p : Walk α} {f : α → Walk β} (hp : Stable p) (hf : ∀ a, Stable (f a)) :
    Stable (p >>= f) := by
  intro r w x hx
  obtain ⟨⟨a, r₁, w₁⟩, hfst, -⟩ := Outcome.bind_eq_ok.1 hx
  obtain ⟨bs, cs, s, hrest, htakes, hkeeps⟩ := hp r w _ hfst
  obtain ⟨hrun, hnext⟩ := htakes.run_bind (f := f) w hrest
  obtain ⟨bs', cs', s', hrest', htakes', hkeeps'⟩ := hf a _ _ _ (hrun ▸ hx)
  refine ⟨bs ++ bs', cs ++ cs', s', ?_, htakes.bind htakes', hkeeps.bind hkeeps'⟩
  rw [hrest, ← hnext, hrest', List.append_assoc]

/-- A block copied as it is, then the rest. -/
theorem Stable.copy {p : Walk α} {f : α → Walk β} (hp : Verbatim p) (hf : ∀ a, Stable (f a)) :
    Stable (p >>= f) := hp.stable.bind hf

theorem Stable.times {p : Walk Unit} (h : Stable p) (n : ℕ) : Stable (Walk.times n p) := by
  induction n with
  | zero => exact (verbatim_pure ()).stable
  | succ n ih => exact h.bind fun _ => ih

theorem Stable.onlyIf {c : Prop} [Decidable c] {p : Walk Unit} (h : Stable p) :
    Stable (Walk.onlyIf c p) := by
  rw [Walk.onlyIf]
  split
  · exact h
  · exact (verbatim_pure ()).stable

theorem Stable.flagged [BuildProfile] {p : Walk Unit} (h : Stable p) : Stable (Walk.flagged p) :=
  .copy (verbatim_copyBits (by decide)) fun _ => h.onlyIf.bind fun _ => (verbatim_pure _).stable

/-- A computation that succeeds, then the rest. -/
theorem Stable.compute {x : Outcome α} {v : α} (hx : x = .ok v) {f : α → Walk β}
    (h : Stable (f v)) : Stable (Walk.ofOutcome x >>= f) := by
  subst hx
  exact h

/-- What a walk writes in the place of what it read, it reads again and writes again. -/
theorem Stable.replace {p : Walk α} {q : Rbsp γ} {g : γ → α} {p' : Walk Unit} {c : γ}
    {p₂ : Walk β} (hp : Reads p q g) (hw : Writes p' q c) (h₂ : Stable p₂) :
    Stable (p >>= fun _ => p' >>= fun _ => p₂) := by
  obtain ⟨cs, hspell, hwrite⟩ := hw
  have hwrites : Takes p' [] () cs := takes_of_write hwrite
  intro r w x hx
  obtain ⟨⟨a, r₁, w₁⟩, hfst, -⟩ := Outcome.bind_eq_ok.1 hx
  obtain ⟨bs, b, s, hrest, hbs, -, -⟩ := hp.spells_of_run hfst
  obtain ⟨hrun, hnext⟩ := (hp.takes hbs).run_bind (f := fun _ => p' >>= fun _ => p₂) w hrest
  obtain ⟨hrun', hnext'⟩ :=
    hwrites.run_bind (f := fun _ => p₂) (w.push []) (List.nil_append _).symm
  rw [hrun, hrun'] at hx
  obtain ⟨bs', cs', s', hrest', htakes, hkeeps⟩ := h₂ _ _ _ hx
  refine ⟨bs ++ bs', cs ++ cs', s', ?_, ?_, ?_⟩
  · rw [hrest, ← hnext, ← hnext', hrest', List.append_assoc]
  · exact (hp.takes hbs).bind (hwrites.bind (f := fun _ => p₂) htakes)
  · exact (hp.takes hspell).bind (hwrites.bind (f := fun _ => p₂) hkeeps)

/-- **A block the output always has.**  The made-up block is one the copying walk keeps. -/
theorem Stable.always [BuildProfile] {p p' : Walk Unit} {cs : List Bool} (h : Stable p)
    (hw : Takes p' [] () cs) (hkeeps : Keeps p cs ()) :
    Stable (do let flag ← Walk.readBits 1; Walk.writeBits 1 1; if flag = 1 then p else p') := by
  have hflag : ∀ {bs v bs' ds}, (Rbsp.u 1).Spells bs v →
      Takes (if v = 1 then p else p') bs' () ds → Takes (do
        let flag ← Walk.readBits 1
        Walk.writeBits 1 1
        if flag = 1 then p else p') (bs ++ bs') () (natBits 1 1 ++ ds) :=
    fun hspell htakes => ((reads_bits (by decide)).takes hspell).bind
      ((takes_writeBits (by decide)).bind htakes)
  have hone : ∀ {ds}, Keeps p ds () → Keeps (do
      let flag ← Walk.readBits 1
      Walk.writeBits 1 1
      if flag = 1 then p else p') (natBits 1 1 ++ ds) () := by
    intro ds hds
    refine hflag (spells_u (v := 1) (by decide)) ?_
    rwa [if_pos rfl]
  intro r w x hx
  obtain ⟨⟨v, r₁, w₁⟩, hfst, hx'⟩ := Outcome.bind_eq_ok.1 hx
  obtain ⟨bs, v', s, hrest, hspell, -, hv⟩ := (reads_bits (by decide)).spells_of_run hfst
  obtain rfl : v = v' := hv
  by_cases hset : v = 1
  · -- the input has the block
    obtain ⟨hrun, hnext⟩ := ((reads_bits (by decide)).takes hspell).run_bind
      (f := fun flag => Walk.writeBits 1 1 >>= fun _ => if flag = 1 then p else p') w hrest
    obtain ⟨hrun', hnext'⟩ := (takes_writeBits (v := 1) (n := 1) (by decide)).run_bind
      (f := fun _ => if v = 1 then p else p') (w.push []) (List.nil_append _).symm
    rw [hrun, id, hrun', if_pos hset] at hx
    obtain ⟨bs', ds, s', hrest', htakes, hkeeps'⟩ := h _ _ _ hx
    refine ⟨bs ++ bs', natBits 1 1 ++ ds, s', ?_, hflag hspell ?_, hone hkeeps'⟩
    · rw [hrest, ← hnext, ← hnext', hrest', List.append_assoc]
    · rwa [if_pos hset]
  · refine ⟨bs ++ [], natBits 1 1 ++ cs, s, ?_, hflag hspell ?_, hone hkeeps⟩
    · rw [hrest, List.append_nil]
    · rwa [if_neg hset]

/-- A flag the walk goes on from only when it is 0. -/
theorem stable_copyZeroFlag [BuildProfile] : Stable Walk.copyZeroFlag := by
  have hzero : ∀ {bs v}, (Rbsp.u 1).Spells bs v → v ≠ 1 →
      Takes Walk.copyZeroFlag bs () (natBits 1 0) := by
    intro bs v hspell hne
    have hwrite : Takes (Walk.refuseIf (v = 1) >>= fun _ => Walk.writeBits 0 1) [] ()
        (natBits 1 0) := by
      rw [Walk.refuseIf, if_neg hne]
      exact takes_writeBits (by decide)
    have h := ((reads_bits (by decide)).takes hspell).bind
      (f := fun flag => Walk.refuseIf (flag = 1) >>= fun _ => Walk.writeBits 0 1) hwrite
    rwa [List.append_nil] at h
  intro r w x hx
  obtain ⟨⟨v, r₁, w₁⟩, hfst, -⟩ := Outcome.bind_eq_ok.1 hx
  obtain ⟨bs, v', s, hrest, hspell, -, hv⟩ := (reads_bits (by decide)).spells_of_run hfst
  obtain rfl : v = v' := hv
  by_cases hone : v = 1
  · -- the walk refuses
    have hrun := ((reads_bits (by decide)).takes hspell).run_bind
      (f := fun flag => Walk.refuseIf (flag = 1) >>= fun _ => Walk.writeBits 0 1) w hrest
    have hx' := hrun.1.symm.trans hx
    rw [id, Walk.refuseIf, if_pos hone] at hx'
    cases hx'
  · exact ⟨bs, natBits 1 0, s, hrest, hzero hspell hone, hzero (spells_u (by decide)) (by decide)⟩

/-! ### Blocks made up -/

/-- `p` keeps what `p'` writes. -/
def Absorbs (p p' : Walk Unit) : Prop := ∃ cs, Takes p' [] () cs ∧ Keeps p cs ()

section Absorbs

variable [BuildProfile]

theorem keeps_zero : Keeps (Walk.copyBits 1) (natBits 1 0) 0 := by
  have hwrite : Takes (do Walk.writeBits 0 1; pure 0) [] 0 (natBits 1 0 ++ []) :=
    (takes_writeBits (by decide)).bind (takes_pure 0)
  exact ((reads_bits (by decide)).takes (spells_u (by decide))).bind hwrite

/-- A block that is not there. -/
theorem keeps_absent {p : Walk Unit} : Keeps (Walk.flagged p) (natBits 1 0) 0 :=
  keeps_zero.bind ((takes_pure ()).bind (takes_pure 0))

theorem Absorbs.next {p : Walk ℕ} {f : ℕ → Walk Unit} {p' : Walk Unit}
    (hp : Keeps p (natBits 1 0) 0) (h : Absorbs (f 0) p') :
    Absorbs (p >>= f) (Walk.writeBits 0 1 >>= fun _ => p') := by
  obtain ⟨cs, hwrites, hkeeps⟩ := h
  exact ⟨natBits 1 0 ++ cs, (takes_writeBits (by decide)).bind hwrites, hp.bind hkeeps⟩

/-- A block that is not there, then the rest. -/
theorem Absorbs.absent {p p' : Walk Unit} {f : ℕ → Walk Unit} (h : Absorbs (f 0) p') :
    Absorbs (Walk.flagged p >>= f) (Walk.writeBits 0 1 >>= fun _ => p') := .next keeps_absent h

/-- A flag of 0, then the rest. -/
theorem Absorbs.zero {p' : Walk Unit} {f : ℕ → Walk Unit} (h : Absorbs (f 0) p') :
    Absorbs (Walk.copyBits 1 >>= f) (Walk.writeBits 0 1 >>= fun _ => p') := .next keeps_zero h

/-- The last block is not there. -/
theorem absorbs_absent {p : Walk Unit} :
    Absorbs (Walk.flagged p >>= fun _ => pure ()) (Walk.writeBits 0 1) :=
  ⟨natBits 1 0 ++ [], by simpa using takes_writeBits (by decide), keeps_absent.bind (takes_pure ())⟩

end Absorbs

/-- A condition that does not hold. -/
theorem Absorbs.skip {p p' q : Walk Unit} {c : Prop} [Decidable c] (hc : ¬ c) (h : Absorbs p p') :
    Absorbs (Walk.onlyIf c q >>= fun _ => p) p' := by
  rw [Walk.onlyIf, if_neg hc]
  exact h

/-- What replaces a block, then the rest. -/
theorem Absorbs.replace {p : Walk α} {q : Rbsp γ} {g : γ → α} {p' p₂ p₂' : Walk Unit} {c : γ}
    (hp : Reads p q g) (hw : Writes p' q c) (h : Absorbs p₂ p₂') :
    Absorbs (p >>= fun _ => p' >>= fun _ => p₂) (p' >>= fun _ => p₂') := by
  obtain ⟨bs, hspell, hwrite⟩ := hw
  obtain ⟨cs, hwrites, hkeeps⟩ := h
  have hcode : Takes p' [] () bs := takes_of_write hwrite
  exact ⟨bs ++ cs, hcode.bind hwrites, (hp.takes hspell).bind (hcode.bind hkeeps)⟩

/-- What replaces the last block. -/
theorem absorbs_replace {p : Walk α} {q : Rbsp γ} {g : γ → α} {p' : Walk Unit} {c : γ}
    (hp : Reads p q g) (hw : Writes p' q c) :
    Absorbs (p >>= fun _ => p' >>= fun _ => pure ()) p' := by
  obtain ⟨bs, hspell, hwrite⟩ := hw
  have hcode : Takes p' [] () bs := takes_of_write hwrite
  refine ⟨bs, hcode, ?_⟩
  have h := (hp.takes hspell).bind (f := fun _ => p' >>= fun _ => pure ())
    (hcode.bind (f := fun _ => pure ()) (takes_pure ()))
  rwa [List.append_nil, List.append_nil, List.nil_append] at h

/-! ### A whole rewrite -/

/-- **A stable rewrite is idempotent.**  The walk keeps what it wrote, so the trailing bits come to
stand where they stood. -/
theorem Stable.rewriteRbsp_idem [BuildProfile] {p : Walk Unit} (h : Stable p) {rbsp out : List UInt8}
    (hout : p.rewriteRbsp rbsp = .ok out) : p.rewriteRbsp out = .ok out := by
  obtain ⟨⟨_, r, w⟩, hx, hret⟩ := Outcome.bind_eq_ok.1 hout
  obtain ⟨bs, cs, s, hrest, htakes, hkeeps⟩ := h _ _ _ hx
  rw [htakes _ _ _ hrest] at hx
  cases hx
  obtain ⟨w', hw, hret⟩ := Outcome.bind_eq_ok.1 hret
  cases hret
  have hwritten := hw
  rw [BitWriter.writeRbspTrailingBits_eq] at hwritten
  cases hwritten
  -- the output begins with what the walk wrote
  have hbits := BitWriter.bytesBits_trailing (BitWriter.new.push cs)
  rw [BitWriter.bits_push, BitWriter.bits_new, List.nil_append, ← BitWriter.intoBytes] at hbits
  rw [Walk.rewriteRbsp, hkeeps _ _ _ ((BitReader.rest_new _).trans hbits)]
  show ((BitWriter.new.push cs).writeRbspTrailingBits >>= fun w => pure w.intoBytes) = _
  rw [hw]
  rfl

end Penflow
