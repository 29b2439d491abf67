import Mathlib.Data.Int.Notation
import Penflow.Encoder.BitIO

/-!
# Token lists through the bit cursors

Everything the patcher reads or writes is a sequence of coded numbers, each `u(n)`, `ue(v)` or
`se(v)`.  Here a whole list of them goes through `BitWriter` and back through `BitReader`, at any bit
offset: what was written is read back and the reader stops where the writer stopped, and what was
read is, written again, the very bits it was read from.

One token is settled first, in front of any rest; the lists are inductions over that.
-/

namespace Penflow

open BitString BitSyntax

/-! ### Kinds and tokens -/

/-- What a call asks `BitReader` for. -/
inductive Kind where
  | u (n : ℕ)
  | ue
  | se
  deriving DecidableEq

namespace Kind

/-- The width `read_bits` and `write_bits` assert. -/
def Asserted : Kind → Prop
  | u n => n ≤ 32
  | ue => True
  | se => True

end Kind

/-- The kind of a token. -/
def kindOf : Token → Kind
  | .u n _ => .u n
  | .ue _ => .ue
  | .se _ => .se

/-- The values that have a code: `n` bits, `u32` but for its last value, `i32` but for its first. -/
def InRange : Token → Prop
  | .u n v => n ≤ 32 ∧ v < 2 ^ n
  | .ue v => v < 2 ^ 32 - 1
  | .se v => -2 ^ 31 < v ∧ v < 2 ^ 31

theorem seCode_lt_iff (v : ℤ) : seCode v < 2 ^ 32 - 1 ↔ -2 ^ 31 < v ∧ v < 2 ^ 31 := by
  unfold seCode
  split <;> omega

variable [BuildProfile]

/-- One read of the kind asked for. -/
def readToken : Kind → BitReader → Outcome (Token × BitReader)
  | .u n, r => do
    let (v, r) ← r.readBits n
    pure (.u n v, r)
  | .ue, r => do
    let (v, r) ← r.readUe
    pure (.ue v, r)
  | .se, r => do
    let (v, r) ← r.readSe
    pure (.se v, r)

/-- The reads of a list of kinds, one after the other. -/
def readTokens : List Kind → BitReader → Outcome (List Token × BitReader)
  | [], r => pure ([], r)
  | k :: ks, r => do
    let (t, r) ← readToken k r
    let (ts, r) ← readTokens ks r
    pure (t :: ts, r)

/-- One write. -/
def writeToken : Token → BitWriter → Outcome BitWriter
  | .u n v, w => w.writeBits v n
  | .ue v, w => w.writeUe v
  | .se v, w => w.writeSe v

/-- The writes of a list of tokens, one after the other. -/
def writeTokens : List Token → BitWriter → Outcome BitWriter
  | [], w => pure w
  | t :: ts, w => do
    let w ← writeToken t w
    writeTokens ts w

/-! ### Writing -/

/-- A value in range is written as its code. -/
theorem writeToken_eq {t : Token} (h : InRange t) (w : BitWriter) :
    writeToken t w = .ok (w.push t.bits) := by
  cases t with
  | u n v => exact w.writeBits_eq v h.1
  | ue v => exact w.writeUe_eq h
  | se v => exact w.writeSe_eq ((seCode_lt_iff v).2 h)

theorem writeTokens_eq {ts : List Token} (h : ∀ t ∈ ts, InRange t) (w : BitWriter) :
    writeTokens ts w = .ok (w.push (tokenBits ts)) := by
  induction ts generalizing w with
  | nil => rfl
  | cons t ts ih =>
      rw [writeTokens, writeToken_eq (h t List.mem_cons_self)]
      refine (ih (fun u hu => h u (List.mem_cons_of_mem t hu)) _).trans ?_
      rw [BitWriter.push_push, tokenBits_cons]

/-! ### Reading -/

/-- **One token.**  In front of any rest its code is read back, and the cursor moves over exactly
the code. -/
theorem readToken_of_rest {t : Token} (h : InRange t) {r : BitReader} {s : List Bool}
    (hrest : r.rest = t.bits ++ s) :
    readToken (kindOf t) r = .ok (t, r.skip t.bits.length) := by
  have hlen : r.rest.length - s.length = t.bits.length := by
    rw [hrest, List.length_append, Nat.add_sub_cancel]
  cases t with
  | u n v =>
      have hread := natRead_append h.2 s
      rw [kindOf, readToken, BitReader.readBits_eq h.1, hrest]
      simp only [Token.bits, hread, natBits_length]
      rfl
  | ue v =>
      have hread := ueRead_append h s
      rw [kindOf, readToken, BitReader.readUe_eq, hrest]
      rw [hrest] at hlen
      simp only [Token.bits] at hlen ⊢
      simp only [hread, hlen]
      rfl
  | se v =>
      have hread := seRead_append ((seCode_lt_iff v).2 h) s
      rw [kindOf, readToken, BitReader.readSe_eq, hrest]
      rw [hrest] at hlen
      simp only [Token.bits] at hlen ⊢
      simp only [hread, hlen]
      rfl

/-- What a read of one token returned: a value in range, of the kind asked for, whose code stood
under the cursor. -/
theorem readToken_eq_ok {k : Kind} (hk : k.Asserted) {r r' : BitReader} {t : Token}
    (h : readToken k r = .ok (t, r')) :
    kindOf t = k ∧ InRange t ∧ r' = r.skip t.bits.length ∧ r.rest = t.bits ++ r'.rest := by
  cases k with
  | u n =>
      obtain ⟨x, hread, hret⟩ := Outcome.bind_eq_ok.1 h
      cases hret
      rw [BitReader.readBits_eq hk] at hread
      cases hnat : natRead n r.rest with
      | none => simp [hnat] at hread
      | some y =>
          obtain ⟨hbits, hlt⟩ := natRead_eq_some hnat
          simp only [hnat] at hread
          cases hread
          refine ⟨rfl, ⟨hk, hlt⟩, ?_, ?_⟩
          · rw [Token.bits, natBits_length]
          · have hrest := BitReader.rest_skip_of_append hbits
            rw [natBits_length] at hrest
            rw [hrest]
            exact hbits
  | ue =>
      obtain ⟨x, hread, hret⟩ := Outcome.bind_eq_ok.1 h
      cases hret
      rw [BitReader.readUe_eq] at hread
      cases hue : ueRead r.rest with
      | none => simp [hue] at hread
      | some y =>
          obtain ⟨hbits, hlt⟩ := ueRead_eq_some hue
          have hlen : r.rest.length - y.2.length = (ueBits y.1).length := by
            rw [hbits, List.length_append, Nat.add_sub_cancel]
          simp only [hue, hlen] at hread
          cases hread
          refine ⟨rfl, hlt, rfl, ?_⟩
          rw [BitReader.rest_skip_of_append hbits]
          exact hbits
  | se =>
      obtain ⟨x, hread, hret⟩ := Outcome.bind_eq_ok.1 h
      cases hret
      rw [BitReader.readSe_eq] at hread
      cases hse : seRead r.rest with
      | none => simp [hse] at hread
      | some y =>
          obtain ⟨hbits, hlt⟩ := seRead_eq_some hse
          have hlen : r.rest.length - y.2.length = (seBits y.1).length := by
            rw [hbits, List.length_append, Nat.add_sub_cancel]
          simp only [hse, hlen] at hread
          cases hread
          refine ⟨rfl, (seCode_lt_iff y.1).1 hlt, rfl, ?_⟩
          rw [BitReader.rest_skip_of_append hbits]
          exact hbits

/-- A list of tokens is read back one by one. -/
theorem readTokens_of_rest {ts : List Token} (h : ∀ t ∈ ts, InRange t) {r : BitReader}
    {s : List Bool} (hrest : r.rest = tokenBits ts ++ s) :
    readTokens (ts.map kindOf) r = .ok (ts, r.skip (tokenBits ts).length) := by
  induction ts generalizing r with
  | nil => rfl
  | cons t ts ih =>
      rw [tokenBits_cons, List.append_assoc] at hrest
      have hnext : (r.skip t.bits.length).rest = tokenBits ts ++ s :=
        BitReader.rest_skip_of_append hrest
      rw [List.map_cons, readTokens, readToken_of_rest (h t List.mem_cons_self) hrest]
      show (readTokens (ts.map kindOf) (r.skip t.bits.length) >>= fun x =>
        pure (t :: x.1, x.2)) = _
      rw [ih (fun u hu => h u (List.mem_cons_of_mem t hu)) hnext, tokenBits_cons,
        List.length_append, ← BitReader.skip_skip]
      rfl

/-- What a list of reads returned, and where it stood. -/
theorem readTokens_eq_ok {ks : List Kind} (hk : ∀ k ∈ ks, k.Asserted) {r r' : BitReader}
    {ts : List Token} (h : readTokens ks r = .ok (ts, r')) :
    ts.map kindOf = ks ∧ (∀ t ∈ ts, InRange t) ∧ r' = r.skip (tokenBits ts).length ∧
      r.rest = tokenBits ts ++ r'.rest := by
  induction ks generalizing r ts with
  | nil =>
      cases h
      exact ⟨rfl, by simp, rfl, rfl⟩
  | cons k ks ih =>
      obtain ⟨⟨t, r₁⟩, hread, h⟩ := Outcome.bind_eq_ok.1 h
      obtain ⟨⟨us, r₂⟩, hreads, h⟩ := Outcome.bind_eq_ok.1 h
      cases h
      obtain ⟨hkind, hin, hr₁, hrest₁⟩ := readToken_eq_ok (hk k List.mem_cons_self) hread
      obtain ⟨hkinds, hins, hr', hrest'⟩ :=
        ih (fun j hj => hk j (List.mem_cons_of_mem k hj)) hreads
      refine ⟨by rw [List.map_cons, hkind, hkinds], ?_, ?_, ?_⟩
      · intro u hu
        rcases List.mem_cons.1 hu with rfl | hu
        · exact hin
        · exact hins u hu
      · rw [hr', hr₁, BitReader.skip_skip, tokenBits_cons, List.length_append]
      · rw [hrest₁, hrest', tokenBits_cons, List.append_assoc]

/-! ### Both ways -/

omit [BuildProfile] in
/-- Over the bytes of a writer, a reader put where `w` stood has before it what was written
since. -/
theorem rest_of_pushed (w : BitWriter) (bs more : List Bool) :
    ∃ s, (⟨((w.push bs).push more).intoBytes, w.bit_pos⟩ : BitReader).rest = bs ++ s := by
  refine ⟨more ++ List.replicate (padding ((w.push bs).push more).bit_pos) false, ?_⟩
  have hbytes := ((w.push bs).push more).bytesBits_bytes
  rw [BitWriter.bits_push, BitWriter.bits_push, List.append_assoc, List.append_assoc] at hbytes
  rw [BitReader.rest]
  show (bytesBits ((w.push bs).push more).bytes).drop w.bit_pos = _
  rw [hbytes, List.drop_left' w.bits_length]

/-- **The bit codec, both ways.**  Tokens in range, written after any earlier bits and followed by
any later ones, are read back as they were and the reader stops where the writer did; and whatever a
list of reads returned is in range, of the kinds asked for, and written again gives the bits that
were read. -/
theorem bitCodec_inverse :
    (∀ (w : BitWriter) (ts : List Token), (∀ t ∈ ts, InRange t) →
      ∃ w', writeTokens ts w = .ok w' ∧ ∀ more : List Bool,
        readTokens (ts.map kindOf) ⟨(w'.push more).intoBytes, w.bit_pos⟩ =
          .ok (ts, ⟨(w'.push more).intoBytes, w'.bit_pos⟩)) ∧
    (∀ (r r' : BitReader) (ks : List Kind) (ts : List Token), (∀ k ∈ ks, k.Asserted) →
      readTokens ks r = .ok (ts, r') →
      ts.map kindOf = ks ∧ (∀ t ∈ ts, InRange t) ∧ r'.bytes = r.bytes ∧ r.bit_pos ≤ r'.bit_pos ∧
        ∀ w : BitWriter, ∃ w', writeTokens ts w = .ok w' ∧
          w'.bits = w.bits ++ r.rest.take (r'.bit_pos - r.bit_pos) ∧
          w'.bit_pos = w.bit_pos + (r'.bit_pos - r.bit_pos)) := by
  constructor
  · intro w ts hts
    refine ⟨w.push (tokenBits ts), writeTokens_eq hts w, ?_⟩
    intro more
    obtain ⟨s, hrest⟩ := rest_of_pushed w (tokenBits ts) more
    rw [readTokens_of_rest hts hrest, BitWriter.bit_pos_push]
    rfl
  · intro r r' ks ts hks hread
    obtain ⟨hkinds, hins, rfl, hrest⟩ := readTokens_eq_ok hks hread
    have hpos : (r.skip (tokenBits ts).length).bit_pos - r.bit_pos = (tokenBits ts).length := by
      rw [BitReader.skip_bit_pos, Nat.add_sub_cancel_left]
    refine ⟨hkinds, hins, rfl, Nat.le_add_right _ _, ?_⟩
    intro w
    refine ⟨w.push (tokenBits ts), writeTokens_eq hins w, ?_, ?_⟩
    · rw [hpos, BitWriter.bits_push, hrest, List.take_left' rfl]
    · rw [hpos, BitWriter.bit_pos_push]

omit [BuildProfile] in
theorem bitCodec_inverse_mixed : letI : BuildProfile := ⟨true⟩
    (∃ w', writeTokens [.u 3 5, .ue 300, .se (-7)] (BitWriter.new.push [true]) = .ok w' ∧
      readTokens [.u 3, .ue, .se] ⟨w'.intoBytes, 1⟩ =
        .ok ([.u 3 5, .ue 300, .se (-7)], ⟨w'.intoBytes, w'.bit_pos⟩)) ∧
    (readTokens [.ue, .ue, .ue] ⟨[0xA6], 0⟩ = .ok ([.ue 0, .ue 1, .ue 2], ⟨[0xA6], 7⟩) ∧
      ∃ w', writeTokens [.ue 0, .ue 1, .ue 2] BitWriter.new = .ok w' ∧ w'.bit_pos = 7) := by
  let _ : BuildProfile := ⟨true⟩
  constructor
  · obtain ⟨w', hwrite, hread⟩ := bitCodec_inverse.1 (BitWriter.new.push [true])
      [.u 3 5, .ue 300, .se (-7)] (by simp [InRange])
    exact ⟨w', hwrite, hread []⟩
  · have hread : readTokens [.ue, .ue, .ue] ⟨[0xA6], 0⟩ =
        .ok ([.ue 0, .ue 1, .ue 2], ⟨[0xA6], 7⟩) := rfl
    obtain ⟨-, -, -, -, hwrite⟩ :=
      bitCodec_inverse.2 _ _ _ _ (by simp [Kind.Asserted]) hread
    obtain ⟨w', heq, -, hpos⟩ := hwrite BitWriter.new
    exact ⟨hread, w', heq, hpos⟩

end Penflow
