import Penflow.Encoder.HevcSps

/-!
# The HEVC fallback

When the full walk refuses an SPS, `patchHevcSpsRbsp` walks through the decoded picture buffer
triplets only and copies the remaining bits as they are.

Whichever of the two walks ends up writing the output, it begins with the two bytes the input begins
with (`patchHevcSpsRbsp_take_two`): they are copied before anything is changed.
-/

namespace Penflow

open BitString BitSyntax

namespace Walk

/-- The reader as it stands. -/
def reader : Walk BitReader where
  run r w := .ok (r, r, w)
  onward h := by
    cases h
    exact ⟨0, [], rfl, rfl⟩

/-- `r.bytes[r.bit_pos >> 3]; r.bit_pos += 8;` -/
def takeAlignedByte : Walk UInt8 where
  run r w := do
    let b ← index r.bytes (r.bit_pos >>> 3)
    pure (b, r.skip 8, w)
  onward h := by
    obtain ⟨b, -, hret⟩ := Outcome.bind_eq_ok.1 h
    cases hret
    exact ⟨8, [], rfl, rfl⟩

variable [BuildProfile]

/-- `r.read_bits(1)`, an error being an answer. -/
def tryReadBit : Walk (Option ℕ) where
  run r w :=
    match r.readBits 1 with
    | .ok (b, r) => .ok (some b, r, w)
    | .error (.err _) => .ok (none, r, w)
    | .error .panic => .error .panic
  onward {r w a r' w'} h := by
    split at h
    · rename_i b r₁ hread
      cases h
      exact ⟨1, [], BitReader.readBits_skip hread, rfl⟩
    · cases h
      exact ⟨0, [], rfl, rfl⟩
    · cases h

/-- The loop of `copy_remaining_bits`: every turn takes at least one bit, so there are no more turns
than bits. -/
def copyRemainingBitsLoop : ℕ → Walk Unit
  | 0 => pure ()
  | fuel + 1 => do
    let r ← reader
    let total_bits := r.bytes.length * 8
    if r.bit_pos < total_bits then
      if r.bit_pos &&& 7 = 0 ∧ total_bits - r.bit_pos ≥ 8 then do
        let b ← takeAlignedByte
        writeBits b.toNat 8
        copyRemainingBitsLoop fuel
      else do
        let bit ← tryReadBit
        match bit with
        | some b => do
          writeBits b 1
          copyRemainingBitsLoop fuel
        | none => pure ()
    else
      pure ()

def copyRemainingBits : Walk Unit := do
  let r ← reader
  copyRemainingBitsLoop (r.bytes.length * 8)

/-- The walk of `patch_hevc_sps_dpb_only`. -/
def patchHevcSpsDpb : Walk Unit := do
  walkHevcSpsThroughDpb
  copyRemainingBits

end Walk

variable [BuildProfile]

def patchHevcSpsDpbOnly (rbsp : List UInt8) : Outcome (List UInt8) := do
  let (_, _, w) ← Walk.patchHevcSpsDpb.run (.new rbsp) .new
  pure w.intoBytes

def patchHevcSpsRbsp (rbsp : List UInt8) : Outcome (List UInt8) :=
  match patchHevcSpsFull rbsp with
  | .ok v => .ok v
  | .error (.err _) => patchHevcSpsDpbOnly rbsp
  | .error .panic => .error .panic

/-! ### The remaining bits -/

theorem copyRemainingBitsLoop_skip {fuel : ℕ} {r : BitReader} {w : BitWriter}
    (hend : r.rest = []) : (Walk.copyRemainingBitsLoop fuel).run r w = .ok ((), r, w) := by
  cases fuel with
  | zero => rfl
  | succ fuel =>
      have hpos : ¬ r.bit_pos < r.bytes.length * 8 := by
        have hlen := congrArg List.length hend
        rw [BitReader.rest, List.length_drop, bytesBits_length, List.length_nil] at hlen
        omega
      rw [Walk.copyRemainingBitsLoop, Walk.run_bind]
      show (ite (r.bit_pos < r.bytes.length * 8) _ _ : Walk Unit).run r w = _
      rw [if_neg hpos]
      rfl

omit [BuildProfile] in
/-- At a byte boundary the rest begins with the byte under the cursor. -/
theorem rest_of_aligned {r : BitReader} (halign : r.bit_pos % 8 = 0) {b : UInt8}
    (hb : r.bytes[r.bit_pos >>> 3]? = some b) : r.rest = byteBits b ++ (r.skip 8).rest := by
  obtain ⟨hlt, hget⟩ := List.getElem?_eq_some_iff.1 hb
  have hpos : r.bit_pos = 8 * (r.bit_pos >>> 3) := by
    rw [Nat.shiftRight_eq_div_pow]
    omega
  rw [BitReader.rest_skip, BitReader.rest]
  rw [hpos, bytesBits_drop, List.drop_eq_getElem_cons hlt, hget, bytesBits_cons,
    List.drop_left' (byteBits_length b)]

omit [BuildProfile] in
theorem takeAlignedByte_run {r : BitReader} {b : UInt8} (w : BitWriter)
    (hb : r.bytes[r.bit_pos >>> 3]? = some b) :
    Walk.takeAlignedByte.run r w = .ok (b, r.skip 8, w) := by
  show (index r.bytes (r.bit_pos >>> 3)).bind _ = _
  rw [index, hb]
  rfl

theorem tryReadBit_run {r : BitReader} {b : Bool} {s : List Bool} (w : BitWriter)
    (hrest : r.rest = b :: s) : Walk.tryReadBit.run r w = .ok (some b.toNat, r.skip 1, w) := by
  show (match r.readBits 1 with
    | .ok (b, r) => .ok (some b, r, w)
    | .error (.err _) => .ok (none, r, w)
    | .error .panic => .error .panic : Outcome (Option ℕ × BitReader × BitWriter)) = _
  rw [BitReader.readBits_one_eq, hrest]

/-- **The remaining bits are copied as they are.** -/
theorem copyRemainingBitsLoop_run (fuel : ℕ) (r : BitReader) (w : BitWriter)
    (hfuel : r.rest.length ≤ fuel) :
    (Walk.copyRemainingBitsLoop fuel).run r w =
      .ok ((), r.skip r.rest.length, w.push r.rest) := by
  induction fuel generalizing r w with
  | zero =>
      obtain hnil := List.eq_nil_of_length_eq_zero (Nat.le_zero.1 hfuel)
      rw [hnil]
      rfl
  | succ fuel ih =>
      by_cases hnil : r.rest = []
      · rw [copyRemainingBitsLoop_skip hnil, hnil]
        rfl
      have hlen : r.rest.length = 8 * r.bytes.length - r.bit_pos := by
        rw [BitReader.rest, List.length_drop, bytesBits_length]
      have hpos : r.bit_pos < r.bytes.length * 8 := by
        have := List.length_pos_iff.2 hnil
        omega
      rw [Walk.copyRemainingBitsLoop, Walk.run_bind]
      show (ite (r.bit_pos < r.bytes.length * 8) _ _ : Walk Unit).run r w = _
      rw [if_pos hpos]
      by_cases halign : r.bit_pos &&& 7 = 0 ∧ r.bytes.length * 8 - r.bit_pos ≥ 8
      · have hmod : r.bit_pos % 8 = 0 := by
          rw [← Nat.and_two_pow_sub_one_eq_mod r.bit_pos 3]
          exact halign.1
        have hlt : r.bit_pos >>> 3 < r.bytes.length := by
          rw [Nat.shiftRight_eq_div_pow]
          omega
        have hbyte := List.getElem?_eq_getElem hlt
        have hrest := rest_of_aligned hmod hbyte
        have hshort : (r.skip 8).rest.length ≤ fuel := by
          rw [hrest, List.length_append, byteBits_length] at hfuel
          omega
        rw [if_pos halign, Walk.run_bind, takeAlignedByte_run w hbyte]
        show (Walk.writeBits _ 8 >>= fun _ => Walk.copyRemainingBitsLoop fuel).run _ _ = _
        rw [Walk.run_bind, writeBits_run (by decide)]
        refine (ih (r.skip 8) _ hshort).trans ?_
        rw [hrest, List.length_append, byteBits_length, BitReader.skip_skip, BitWriter.push_push]
        rfl
      · obtain ⟨b, s, hrest⟩ := List.exists_cons_of_ne_nil hnil
        have hskip : (r.skip 1).rest = s := by
          rw [BitReader.rest_skip, hrest]
          rfl
        have hshort : (r.skip 1).rest.length ≤ fuel := by
          rw [hrest, List.length_cons] at hfuel
          rw [hskip]
          omega
        have hbit : natBits 1 b.toNat = [b] := by cases b <;> rfl
        rw [if_neg halign, Walk.run_bind, tryReadBit_run w hrest]
        show (Walk.writeBits b.toNat 1 >>= fun _ => Walk.copyRemainingBitsLoop fuel).run _ _ = _
        rw [Walk.run_bind, writeBits_run (by decide), hbit]
        refine (ih (r.skip 1) _ hshort).trans ?_
        rw [hskip, hrest, List.length_cons, BitReader.skip_skip, BitWriter.push_push,
          Nat.add_comm 1]
        rfl

theorem copyRemainingBits_run (r : BitReader) (w : BitWriter) :
    Walk.copyRemainingBits.run r w = .ok ((), r.skip r.rest.length, w.push r.rest) := by
  refine copyRemainingBitsLoop_run (r.bytes.length * 8) r w ?_
  rw [BitReader.rest, List.length_drop, bytesBits_length]
  omega

/-! ### The first bytes stay -/

theorem copyBits_run {n : ℕ} (hn : n ≤ 32) (r : BitReader) (w : BitWriter) :
    (Walk.copyBits n).run r w = match natRead n r.rest with
      | none => .error (.err .notInitialized)
      | some (v, _) => .ok (v, r.skip n, w.push (natBits n v)) := by
  show (r.readBits n >>= fun x => pure (x.1, x.2, w)).bind _ = _
  rw [BitReader.readBits_eq hn]
  cases hread : natRead n r.rest with
  | none => rfl
  | some x =>
      show (w.writeBits x.1 n >>= fun w => pure ((), r.skip n, w)).bind _ = _
      rw [BitWriter.writeBits_eq x.1 hn]
      rfl

/-- Copying a number moves its bits over as they are. -/
theorem copyBits_verbatim {α : Type} {n : ℕ} (hn : n ≤ 32) {p : ℕ → Walk α} {r : BitReader}
    {w : BitWriter} {x : α × BitReader × BitWriter}
    (h : (Walk.copyBits n >>= p).run r w = .ok x) :
    ∃ v, r.rest = natBits n v ++ (r.skip n).rest ∧
      (p v).run (r.skip n) (w.push (natBits n v)) = .ok x := by
  rw [Walk.run_bind, copyBits_run hn] at h
  cases hread : natRead n r.rest with
  | none =>
      rw [hread] at h
      cases h
  | some y =>
      rw [hread] at h
      have hrest := (natRead_eq_some hread).1
      refine ⟨y.1, ?_, h⟩
      rw [BitReader.rest_skip, hrest, List.drop_left' (natBits_length n y.1)]

/-- The first two bytes are four numbers of fixed width. -/
theorem copyHevcSpsLead_verbatim {rbsp : List UInt8} {m : ℕ} {r : BitReader} {w : BitWriter}
    (h : Walk.copyHevcSpsLead.run (.new rbsp) .new = .ok (m, r, w)) :
    ∃ x cs, x.length = 16 ∧ x <+: bytesBits rbsp ∧ w = BitWriter.new.push (x ++ cs) := by
  obtain ⟨v₁, hr₁, h⟩ := copyBits_verbatim (by decide) h
  obtain ⟨v₂, hr₂, h⟩ := copyBits_verbatim (by decide) h
  obtain ⟨v₃, hr₃, h⟩ := copyBits_verbatim (by decide) h
  obtain ⟨⟨_, r', w'⟩, hptl, h⟩ := Outcome.bind_eq_ok.1 h
  obtain ⟨v₄, hr₄, hptl⟩ := copyBits_verbatim (by decide) hptl
  obtain ⟨k₁, cs₁, -, rfl⟩ := Walk.onward _ hptl
  obtain ⟨k₂, cs₂, -, rfl⟩ := Walk.onward _ h
  rw [BitReader.rest_new, hr₂, hr₃, hr₄] at hr₁
  have hrbsp := hr₁
  rw [← List.append_assoc, ← List.append_assoc, ← List.append_assoc] at hrbsp
  refine ⟨_, cs₁ ++ cs₂, ?_, ⟨_, hrbsp.symm⟩, ?_⟩
  · simp
  · simp only [BitWriter.push_push, List.append_assoc]

omit [BuildProfile] in
/-- Sixteen bits at the front are the first two bytes. -/
theorem take_two_of_prefix {bytes : List UInt8} {x : List Bool} (hx : x.length = 16)
    (h : x <+: bytesBits bytes) : 2 ≤ bytes.length ∧ bytesBits (bytes.take 2) = x := by
  have hlen : 2 ≤ bytes.length := by
    have := h.length_le
    rw [bytesBits_length] at this
    omega
  obtain ⟨s, hs⟩ := h
  have hsplit : bytesBits (bytes.take 2) ++ bytesBits (bytes.drop 2) = x ++ s := by
    rw [← bytesBits_append, List.take_append_drop, hs]
  have hsame : (bytesBits (bytes.take 2)).length = x.length := by
    rw [bytesBits_length, List.length_take_of_le hlen, hx]
  exact ⟨hlen, (List.append_inj hsplit hsame).1⟩

omit [BuildProfile] in
/-- Two byte strings with the same sixteen bits at the front. -/
theorem take_two_eq {as bs : List UInt8} {x : List Bool} (hx : x.length = 16)
    (has : x <+: bytesBits as) (hbs : x <+: bytesBits bs) :
    2 ≤ as.length ∧ bs.take 2 = as.take 2 := by
  obtain ⟨hlen, ha⟩ := take_two_of_prefix hx has
  obtain ⟨-, hb⟩ := take_two_of_prefix hx hbs
  exact ⟨hlen, bytesBits_injective (hb.trans ha.symm)⟩

theorem walkHevcSpsThroughDpb_verbatim {rbsp : List UInt8} {r : BitReader} {w : BitWriter}
    (h : Walk.walkHevcSpsThroughDpb.run (.new rbsp) .new = .ok ((), r, w)) :
    ∃ x cs, x.length = 16 ∧ x <+: bytesBits rbsp ∧ w = BitWriter.new.push (x ++ cs) := by
  obtain ⟨⟨m, r', w'⟩, hlead, h⟩ := Outcome.bind_eq_ok.1 h
  obtain ⟨x, cs, hlen, hrbsp, rfl⟩ := copyHevcSpsLead_verbatim hlead
  obtain ⟨k, cs', -, rfl⟩ := Walk.onward _ h
  exact ⟨x, cs ++ cs', hlen, hrbsp, by rw [BitWriter.push_push, List.append_assoc]⟩

theorem patchHevcSpsFull_take_two {rbsp out : List UInt8} (h : patchHevcSpsFull rbsp = .ok out) :
    2 ≤ rbsp.length ∧ out.take 2 = rbsp.take 2 := by
  obtain ⟨r, bs, s, hp, hout, -⟩ := Walk.rewriteRbsp_eq_ok h
  obtain ⟨⟨_, r', w'⟩, hhead, hp⟩ := Outcome.bind_eq_ok.1 hp
  obtain ⟨x, cs, hlen, hrbsp, rfl⟩ := walkHevcSpsThroughDpb_verbatim hhead
  obtain ⟨k, cs', -, hw⟩ := Walk.onward _ hp
  rw [BitWriter.push_push] at hw
  obtain rfl := BitWriter.push_new_injective hw
  rw [List.append_assoc, List.append_assoc] at hout
  exact take_two_eq hlen hrbsp ⟨_, hout.symm⟩

theorem patchHevcSpsDpbOnly_take_two {rbsp out : List UInt8}
    (h : patchHevcSpsDpbOnly rbsp = .ok out) : 2 ≤ rbsp.length ∧ out.take 2 = rbsp.take 2 := by
  obtain ⟨⟨_, r, w⟩, hp, hret⟩ := Outcome.bind_eq_ok.1 h
  cases hret
  obtain ⟨⟨_, r', w'⟩, hhead, hp⟩ := Outcome.bind_eq_ok.1 hp
  obtain ⟨x, cs, hlen, hrbsp, rfl⟩ := walkHevcSpsThroughDpb_verbatim hhead
  obtain ⟨k, cs', -, rfl⟩ := Walk.onward _ hp
  have hout := BitWriter.bytesBits_bytes ((BitWriter.new.push (x ++ cs)).push cs')
  rw [BitWriter.bits_push, BitWriter.bits_push, BitWriter.bits_new, List.nil_append,
    List.append_assoc, List.append_assoc] at hout
  exact take_two_eq hlen hrbsp ⟨_, hout.symm⟩

/-- **Both walks keep the first two bytes.** -/
theorem patchHevcSpsRbsp_take_two {rbsp out : List UInt8} (h : patchHevcSpsRbsp rbsp = .ok out) :
    2 ≤ rbsp.length ∧ out.take 2 = rbsp.take 2 := by
  rw [patchHevcSpsRbsp] at h
  split at h
  · cases h
    exact patchHevcSpsFull_take_two ‹_›
  · exact patchHevcSpsDpbOnly_take_two h
  · cases h

end Penflow
