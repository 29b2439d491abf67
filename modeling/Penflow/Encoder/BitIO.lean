import Penflow.Core.Outcome
import Penflow.Lib.BitSyntax

/-!
# `BitReader` and `BitWriter`

The bit cursors of the SPS patcher, byte by byte as the code moves them, and what they denote.  A
reader denotes the bits it has not read yet (`rest`), a writer the bits it has written (`bits`); the
writer carries its own shape (exactly the bytes it needs, nothing but zeros past the last bit).

Every method gets one equation: a reader method is the corresponding reader of `BitSyntax` on the
rest, a writer method pushes the code of the value.  The walks over SPS syntax only use these.
-/

namespace Penflow

open BitString BitSyntax

/-! ### The reader -/

structure BitReader where
  bytes : List UInt8
  /-- 0 is the most significant bit of byte 0. -/
  bit_pos : ℕ

namespace BitReader

def new (bytes : List UInt8) : BitReader := ⟨bytes, 0⟩

/-- The loop of `read_bits`, with `n` bits to go and `v` read so far. -/
def readBitsLoop : ℕ → ℕ → BitReader → Outcome (ℕ × BitReader)
  | 0, v, r => .ok (v, r)
  | n + 1, v, r =>
    match r.bytes[r.bit_pos >>> 3]? with
    | none => .error (.err .notInitialized)
    | some byte =>
      let bit_idx := 7 - (r.bit_pos &&& 7)
      let bit := (byte.toNat >>> bit_idx) &&& 1
      readBitsLoop n (v <<< 1 % 2 ^ 32 + bit) { r with bit_pos := r.bit_pos + 1 }

def readBits [BuildProfile] (n : ℕ) (r : BitReader) : Outcome (ℕ × BitReader) := do
  debugAssert (n ≤ 32)
  readBitsLoop n 0 r

/-- The loop of `read_ue`: count zeros up to the first one.  A run over 31 returns before the fuel
of 32 is used up. -/
def readUeLoop [BuildProfile] : ℕ → ℕ → BitReader → Outcome (ℕ × BitReader)
  | 0, _, _ => .error (.err .notInitialized)
  | fuel + 1, leading_zeros, r => do
    let (b, r) ← r.readBits 1
    if b = 1 then
      pure (leading_zeros, r)
    else if leading_zeros + 1 > 31 then
      .error (.err .notInitialized)
    else
      readUeLoop fuel (leading_zeros + 1) r

/-- The part of `read_ue` after its loop: the suffix and the value. -/
def readUeSuffix [BuildProfile] (leading_zeros : ℕ) (r : BitReader) : Outcome (ℕ × BitReader) := do
  let (suffix, r) ← (if leading_zeros = 0 then pure (0, r) else r.readBits leading_zeros)
  let top ← shlOne leading_zeros
  let base ← subU32 top 1
  let v ← addU32 base suffix
  pure (v, r)

/-- Unsigned Exp-Golomb. -/
def readUe [BuildProfile] (r : BitReader) : Outcome (ℕ × BitReader) := do
  let (leading_zeros, r) ← readUeLoop 32 0 r
  readUeSuffix leading_zeros r

/-- Signed Exp-Golomb. -/
def readSe [BuildProfile] (r : BitReader) : Outcome (ℤ × BitReader) := do
  let (code, r) ← r.readUe
  if code &&& 1 ≠ 0 then
    let next ← addU32 code 1
    pure (((next >>> 1 : ℕ) : ℤ), r)
  else
    pure (-((code >>> 1 : ℕ) : ℤ), r)

/-- The bits not read yet. -/
def rest (r : BitReader) : List Bool := (bytesBits r.bytes).drop r.bit_pos

/-- The reader `k` bits further on. -/
def skip (r : BitReader) (k : ℕ) : BitReader := { r with bit_pos := r.bit_pos + k }

@[simp] theorem skip_bytes (r : BitReader) (k : ℕ) : (r.skip k).bytes = r.bytes := rfl

@[simp] theorem skip_bit_pos (r : BitReader) (k : ℕ) : (r.skip k).bit_pos = r.bit_pos + k := rfl

@[simp] theorem rest_new (bytes : List UInt8) : (new bytes).rest = bytesBits bytes := rfl

@[simp] theorem rest_skip (r : BitReader) (k : ℕ) : (r.skip k).rest = r.rest.drop k := by
  simp [rest, skip, List.drop_drop]

/-- Past a leading part, what was behind it is the rest. -/
theorem rest_skip_of_append {r : BitReader} {bs s : List Bool} (hrest : r.rest = bs ++ s) :
    (r.skip bs.length).rest = s := by
  rw [rest_skip, hrest, List.drop_left]

@[simp] theorem skip_skip (r : BitReader) (j k : ℕ) : (r.skip j).skip k = r.skip (j + k) := by
  simp [skip, Nat.add_assoc]

theorem and_one_eq (byte : UInt8) (i : ℕ) :
    (byte.toNat >>> i) &&& 1 = (byte.toNat.testBit i).toNat := by
  rw [Nat.toNat_testBit, Nat.and_one_is_mod, Nat.shiftRight_eq_div_pow]

/-- One turn of the loop takes the bit under the cursor. -/
theorem rest_eq_cons (r : BitReader) (byte : UInt8) (h : r.bytes[r.bit_pos >>> 3]? = some byte) :
    r.rest = byte.toNat.testBit (7 - (r.bit_pos &&& 7)) :: (r.skip 1).rest := by
  have hget := bytesBits_getElem? r.bytes r.bit_pos
  rw [← Nat.shiftRight_eq_div_pow r.bit_pos 3, h, Option.map_some] at hget
  obtain ⟨hlt, hval⟩ := List.getElem?_eq_some_iff.1 hget
  rw [rest_skip, rest, List.drop_drop, List.drop_eq_getElem_cons hlt, hval,
    show (7 : ℕ) = 2 ^ 3 - 1 from rfl, Nat.and_two_pow_sub_one_eq_mod]

theorem rest_eq_nil (r : BitReader) (h : r.bytes[r.bit_pos >>> 3]? = none) : r.rest = [] := by
  have hget := bytesBits_getElem? r.bytes r.bit_pos
  rw [← Nat.shiftRight_eq_div_pow r.bit_pos 3, h, Option.map_none] at hget
  exact List.drop_eq_nil_of_le (List.getElem?_eq_none_iff.1 hget)

/-- **The read loop.**  While `v` fits the high bits of the word nothing is shifted out, and the loop
appends the next `n` bits to `v`. -/
theorem readBitsLoop_eq (n v : ℕ) (r : BitReader) (hv : (v + 1) * 2 ^ n ≤ 2 ^ 32) :
    readBitsLoop n v r = match natRead n r.rest with
      | none => .error (.err .notInitialized)
      | some (x, _) => .ok (v * 2 ^ n + x, r.skip n) := by
  induction n generalizing v r with
  | zero => simp [readBitsLoop, natRead, bitsNat, skip]
  | succ n ih =>
      rw [readBitsLoop]
      cases hbyte : r.bytes[r.bit_pos >>> 3]? with
      | none => simp [natRead, rest_eq_nil r hbyte]
      | some byte =>
          have hrest := rest_eq_cons r byte hbyte
          set b := byte.toNat.testBit (7 - (r.bit_pos &&& 7)) with hb
          have hb1 : b.toNat ≤ 1 := Bool.toNat_le b
          have hsmall : (v * 2 + b.toNat + 1) * 2 ^ n ≤ 2 ^ 32 := calc
            (v * 2 + b.toNat + 1) * 2 ^ n ≤ ((v + 1) * 2) * 2 ^ n :=
              Nat.mul_le_mul_right _ (by omega)
            _ = (v + 1) * 2 ^ (n + 1) := by ring
            _ ≤ 2 ^ 32 := hv
          have hlt : v * 2 < 2 ^ 32 := by
            have hone : v * 2 + b.toNat + 1 ≤ (v * 2 + b.toNat + 1) * 2 ^ n :=
              Nat.le_mul_of_pos_right _ (Nat.two_pow_pos n)
            omega
          simp only [and_one_eq, ← hb, Nat.shiftLeft_eq, pow_one, Nat.mod_eq_of_lt hlt]
          rw [show ({ r with bit_pos := r.bit_pos + 1 } : BitReader) = r.skip 1 from rfl,
            ih _ _ hsmall, hrest]
          generalize (r.skip 1).rest = t
          rcases Nat.lt_or_ge t.length n with hn | hn
          · simp [natRead, Nat.not_le.2 hn]
          · have htake : (t.take n).length = n := List.length_take_of_le hn
            simp only [natRead, List.length_cons, Nat.add_le_add_iff_right, if_pos hn,
              List.take_succ_cons, List.drop_succ_cons, bitsNat, htake, skip_skip, Nat.add_comm 1 n]
            congr 2
            ring

/-- At any width, what the loop read moves the cursor on by that many bits. -/
theorem readBitsLoop_skip {n v x : ℕ} {r r' : BitReader} (h : readBitsLoop n v r = .ok (x, r')) :
    r' = r.skip n := by
  induction n generalizing v r with
  | zero =>
      cases h
      rfl
  | succ n ih =>
      rw [readBitsLoop] at h
      split at h
      · cases h
      · rw [ih h, show ({ r with bit_pos := r.bit_pos + 1 } : BitReader) = r.skip 1 from rfl,
          skip_skip, Nat.add_comm 1 n]

variable [BuildProfile]

theorem readBits_skip {n x : ℕ} {r r' : BitReader} (h : r.readBits n = .ok (x, r')) :
    r' = r.skip n := by
  obtain ⟨_, -, hloop⟩ := Outcome.bind_eq_ok.1 h
  exact readBitsLoop_skip hloop

/-- `read_bits` reads a fixed-width number off the rest. -/
theorem readBits_eq {n : ℕ} (hn : n ≤ 32) (r : BitReader) :
    r.readBits n = match natRead n r.rest with
      | none => .error (.err .notInitialized)
      | some (v, _) => .ok (v, r.skip n) := by
  have hpow : 2 ^ n ≤ 2 ^ 32 := Nat.pow_le_pow_right (by omega) hn
  rw [readBits, debugAssert_of hn]
  refine (readBitsLoop_eq n 0 r (by omega)).trans ?_
  simp only [Nat.zero_mul, Nat.zero_add]

/-- Reading the next bit. -/
theorem readBits_one_eq (r : BitReader) :
    r.readBits 1 = match r.rest with
      | [] => .error (.err .notInitialized)
      | b :: _ => .ok (b.toNat, r.skip 1) := by
  rw [readBits_eq (by omega)]
  cases hrest : r.rest with
  | nil => rfl
  | cons b s => rw [natRead_one_cons]

theorem readUeSuffix_eq {k : ℕ} (hk : k ≤ 31) (r : BitReader) :
    readUeSuffix k r = match natRead k r.rest with
      | none => .error (.err .notInitialized)
      | some (x, _) => .ok (2 ^ k - 1 + x, r.skip k) := by
  have hpos : 1 ≤ 2 ^ k := Nat.one_le_two_pow
  have hpow : 2 ^ k ≤ 2 ^ 31 := Nat.pow_le_pow_right (by omega) hk
  have hsuffix : (if k = 0 then pure (0, r) else r.readBits k : Outcome (ℕ × BitReader)) =
      match natRead k r.rest with
      | none => .error (.err .notInitialized)
      | some (x, _) => .ok (x, r.skip k) := by
    split
    · subst k
      rfl
    · exact readBits_eq (by omega) r
  rw [readUeSuffix, hsuffix]
  cases hread : natRead k r.rest with
  | none => rfl
  | some x =>
      have hx := (natRead_eq_some hread).2
      simp only [shlOne_of_lt (show k < 32 by omega), subU32_of_le hpos,
        addU32_of_lt (show 2 ^ k - 1 + x.1 < 2 ^ 32 by omega), bind, Except.bind, pure, Except.pure]

theorem readUeLoop_nil {fuel j : ℕ} {r : BitReader} (hrest : r.rest = []) :
    readUeLoop (fuel + 1) j r = .error (.err .notInitialized) := by
  rw [readUeLoop, readBits_one_eq, hrest]
  rfl

theorem readUeLoop_false {fuel j : ℕ} {r : BitReader} {s : List Bool}
    (hrest : r.rest = false :: s) :
    readUeLoop (fuel + 1) j r =
      if j + 1 > 31 then .error (.err .notInitialized) else readUeLoop fuel (j + 1) (r.skip 1) := by
  rw [readUeLoop, readBits_one_eq, hrest]
  rfl

theorem readUeLoop_true {fuel j : ℕ} {r : BitReader} {s : List Bool}
    (hrest : r.rest = true :: s) : readUeLoop (fuel + 1) j r = .ok (j, r.skip 1) := by
  rw [readUeLoop, readBits_one_eq, hrest]
  rfl

/-- A one ends the run of zeros: the suffix is read right after it. -/
theorem readUeSuffix_skip {j : ℕ} {r : BitReader} {s : List Bool} (hj : j ≤ 31)
    (hrest : r.rest = true :: s) :
    readUeSuffix j (r.skip 1) = match ueReadFrom j r.rest with
      | none => .error (.err .notInitialized)
      | some (v, s') => .ok (v, r.skip (r.rest.length - s'.length)) := by
  have hskip : (r.skip 1).rest = s := by rw [rest_skip, hrest]; rfl
  rw [readUeSuffix_eq hj, hskip, hrest, ueReadFrom]
  cases hread : natRead j s with
  | none => rfl
  | some x =>
      obtain ⟨hs, -⟩ := natRead_eq_some hread
      have hlen : (true :: s).length - x.2.length = 1 + j := by
        rw [hs, List.length_cons, List.length_append, natBits_length]
        omega
      simp only [Option.map_some, skip_skip, hlen]

/-- **The Exp-Golomb loop.**  From a run of `j` zeros on, the loop and the suffix read what
`ueReadFrom` reads, and the cursor ends where its rest begins. -/
theorem readUeLoop_eq (fuel j : ℕ) (hj : j + fuel = 31) (r : BitReader) :
    (readUeLoop (fuel + 1) j r).bind (fun x => readUeSuffix x.1 x.2) =
      match ueReadFrom j r.rest with
      | none => .error (.err .notInitialized)
      | some (v, s) => .ok (v, r.skip (r.rest.length - s.length)) := by
  induction fuel generalizing j r with
  | zero =>
      cases hrest : r.rest with
      | nil => rw [readUeLoop_nil hrest]; rfl
      | cons b s =>
          cases b with
          | false =>
              -- the 32nd zero: both sides refuse
              rw [readUeLoop_false hrest, if_pos (by omega), ueReadFrom, if_pos (by omega)]
              rfl
          | true => rw [readUeLoop_true hrest, ← hrest]; exact readUeSuffix_skip (by omega) hrest
  | succ fuel ih =>
      cases hrest : r.rest with
      | nil => rw [readUeLoop_nil hrest]; rfl
      | cons b s =>
          cases b with
          | false =>
              have hskip : (r.skip 1).rest = s := by rw [rest_skip, hrest]; rfl
              rw [readUeLoop_false hrest, if_neg (by omega), ih (j + 1) (by omega), hskip,
                ueReadFrom, if_neg (by omega)]
              cases hread : ueReadFrom (j + 1) s with
              | none => rfl
              | some x =>
                  have hlen : x.2.length ≤ s.length := ueReadFrom_length hread
                  simp only [skip_skip, List.length_cons]
                  congr 3
                  omega
          | true => rw [readUeLoop_true hrest, ← hrest]; exact readUeSuffix_skip (by omega) hrest

theorem readUe_eq (r : BitReader) :
    r.readUe = match ueRead r.rest with
      | none => .error (.err .notInitialized)
      | some (v, s) => .ok (v, r.skip (r.rest.length - s.length)) :=
  readUeLoop_eq 31 0 rfl r

theorem readSe_eq (r : BitReader) :
    r.readSe = match seRead r.rest with
      | none => .error (.err .notInitialized)
      | some (v, s) => .ok (v, r.skip (r.rest.length - s.length)) := by
  rw [readSe, readUe_eq, seRead]
  cases hread : ueRead r.rest with
  | none => rfl
  | some x =>
      have hlt := (ueRead_eq_some hread).2
      simp only [Option.map_some, bind, Except.bind]
      by_cases hodd : x.1 % 2 = 1
      · rw [Nat.and_one_is_mod, if_pos (by omega), addU32_of_lt (by omega)]
        simp only [seVal, if_pos hodd, Nat.shiftRight_eq_div_pow, pow_one, pure, Except.pure]
      · rw [Nat.and_one_is_mod, if_neg (by omega)]
        simp only [seVal, if_neg hodd, Nat.shiftRight_eq_div_pow, pow_one, pure, Except.pure]

end BitReader

/-! ### The writer -/

/-- How many zeros fill `k` bits up to whole bytes. -/
def padding (k : ℕ) : ℕ := (8 - k % 8) % 8

structure BitWriter where
  bytes : List UInt8
  /-- Total bits written. -/
  bit_pos : ℕ
  /-- The bytes are the bits written so far, filled up with zeros. -/
  padded : ∃ bs, bs.length = bit_pos ∧
    bytesBits bytes = bs ++ List.replicate (padding bit_pos) false

namespace BitWriter

def new : BitWriter := ⟨[], 0, [], rfl, rfl⟩

/-- The bytes after one turn of the loop of `write_bits`. -/
def orBit (bytes : List UInt8) (bit_pos : ℕ) (bit : Bool) : List UInt8 :=
  let byte_idx := bit_pos >>> 3
  let bit_idx := 7 - (bit_pos &&& 7)
  let bytes := if byte_idx ≥ bytes.length then bytes ++ [0] else bytes
  bytes.modify byte_idx (· ||| UInt8.ofNat (bit.toNat <<< bit_idx))

theorem orBit_eq (bytes : List UInt8) (k : ℕ) (b : Bool) :
    bytesBits (orBit bytes k b) =
      (bytesBits (if k / 8 ≥ bytes.length then bytes ++ [0] else bytes)).modify k (· || b) := by
  rw [← bytesBits_modify, orBit, Nat.shiftRight_eq_div_pow, show (7 : ℕ) = 2 ^ 3 - 1 from rfl,
    Nat.and_two_pow_sub_one_eq_mod]

/-- The loop body writes its bit right after the bits already there. -/
theorem orBit_spec {bytes : List UInt8} {bs : List Bool}
    (h : bytesBits bytes = bs ++ List.replicate (padding bs.length) false) (b : Bool) :
    bytesBits (orBit bytes bs.length b) =
      (bs ++ [b]) ++ List.replicate (padding (bs.length + 1)) false := by
  have hlen : 8 * bytes.length = bs.length + padding bs.length := by
    simpa using congrArg List.length h
  rw [orBit_eq]
  by_cases hfull : bs.length % 8 = 0
  · -- a new byte
    have hpad : padding bs.length = 0 := by simp [padding, hfull]
    have hpad' : padding (bs.length + 1) = 7 := by simp only [padding]; omega
    rw [hpad] at h hlen
    have hzero : bytesBits [0] = false :: List.replicate 7 false := by decide
    rw [if_pos (by omega), bytesBits_append, h, hpad', hzero, List.replicate_zero, List.append_nil,
      modify_length_append, List.append_assoc]
    rfl
  · have hpad : padding bs.length = padding (bs.length + 1) + 1 := by simp only [padding]; omega
    have hlt : padding bs.length < 8 := Nat.mod_lt _ (by decide)
    rw [if_neg (by omega), h, hpad, List.replicate_succ, modify_length_append, List.append_assoc]
    rfl

/-- One turn of the loop of `write_bits`. -/
def writeBit (w : BitWriter) (bit : Bool) : BitWriter where
  bytes := orBit w.bytes w.bit_pos bit
  bit_pos := w.bit_pos + 1
  padded := by
    obtain ⟨bs, hlen, hbytes⟩ := w.padded
    refine ⟨bs ++ [bit], by simp [hlen], ?_⟩
    rw [← hlen] at hbytes ⊢
    exact orBit_spec hbytes bit

/-- The loop of `write_bits`, from bit `i - 1` down. -/
def writeBitsLoop [BuildProfile] (value : ℕ) : ℕ → BitWriter → Outcome BitWriter
  | 0, w => .ok w
  | i + 1, w => do
    let shifted ← shrU32 value i
    writeBitsLoop value i (w.writeBit (shifted &&& 1 = 1))

def writeBits [BuildProfile] (value n : ℕ) (w : BitWriter) : Outcome BitWriter := do
  debugAssert (n ≤ 32)
  writeBitsLoop value n w

/-- `for _ in 0..n { write_bits(0, 1) }` -/
def writeZeros [BuildProfile] : ℕ → BitWriter → Outcome BitWriter
  | 0, w => .ok w
  | n + 1, w => do
    let w ← w.writeBits 0 1
    writeZeros n w

def writeUe [BuildProfile] (value : ℕ) (w : BitWriter) : Outcome BitWriter := do
  -- `63 - v_plus_1.leading_zeros()`, taken on `u64`
  let leading_zeros := (value + 1).log2
  let w ← writeZeros leading_zeros w
  let w ← w.writeBits 1 1
  if leading_zeros > 0 then
    let next ← addU32 value 1
    let top ← shlOne leading_zeros
    let suffix ← subU32 next top
    w.writeBits suffix leading_zeros
  else
    pure w

def writeSe [BuildProfile] (value : ℤ) (w : BitWriter) : Outcome BitWriter := do
  let code ← (if value > 0 then do
      let twice ← mulU32 value.toNat 2
      subU32 twice 1
    else do
      let neg ← negAsU32 value
      mulU32 neg 2)
  w.writeUe code

/-- The loop of `write_rbsp_trailing_bits`: no byte is further than seven bits away. -/
def padLoop [BuildProfile] : ℕ → BitWriter → Outcome BitWriter
  | 0, w => .ok w
  | fuel + 1, w =>
    if w.bit_pos &&& 7 ≠ 0 then do
      let w ← w.writeBits 0 1
      padLoop fuel w
    else
      .ok w

def writeRbspTrailingBits [BuildProfile] (w : BitWriter) : Outcome BitWriter := do
  let w ← w.writeBits 1 1
  padLoop 7 w

def intoBytes (w : BitWriter) : List UInt8 := w.bytes

/-- The bits written so far. -/
def bits (w : BitWriter) : List Bool := (bytesBits w.bytes).take w.bit_pos

/-- The writer after more bits. -/
def push (w : BitWriter) (bs : List Bool) : BitWriter := bs.foldl writeBit w

@[simp] theorem push_nil (w : BitWriter) : w.push [] = w := rfl

@[simp] theorem push_cons (w : BitWriter) (b : Bool) (bs : List Bool) :
    w.push (b :: bs) = (w.writeBit b).push bs := rfl

@[simp] theorem push_push (w : BitWriter) (bs cs : List Bool) :
    (w.push bs).push cs = w.push (bs ++ cs) := by
  rw [push, push, push, List.foldl_append]

@[simp] theorem bits_new : new.bits = [] := rfl

theorem bytesBits_bytes (w : BitWriter) :
    bytesBits w.bytes = w.bits ++ List.replicate (padding w.bit_pos) false := by
  obtain ⟨bs, hlen, hbytes⟩ := w.padded
  rw [bits, hbytes, ← hlen, List.take_left]

@[simp] theorem bits_length (w : BitWriter) : w.bits.length = w.bit_pos := by
  obtain ⟨bs, hlen, hbytes⟩ := w.padded
  rw [bits, hbytes, ← hlen, List.take_left]

@[simp] theorem writeBit_bits (w : BitWriter) (b : Bool) : (w.writeBit b).bits = w.bits ++ [b] := by
  have hbytes := w.bytesBits_bytes
  rw [← bits_length] at hbytes
  have hspec := orBit_spec hbytes b
  rw [bits_length] at hspec
  show (bytesBits (orBit w.bytes w.bit_pos b)).take (w.bit_pos + 1) = w.bits ++ [b]
  rw [hspec, List.take_left' (by simp)]

@[simp] theorem bits_push (w : BitWriter) (bs : List Bool) : (w.push bs).bits = w.bits ++ bs := by
  induction bs generalizing w with
  | nil => simp
  | cons b bs ih => rw [push_cons, ih, writeBit_bits, List.append_assoc]; rfl

@[simp] theorem bit_pos_push (w : BitWriter) (bs : List Bool) :
    (w.push bs).bit_pos = w.bit_pos + bs.length := by
  rw [← bits_length, bits_push, List.length_append, bits_length]

/-- After the trailing bits the bytes are exactly the bits written. -/
theorem bytesBits_trailing (w : BitWriter) :
    bytesBits (w.push (true :: List.replicate (padding (w.bit_pos + 1)) false)).bytes =
      w.bits ++ true :: List.replicate (padding (w.bit_pos + 1)) false := by
  have hfull : padding (w.bit_pos + (padding (w.bit_pos + 1) + 1)) = 0 := by
    simp only [padding]
    omega
  rw [bytesBits_bytes, bits_push, bit_pos_push, List.length_cons, List.length_replicate, hfull,
    List.replicate_zero, List.append_nil]

theorem push_new_injective {bs cs : List Bool} (h : new.push bs = new.push cs) : bs = cs := by
  have hbits := congrArg bits h
  rwa [bits_push, bits_push, bits_new, List.nil_append, List.nil_append] at hbits

variable [BuildProfile]

theorem writeBitsLoop_eq (value : ℕ) {n : ℕ} (hn : n ≤ 32) (w : BitWriter) :
    writeBitsLoop value n w = .ok (w.push (natBits n value)) := by
  induction n generalizing w with
  | zero => rfl
  | succ n ih =>
      have hbit : decide ((value >>> n) &&& 1 = 1) = value.testBit n := by
        rw [Nat.testBit_eq_decide_div_mod_eq, Nat.and_one_is_mod, Nat.shiftRight_eq_div_pow]
      rw [writeBitsLoop, shrU32_of_lt (by omega)]
      exact (ih (by omega) _).trans (by rw [natBits, push_cons, hbit])

/-- `write_bits` pushes the fixed-width code. -/
theorem writeBits_eq (value : ℕ) {n : ℕ} (hn : n ≤ 32) (w : BitWriter) :
    w.writeBits value n = .ok (w.push (natBits n value)) := by
  rw [writeBits, debugAssert_of hn]
  exact writeBitsLoop_eq value hn w

/-- At any width, what the loop wrote comes after the bits already there. -/
theorem writeBits_push {value n : ℕ} {w w' : BitWriter} (h : w.writeBits value n = .ok w') :
    ∃ bs, w' = w.push bs := by
  obtain ⟨_, -, hloop⟩ := Outcome.bind_eq_ok.1 h
  clear h
  induction n generalizing w with
  | zero =>
      cases hloop
      exact ⟨[], rfl⟩
  | succ n ih =>
      obtain ⟨shifted, -, hrest⟩ := Outcome.bind_eq_ok.1 hloop
      obtain ⟨bs, rfl⟩ := ih hrest
      exact ⟨_ :: bs, rfl⟩

theorem writeZeros_eq (n : ℕ) (w : BitWriter) :
    writeZeros n w = .ok (w.push (List.replicate n false)) := by
  induction n generalizing w with
  | zero => rfl
  | succ n ih =>
      rw [writeZeros, writeBits_eq 0 (by omega)]
      exact (ih _).trans rfl

/-- Whatever the value, `write_ue` only adds bits. -/
theorem writeUe_push {value : ℕ} {w w' : BitWriter} (h : w.writeUe value = .ok w') :
    ∃ bs, w' = w.push bs := by
  obtain ⟨w₁, hzeros, h⟩ := Outcome.bind_eq_ok.1 h
  obtain ⟨w₂, hone, h⟩ := Outcome.bind_eq_ok.1 h
  rw [writeZeros_eq] at hzeros
  cases hzeros
  obtain ⟨bs, rfl⟩ := writeBits_push hone
  split at h
  · obtain ⟨next, -, h⟩ := Outcome.bind_eq_ok.1 h
    obtain ⟨top, -, h⟩ := Outcome.bind_eq_ok.1 h
    obtain ⟨suffix, -, h⟩ := Outcome.bind_eq_ok.1 h
    obtain ⟨cs, rfl⟩ := writeBits_push h
    exact ⟨_, by rw [push_push, push_push]⟩
  · cases h
    exact ⟨_, by rw [push_push]⟩

theorem writeSe_push {value : ℤ} {w w' : BitWriter} (h : w.writeSe value = .ok w') :
    ∃ bs, w' = w.push bs := by
  obtain ⟨code, -, h⟩ := Outcome.bind_eq_ok.1 h
  exact writeUe_push h

/-- `write_ue` pushes the Exp-Golomb code. -/
theorem writeUe_eq {value : ℕ} (h : value < 2 ^ 32 - 1) (w : BitWriter) :
    w.writeUe value = .ok (w.push (ueBits value)) := by
  obtain ⟨k, x, hx, rfl⟩ := exists_two_pow_split value
  have hk : k ≤ 31 := exponent_le h
  have hpos : 0 < 2 ^ k := Nat.two_pow_pos k
  have hnext : 2 ^ k - 1 + x + 1 = 2 ^ k + x := by omega
  rw [writeUe, hnext, log2_two_pow_add hx, ueBits_two_pow hx, writeZeros_eq]
  simp only [bind, Except.bind, writeBits_eq 1 (show 1 ≤ 32 by omega), push_push]
  by_cases hzero : k = 0
  · subst hzero
    rfl
  · rw [if_pos (by omega), addU32_of_lt (by omega)]
    simp only [shlOne_of_lt (show k < 32 by omega), hnext, subU32_of_le (Nat.le_add_right _ x),
      Nat.add_sub_cancel_left, writeBits_eq x (show k ≤ 32 by omega), push_push]
    rw [List.append_assoc]
    rfl

/-- `write_se` pushes the signed Exp-Golomb code. -/
theorem writeSe_eq {value : ℤ} (h : seCode value < 2 ^ 32 - 1) (w : BitWriter) :
    w.writeSe value = .ok (w.push (seBits value)) := by
  have hcode : (if value > 0 then do
      let twice ← mulU32 value.toNat 2
      subU32 twice 1
    else do
      let neg ← negAsU32 value
      mulU32 neg 2 : Outcome ℕ) = .ok (seCode value) := by
    by_cases hpos : 0 < value
    · rw [seCode, if_pos hpos] at h
      rw [if_pos hpos, mulU32_of_lt (by omega), seCode, if_pos hpos, Nat.mul_comm 2]
      exact subU32_of_le (by omega)
    · rw [seCode, if_neg hpos] at h
      have hneg : (-value % 2 ^ 32).toNat = (-value).toNat := by omega
      rw [if_neg hpos, negAsU32, if_neg (by omega), hneg, seCode, if_neg hpos, Nat.mul_comm 2]
      exact mulU32_of_lt (by omega)
  rw [writeSe, hcode]
  exact writeUe_eq h w

theorem padLoop_eq (fuel : ℕ) (w : BitWriter) (h : padding w.bit_pos ≤ fuel) :
    padLoop fuel w = .ok (w.push (List.replicate (padding w.bit_pos) false)) := by
  induction fuel generalizing w with
  | zero => rw [Nat.le_zero.1 h]; rfl
  | succ fuel ih =>
      have hmod : w.bit_pos &&& 7 = w.bit_pos % 8 := Nat.and_two_pow_sub_one_eq_mod w.bit_pos 3
      rw [padLoop, hmod]
      by_cases haligned : w.bit_pos % 8 = 0
      · have hpad : padding w.bit_pos = 0 := by simp [padding, haligned]
        rw [if_neg (by simpa using haligned), hpad]
        rfl
      · have hnext : padding w.bit_pos = padding (w.bit_pos + 1) + 1 := by
          simp only [padding]
          omega
        have hstep : (w.push [false]).bit_pos = w.bit_pos + 1 := bit_pos_push w [false]
        rw [if_pos haligned, writeBits_eq 0 (by omega)]
        refine (ih (w.push [false]) (by rw [hstep]; omega)).trans ?_
        rw [hstep, push_push, hnext, List.replicate_succ]
        rfl

/-- `write_rbsp_trailing_bits` pushes a stop bit and fills up the byte. -/
theorem writeRbspTrailingBits_eq (w : BitWriter) : w.writeRbspTrailingBits =
    .ok (w.push (true :: List.replicate (padding (w.bit_pos + 1)) false)) := by
  have hlt : padding (w.bit_pos + 1) < 8 := Nat.mod_lt _ (by decide)
  have hstep : (w.push [true]).bit_pos = w.bit_pos + 1 := bit_pos_push w [true]
  rw [writeRbspTrailingBits, writeBits_eq 1 (by omega)]
  refine (padLoop_eq 7 (w.push [true]) (by rw [hstep]; omega)).trans ?_
  rw [hstep, push_push]
  rfl

end BitWriter

end Penflow
