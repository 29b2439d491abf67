import Mathlib.Data.List.Basic
import Mathlib.Data.List.Induction
import Mathlib.Data.Nat.Bitwise
import Mathlib.Tactic.Ring

/-!
# Bit strings: fixed-width and Exp-Golomb codes

Bit strings are `List Bool`, most significant bit first.  Fixed-width numbers are written by
`natBits` and read back by `natRead`; unsigned and signed Exp-Golomb codes are written by `ueBits`
and `seBits` and read back by `ueRead` and `seRead`, with the leading-zero run capped at 31 so that
every value fits a 32-bit word.

Each reader comes with the two halves of its round trip: reading what was written gives the value
back and leaves the rest (`_append`), and whatever is read was the code of the value (`_eq_some`).
The second half makes every code canonical, which is what lets a rewriter compare bit strings.
-/

namespace BitString

/-! ### Fixed-width numbers -/

/-- The `n` low bits of `v`, most significant first. -/
def natBits : ℕ → ℕ → List Bool
  | 0, _ => []
  | n + 1, v => v.testBit n :: natBits n v

/-- The number a bit string denotes. -/
def bitsNat : List Bool → ℕ
  | [] => 0
  | b :: bs => b.toNat * 2 ^ bs.length + bitsNat bs

@[simp] theorem natBits_length (n v : ℕ) : (natBits n v).length = n := by
  induction n with
  | zero => rfl
  | succ n ih => simp only [natBits, List.length_cons, ih]

theorem bitsNat_lt (bs : List Bool) : bitsNat bs < 2 ^ bs.length := by
  induction bs with
  | nil => simp [bitsNat]
  | cons b bs ih =>
      have hb : b.toNat * 2 ^ bs.length ≤ 1 * 2 ^ bs.length :=
        Nat.mul_le_mul_right _ (Bool.toNat_le b)
      simp only [bitsNat, List.length_cons, pow_succ]
      omega

theorem natBits_congr {n v w : ℕ} (h : ∀ i < n, v.testBit i = w.testBit i) :
    natBits n v = natBits n w := by
  induction n with
  | zero => rfl
  | succ n ih =>
      rw [natBits, natBits, h n (Nat.lt_succ_self n), ih fun i hi => h i (Nat.lt_succ_of_lt hi)]

/-- A leading bit above the width does not change the low bits. -/
theorem natBits_mul_two_pow_add (n a x : ℕ) : natBits n (a * 2 ^ n + x) = natBits n x := by
  refine natBits_congr fun i hi => ?_
  have hx := Nat.testBit_mod_two_pow (a * 2 ^ n + x) n i
  have hy := Nat.testBit_mod_two_pow x n i
  rw [show (a * 2 ^ n + x) % 2 ^ n = x % 2 ^ n from by
    rw [Nat.mul_comm, Nat.mul_add_mod]] at hx
  simpa [hi] using hx.symm.trans hy

theorem natBits_bitsNat (bs : List Bool) : natBits bs.length (bitsNat bs) = bs := by
  induction bs with
  | nil => rfl
  | cons b bs ih =>
      have hlt := bitsNat_lt bs
      have hbit : (b.toNat * 2 ^ bs.length + bitsNat bs).testBit bs.length = b := by
        rw [Nat.mul_comm, Nat.testBit_two_pow_mul_add _ hlt]
        cases b <;> simp
      rw [List.length_cons, natBits, bitsNat, hbit, natBits_mul_two_pow_add, ih]

theorem bitsNat_natBits (n v : ℕ) : bitsNat (natBits n v) = v % 2 ^ n := by
  induction n with
  | zero => simp [natBits, bitsNat, Nat.mod_one]
  | succ n ih =>
      rw [natBits, bitsNat, natBits_length, ih, Nat.toNat_testBit, pow_succ, Nat.mod_mul]
      ring

theorem bitsNat_natBits_of_lt {n v : ℕ} (h : v < 2 ^ n) : bitsNat (natBits n v) = v := by
  rw [bitsNat_natBits, Nat.mod_eq_of_lt h]

/-- Read an `n`-bit number off the front of a bit string. -/
def natRead (n : ℕ) (s : List Bool) : Option (ℕ × List Bool) :=
  if n ≤ s.length then some (bitsNat (s.take n), s.drop n) else none

theorem natRead_one_cons (b : Bool) (s : List Bool) : natRead 1 (b :: s) = some (b.toNat, s) := by
  simp [natRead, bitsNat]

theorem natRead_append {n v : ℕ} (h : v < 2 ^ n) (s : List Bool) :
    natRead n (natBits n v ++ s) = some (v, s) := by
  have htake : (natBits n v ++ s).take n = natBits n v := by
    rw [List.take_append_of_le_length (natBits_length n v).ge,
      List.take_of_length_le (natBits_length n v).le]
  have hdrop : (natBits n v ++ s).drop n = s := by
    rw [List.drop_append_of_le_length (natBits_length n v).ge,
      List.drop_of_length_le (natBits_length n v).le, List.nil_append]
  rw [natRead, if_pos (by simp), htake, hdrop, bitsNat_natBits_of_lt h]

theorem natRead_eq_some {n v : ℕ} {s s' : List Bool} (h : natRead n s = some (v, s')) :
    s = natBits n v ++ s' ∧ v < 2 ^ n := by
  unfold natRead at h
  split at h
  case isFalse => cases h
  case isTrue hle =>
    obtain ⟨rfl, rfl⟩ := Prod.mk.inj (Option.some.inj h)
    have hlen : (s.take n).length = n := List.length_take_of_le hle
    have hbits := natBits_bitsNat (s.take n)
    have hlt := bitsNat_lt (s.take n)
    rw [hlen] at hbits hlt
    exact ⟨by rw [hbits, List.take_append_drop], hlt⟩

/-! ### Bytes -/

/-- The eight bits of a byte. -/
def byteBits (b : UInt8) : List Bool := natBits 8 b.toNat

/-- The bits of a byte string. -/
def bytesBits (bs : List UInt8) : List Bool := bs.flatMap byteBits

@[simp] theorem byteBits_length (b : UInt8) : (byteBits b).length = 8 := natBits_length 8 _

@[simp] theorem bytesBits_nil : bytesBits [] = [] := rfl

@[simp] theorem bytesBits_cons (b : UInt8) (bs : List UInt8) :
    bytesBits (b :: bs) = byteBits b ++ bytesBits bs := rfl

@[simp] theorem bytesBits_append (as bs : List UInt8) :
    bytesBits (as ++ bs) = bytesBits as ++ bytesBits bs := List.flatMap_append ..

@[simp] theorem bytesBits_length (bs : List UInt8) : (bytesBits bs).length = 8 * bs.length := by
  induction bs with
  | nil => rfl
  | cons b bs ih =>
      rw [bytesBits_cons, List.length_append, byteBits_length, ih, List.length_cons]
      ring

theorem bytesBits_drop (bs : List UInt8) (k : ℕ) :
    (bytesBits bs).drop (8 * k) = bytesBits (bs.drop k) := by
  induction k generalizing bs with
  | zero => rfl
  | succ k ih =>
      cases bs with
      | nil => simp
      | cons b bs =>
          rw [bytesBits_cons, List.drop_succ_cons, ← ih bs, Nat.mul_succ, Nat.add_comm,
            ← List.drop_drop, List.drop_left' (byteBits_length b)]

theorem natBits_getElem? (n v i : ℕ) (h : i < n) :
    (natBits n v)[i]? = some (v.testBit (n - 1 - i)) := by
  induction n generalizing i with
  | zero => omega
  | succ n ih =>
      cases i with
      | zero => simp [natBits]
      | succ i =>
          rw [natBits, List.getElem?_cons_succ, ih i (by omega),
            show n + 1 - 1 - (i + 1) = n - 1 - i from by omega]

/-- **Bit addressing.**  Bit `p` of a byte string is bit `7 - p mod 8` of byte `p / 8`. -/
theorem bytesBits_getElem? (bs : List UInt8) (p : ℕ) :
    (bytesBits bs)[p]? = bs[p / 8]?.map fun b => b.toNat.testBit (7 - p % 8) := by
  induction bs generalizing p with
  | nil => simp
  | cons b bs ih =>
      rw [bytesBits_cons]
      rcases Nat.lt_or_ge p 8 with hp | hp
      · rw [List.getElem?_append_left (by simpa using hp), byteBits, natBits_getElem? 8 _ p hp,
          Nat.div_eq_of_lt hp, Nat.mod_eq_of_lt hp]
        rfl
      · rw [List.getElem?_append_right (by simpa using hp), byteBits_length, ih,
          show p / 8 = (p - 8) / 8 + 1 from by omega, show p % 8 = (p - 8) % 8 from by omega,
          List.getElem?_cons_succ]

theorem bytesBits_injective : Function.Injective bytesBits := by
  intro as bs h
  refine List.ext_getElem? fun i => ?_
  have hlen : as.length = bs.length := by
    have := congrArg List.length h
    simpa using this
  rcases Nat.lt_or_ge i as.length with hi | hi
  · rw [List.getElem?_eq_getElem hi, List.getElem?_eq_getElem (hlen ▸ hi)]
    congr 1
    apply UInt8.toNat.inj
    refine Nat.eq_of_testBit_eq fun k => ?_
    rcases Nat.lt_or_ge k 8 with hk | hk
    · have hp := congrArg (fun l : List Bool => l[8 * i + (7 - k)]?) h
      simp only [bytesBits_getElem?] at hp
      rw [show (8 * i + (7 - k)) / 8 = i from by omega,
        show 7 - (8 * i + (7 - k)) % 8 = k from by omega,
        List.getElem?_eq_getElem hi, List.getElem?_eq_getElem (hlen ▸ hi)] at hp
      simpa using hp
    · have hbig : ∀ b : UInt8, b.toNat.testBit k = false := fun b =>
        Nat.testBit_lt_two_pow (lt_of_lt_of_le b.toNat_lt (Nat.pow_le_pow_right (by omega) hk))
      rw [hbig, hbig]
  · rw [List.getElem?_eq_none hi, List.getElem?_eq_none (hlen ▸ hi)]

/-! ### Zeros at the end -/

/-- How many zeros end a bit string. -/
def trailingZeros (s : List Bool) : ℕ := (s.reverse.takeWhile (!·)).length

@[simp] theorem trailingZeros_concat_false (s : List Bool) :
    trailingZeros (s ++ [false]) = trailingZeros s + 1 := by
  simp [trailingZeros]

@[simp] theorem trailingZeros_concat_true (s : List Bool) : trailingZeros (s ++ [true]) = 0 := by
  simp [trailingZeros]

theorem trailingZeros_append_replicate (s : List Bool) (k : ℕ) :
    trailingZeros (s ++ List.replicate k false) = trailingZeros s + k := by
  induction k with
  | zero => simp
  | succ k ih =>
      rw [List.replicate_succ', ← List.append_assoc, trailingZeros_concat_false, ih]
      rfl

/-- Either a last one stands before the zeros, or there is nothing but zeros. -/
theorem trailingZeros_cases (s : List Bool) :
    (∃ x, s = x ++ true :: List.replicate (trailingZeros s) false) ∨
      s = List.replicate (trailingZeros s) false := by
  induction s using List.reverseRecOn with
  | nil => exact .inr rfl
  | append_singleton s b ih =>
      cases b with
      | true => exact .inl ⟨s, by rw [trailingZeros_concat_true]; rfl⟩
      | false =>
          rw [trailingZeros_concat_false, List.replicate_succ', ← List.cons_append]
          refine ih.imp ?_ fun hzeros => congrArg (· ++ [false]) hzeros
          rintro ⟨x, hx⟩
          exact ⟨x, by rw [← List.append_assoc, ← hx]⟩

/-- Behind a bit string that ends in a one, the zeros at the end are those of what follows. -/
theorem trailingZeros_append_of_true (x s : List Bool) :
    ∃ y, (x ++ [true]) ++ s = y ++ true :: List.replicate (trailingZeros s) false := by
  rcases trailingZeros_cases s with ⟨z, hz⟩ | hz
  · exact ⟨x ++ [true] ++ z, by rw [List.append_assoc (x ++ [true]), ← hz]⟩
  · exact ⟨x, by rw [List.append_assoc, List.singleton_append, ← hz]⟩

theorem trailingZeros_append_true (y : List Bool) (k : ℕ) :
    trailingZeros (y ++ true :: List.replicate k false) = k := by
  rw [← List.singleton_append, ← List.append_assoc, trailingZeros_append_replicate,
    trailingZeros_concat_true, Nat.zero_add]

/-! ### Setting a bit -/

theorem testBit_or_shift (byte : UInt8) (b : Bool) {i : ℕ} (hi : i ≤ 7) (k : ℕ) :
    (byte ||| UInt8.ofNat (b.toNat <<< i)).toNat.testBit k =
      (byte.toNat.testBit k || (decide (k = i) && b)) := by
  have hlt : b.toNat <<< i < 2 ^ 8 := by
    rw [Nat.shiftLeft_eq]
    calc b.toNat * 2 ^ i ≤ 1 * 2 ^ 7 :=
          Nat.mul_le_mul (Bool.toNat_le b) (Nat.pow_le_pow_right (by omega) hi)
      _ < 2 ^ 8 := by decide
  rw [UInt8.toNat_or, UInt8.toNat_ofNat', Nat.mod_eq_of_lt hlt, Nat.testBit_or,
    Nat.testBit_shiftLeft]
  congr 1
  rcases lt_trichotomy k i with h | h | h
  · simp [Nat.not_le.2 h, Nat.ne_of_lt h]
  · subst h
    cases b <;> simp
  · have hb : b.toNat.testBit (k - i) = false := by
      refine Nat.testBit_lt_two_pow (lt_of_le_of_lt (Bool.toNat_le b) ?_)
      exact Nat.one_lt_two_pow (by omega)
    simp [hb, Nat.ne_of_gt h]

/-- Setting one bit of one byte sets that bit of the string. -/
theorem bytesBits_modify (bs : List UInt8) (b : Bool) (p : ℕ) :
    bytesBits (bs.modify (p / 8) (· ||| UInt8.ofNat (b.toNat <<< (7 - p % 8)))) =
      (bytesBits bs).modify p (· || b) := by
  refine List.ext_getElem? fun q => ?_
  rw [bytesBits_getElem?, List.getElem?_modify, List.getElem?_modify, bytesBits_getElem?,
    Option.map_eq_map, Option.map_eq_map, Option.map_map, Option.map_map]
  congr 1
  funext byte
  simp only [Function.comp_apply]
  by_cases hdiv : p / 8 = q / 8
  · rw [if_pos hdiv, testBit_or_shift byte b (by omega)]
    by_cases hpq : p = q
    · subst hpq
      simp
    · have hmod : 7 - q % 8 ≠ 7 - p % 8 := by omega
      simp [hpq, hmod]
  · have hpq : p ≠ q := fun h => hdiv (by rw [h])
    simp [hdiv, hpq]

/-- The first bit after `bs` is clear, so setting it writes it. -/
theorem modify_length_append (bs t : List Bool) (b : Bool) :
    (bs ++ false :: t).modify bs.length (· || b) = bs ++ b :: t := by
  induction bs with
  | nil => simp
  | cons a bs ih => simpa using ih

/-! ### Exp-Golomb codes -/

/-- Unsigned Exp-Golomb code of `v`: `k` zeros, a one, then the `k` low bits of `v + 1`. -/
def ueBits (v : ℕ) : List Bool :=
  List.replicate (v + 1).log2 false ++ true :: natBits (v + 1).log2 (v + 1)

/-- Read an unsigned Exp-Golomb code after `k` zeros; runs longer than 31 are refused. -/
def ueReadFrom : ℕ → List Bool → Option (ℕ × List Bool)
  | _, [] => none
  | k, false :: s => if 31 < k + 1 then none else ueReadFrom (k + 1) s
  | k, true :: s => (natRead k s).map fun x => (2 ^ k - 1 + x.1, x.2)

/-- Read an unsigned Exp-Golomb code. -/
def ueRead (s : List Bool) : Option (ℕ × List Bool) := ueReadFrom 0 s

theorem log2_two_pow_add {k x : ℕ} (h : x < 2 ^ k) : (2 ^ k + x).log2 = k := by
  have hpos : 0 < 2 ^ k := Nat.two_pow_pos k
  refine (Nat.log2_eq_iff (by omega)).2 ⟨Nat.le_add_right _ _, ?_⟩
  rw [pow_succ]
  omega

/-- The code of `2 ^ k - 1 + x`, read off its prefix and suffix. -/
theorem ueBits_two_pow {k x : ℕ} (h : x < 2 ^ k) :
    ueBits (2 ^ k - 1 + x) = List.replicate k false ++ true :: natBits k x := by
  have hpos : 0 < 2 ^ k := Nat.two_pow_pos k
  have hv : 2 ^ k - 1 + x + 1 = 2 ^ k + x := by omega
  have hlow : natBits k (2 ^ k + x) = natBits k x := by
    simpa using natBits_mul_two_pow_add k 1 x
  rw [ueBits, hv, log2_two_pow_add h, hlow]

/-- Every value splits into a power of two and a suffix below it. -/
theorem exists_two_pow_split (v : ℕ) :
    ∃ k x, x < 2 ^ k ∧ v = 2 ^ k - 1 + x := by
  have hne : v + 1 ≠ 0 := Nat.succ_ne_zero v
  obtain ⟨hlo, hhi⟩ := (Nat.log2_eq_iff hne).1 rfl
  refine ⟨(v + 1).log2, v + 1 - 2 ^ (v + 1).log2, ?_, ?_⟩
  · rw [pow_succ] at hhi
    omega
  · have hpos : 0 < 2 ^ (v + 1).log2 := Nat.two_pow_pos _
    omega

theorem ueReadFrom_replicate (j k : ℕ) (hk : j + k ≤ 31) (s : List Bool) :
    ueReadFrom j (List.replicate k false ++ true :: s) =
      (natRead (j + k) s).map fun x => (2 ^ (j + k) - 1 + x.1, x.2) := by
  induction k generalizing j with
  | zero => rfl
  | succ k ih =>
      rw [List.replicate_succ, List.cons_append, ueReadFrom, if_neg (by omega),
        ih (j + 1) (by omega), show j + 1 + k = j + (k + 1) from by omega]

/-- A value below `2 ^ 32 - 1` has a run of at most 31 zeros. -/
theorem exponent_le {k x : ℕ} (h : 2 ^ k - 1 + x < 2 ^ 32 - 1) : k ≤ 31 := by
  by_contra hk
  have hpow : 2 ^ 32 ≤ 2 ^ k := Nat.pow_le_pow_right (by omega) (by omega)
  omega

theorem ueRead_append {v : ℕ} (h : v < 2 ^ 32 - 1) (s : List Bool) :
    ueRead (ueBits v ++ s) = some (v, s) := by
  obtain ⟨k, x, hx, rfl⟩ := exists_two_pow_split v
  have hk : k ≤ 31 := exponent_le h
  rw [ueBits_two_pow hx, List.append_assoc, List.cons_append, ueRead,
    ueReadFrom_replicate 0 k (by omega), Nat.zero_add, natRead_append hx]
  rfl

theorem ueReadFrom_eq_some {j v : ℕ} {s s' : List Bool} (hj : j ≤ 31)
    (h : ueReadFrom j s = some (v, s')) :
    v < 2 ^ 32 - 1 ∧ List.replicate j false ++ s = ueBits v ++ s' := by
  induction s generalizing j with
  | nil => simp [ueReadFrom] at h
  | cons b s ih =>
      cases b with
      | false =>
          rw [ueReadFrom] at h
          split at h
          case isTrue => cases h
          case isFalse hle =>
            obtain ⟨hv, hs⟩ := ih (by omega) h
            refine ⟨hv, ?_⟩
            rw [← hs, List.replicate_succ', List.append_assoc, List.singleton_append]
      | true =>
          rw [ueReadFrom, Option.map_eq_some_iff] at h
          obtain ⟨⟨x, t⟩, hread, heq⟩ := h
          obtain ⟨rfl, rfl⟩ := Prod.mk.inj heq
          obtain ⟨rfl, hx⟩ := natRead_eq_some hread
          have hpow : 2 ^ j ≤ 2 ^ 31 := Nat.pow_le_pow_right (by omega) hj
          refine ⟨by omega, ?_⟩
          rw [ueBits_two_pow hx, List.append_assoc, List.cons_append]

theorem ueReadFrom_length {j v : ℕ} {s s' : List Bool} (h : ueReadFrom j s = some (v, s')) :
    s'.length ≤ s.length := by
  induction s generalizing j with
  | nil => simp [ueReadFrom] at h
  | cons b s ih =>
      cases b with
      | false =>
          rw [ueReadFrom] at h
          split at h
          case isTrue => cases h
          case isFalse => exact (ih h).trans (Nat.le_succ _)
      | true =>
          rw [ueReadFrom, Option.map_eq_some_iff] at h
          obtain ⟨⟨x, t⟩, hread, heq⟩ := h
          obtain ⟨rfl, rfl⟩ := Prod.mk.inj heq
          obtain ⟨rfl, -⟩ := natRead_eq_some hread
          simp only [List.length_cons, List.length_append]
          omega

theorem ueRead_eq_some {v : ℕ} {s s' : List Bool} (h : ueRead s = some (v, s')) :
    s = ueBits v ++ s' ∧ v < 2 ^ 32 - 1 := by
  obtain ⟨hv, hs⟩ := ueReadFrom_eq_some (Nat.zero_le _) h
  exact ⟨by simpa using hs, hv⟩

/-- The unsigned code number of a signed value: `0, 1, -1, 2, -2, …` are `0, 1, 2, 3, 4, …`. -/
def seCode (v : ℤ) : ℕ := if 0 < v then 2 * v.toNat - 1 else 2 * (-v).toNat

/-- The signed value of a code number. -/
def seVal (c : ℕ) : ℤ := if c % 2 = 1 then ((c + 1) / 2 : ℕ) else -((c / 2 : ℕ) : ℤ)

theorem seVal_seCode (v : ℤ) : seVal (seCode v) = v := by
  unfold seVal seCode
  split <;> split <;> omega

theorem seCode_seVal (c : ℕ) : seCode (seVal c) = c := by
  unfold seVal seCode
  split <;> split <;> omega

/-- Signed Exp-Golomb code. -/
def seBits (v : ℤ) : List Bool := ueBits (seCode v)

/-- Read a signed Exp-Golomb code. -/
def seRead (s : List Bool) : Option (ℤ × List Bool) := (ueRead s).map fun x => (seVal x.1, x.2)

theorem seRead_append {v : ℤ} (h : seCode v < 2 ^ 32 - 1) (s : List Bool) :
    seRead (seBits v ++ s) = some (v, s) := by
  rw [seRead, seBits, ueRead_append h, Option.map_some, seVal_seCode]

theorem seRead_eq_some {v : ℤ} {s s' : List Bool} (h : seRead s = some (v, s')) :
    s = seBits v ++ s' ∧ seCode v < 2 ^ 32 - 1 := by
  rw [seRead, Option.map_eq_some_iff] at h
  obtain ⟨⟨c, t⟩, hread, heq⟩ := h
  obtain ⟨rfl, rfl⟩ := Prod.mk.inj heq
  rw [seBits, seCode_seVal]
  exact ueRead_eq_some hread

end BitString
