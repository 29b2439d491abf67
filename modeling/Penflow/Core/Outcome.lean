import Mathlib.Algebra.Ring.Int.Defs
import Mathlib.Algebra.Ring.Nat

/-!
# Outcomes of a call and checked arithmetic

A call ends with a value, with the `EngineError` it returns, or with a panic.  Arithmetic on `u32`
and `i32` depends on how the crate was built: a debug build panics on overflow, an over-long shift or
a failed `debug_assert!`, a release build wraps and skips the assertion.  `BuildProfile` is that
choice; every result that does not name an instance holds for both builds.
-/

namespace Penflow

/-- The `EngineError` variants the modelled code returns. -/
inductive EngineError where
  /-- A Windows API call failed. -/
  | win32
  | notInitialized
  deriving DecidableEq, Repr

/-- Why a call did not return a value. -/
inductive Fault where
  | err (e : EngineError)
  | panic
  deriving DecidableEq, Repr

/-- The result of a call. -/
abbrev Outcome := Except Fault

/-- A call that goes on after `x` returns exactly when both parts do. -/
theorem Outcome.bind_eq_ok {α β : Type} {x : Outcome α} {f : α → Outcome β} {b : β} :
    (x >>= f) = .ok b ↔ ∃ a, x = .ok a ∧ f a = .ok b := by
  cases x with
  | error e =>
      constructor
      · intro h
        cases h
      · rintro ⟨a, h, -⟩
        cases h
  | ok a =>
      constructor
      · intro h
        exact ⟨a, rfl, h⟩
      · rintro ⟨a', h, hf⟩
        cases h
        exact hf

/-- It ends early where one of the parts does. -/
theorem Outcome.bind_eq_error {α β : Type} {x : Outcome α} {f : α → Outcome β} {e : Fault} :
    (x >>= f) = .error e ↔ x = .error e ∨ ∃ a, x = .ok a ∧ f a = .error e := by
  cases x with
  | error e' =>
      constructor
      · intro h
        cases h
        exact .inl rfl
      · rintro (h | ⟨a, h, -⟩)
        · cases h
          rfl
        · cases h
  | ok a =>
      constructor
      · intro h
        exact .inr ⟨a, rfl, h⟩
      · rintro (h | ⟨a', h, hf⟩)
        · cases h
        · cases h
          exact hf

/-- The call returns no error: it returns a value or panics. -/
def Outcome.Unfailing {α : Type} (x : Outcome α) : Prop := ∀ e, x ≠ .error (.err e)

theorem Outcome.Unfailing.bind {α β : Type} {x : Outcome α} {f : α → Outcome β} (hx : x.Unfailing)
    (hf : ∀ a, x = .ok a → (f a).Unfailing) : (x >>= f).Unfailing := by
  intro e
  cases x with
  | error fault =>
      intro h
      cases h
      exact hx e rfl
  | ok a => exact hf a rfl e

theorem Outcome.unfailing_ok {α : Type} (a : α) : Outcome.Unfailing (.ok a) := by
  intro e h
  cases h

theorem Outcome.unfailing_panic {α : Type} : Outcome.Unfailing (.error .panic : Outcome α) := by
  intro e h
  cases h

theorem Outcome.eq_panic {α : Type} {x : Outcome α} (hx : x.Unfailing) (hok : ∀ a, x ≠ .ok a) :
    x = .error .panic := by
  cases x with
  | error fault =>
      cases fault with
      | err e => exact absurd rfl (hx e)
      | panic => rfl
  | ok a => exact absurd rfl (hok a)

/-- A loop of calls that return no error. -/
theorem Outcome.Unfailing.foldlM {σ α : Type} {step : σ → α → Outcome σ}
    (hstep : ∀ s a, (step s a).Unfailing) (s : σ) (xs : List α) : (xs.foldlM step s).Unfailing := by
  induction xs generalizing s with
  | nil => exact Outcome.unfailing_ok s
  | cons x xs ih =>
      rw [List.foldlM_cons]
      exact (hstep s x).bind fun s' _ => ih s'

/-- What the call returns satisfies `Q`, and `P` holds where it panics. -/
def Outcome.Ends {α : Type} (P : Prop) (Q : α → Prop) : Outcome α → Prop
  | .ok a => Q a
  | .error .panic => P
  | .error (.err _) => True

theorem Outcome.Ends.bind {α β : Type} {P : Prop} {Q : α → Prop} {R : β → Prop} {x : Outcome α}
    {f : α → Outcome β} (hx : x.Ends P Q) (hf : ∀ a, Q a → (f a).Ends P R) : (x >>= f).Ends P R := by
  cases x with
  | error fault =>
      cases fault with
      | err e => trivial
      | panic => exact hx
  | ok a => exact hf a hx

theorem Outcome.Ends.mono {α : Type} {P P' : Prop} {Q R : α → Prop} {x : Outcome α} (hx : x.Ends P Q)
    (hP : P → P') (hQ : ∀ a, Q a → R a) : x.Ends P' R := by
  cases x with
  | error fault =>
      cases fault with
      | err e => trivial
      | panic => exact hP hx
  | ok a => exact hQ a hx

/-- **Counting loops.**  What each turn takes to the next count holds at the end. -/
theorem Outcome.ends_foldlM_range {σ : Type} {P : Prop} {I : ℕ → σ → Prop}
    {step : σ → ℕ → Outcome σ} {n : ℕ} {s : σ} (hs : I 0 s)
    (hstep : ∀ i < n, ∀ s, I i s → (step s i).Ends P (I (i + 1))) :
    ((List.range n).foldlM step s).Ends P (I n) := by
  induction n with
  | zero => exact hs
  | succ n ih =>
      rw [List.range_succ, List.foldlM_append]
      refine (ih fun i hi => hstep i (by omega)).bind fun s hinv => ?_
      rw [List.foldlM_cons]
      exact (hstep n (by omega) s hinv).bind fun s' hs' => hs'

/-- `true` for a debug build: overflow checks and debug assertions are compiled in. -/
class BuildProfile where
  overflowChecks : Bool

/-- What an arithmetic overflow does: panic, or go on with the wrapped value. -/
def overflow [BuildProfile] {α : Type} (wrapped : α) : Outcome α :=
  if BuildProfile.overflowChecks then .error .panic else .ok wrapped

/-- `debug_assert!` -/
def debugAssert [BuildProfile] (c : Prop) [Decidable c] : Outcome Unit :=
  if BuildProfile.overflowChecks && !decide c then .error .panic else .ok ()

/-- `a + b` on `u32`. -/
def addU32 [BuildProfile] (a b : ℕ) : Outcome ℕ :=
  if a + b < 2 ^ 32 then .ok (a + b) else overflow ((a + b) % 2 ^ 32)

/-- `a - b` on `u32`. -/
def subU32 [BuildProfile] (a b : ℕ) : Outcome ℕ :=
  if b ≤ a then .ok (a - b) else overflow (2 ^ 32 + a - b)

/-- `a * b` on `u32`. -/
def mulU32 [BuildProfile] (a b : ℕ) : Outcome ℕ :=
  if a * b < 2 ^ 32 then .ok (a * b) else overflow (a * b % 2 ^ 32)

/-- `a + b` on `usize`, which has 64 bits. -/
def addUsize [BuildProfile] (a b : ℕ) : Outcome ℕ :=
  if a + b < 2 ^ 64 then .ok (a + b) else overflow ((a + b) % 2 ^ 64)

/-- `a * b` on `usize`. -/
def mulUsize [BuildProfile] (a b : ℕ) : Outcome ℕ :=
  if a * b < 2 ^ 64 then .ok (a * b) else overflow (a * b % 2 ^ 64)

/-- `a.checked_add(b)` on `usize`. -/
def checkedAddUsize (a b : ℕ) : Option ℕ := if a + b < 2 ^ 64 then some (a + b) else none

/-- `1u32 << k` -/
def shlOne [BuildProfile] (k : ℕ) : Outcome ℕ :=
  if k < 32 then .ok (2 ^ k) else overflow (2 ^ (k % 32))

/-- `v >> k` on `u32`. -/
def shrU32 [BuildProfile] (v k : ℕ) : Outcome ℕ :=
  if k < 32 then .ok (v >>> k) else overflow (v >>> (k % 32))

/-- `(-v) as u32` for an `i32`: only the least value has no negation. -/
def negAsU32 [BuildProfile] (v : ℤ) : Outcome ℕ :=
  if v = -2 ^ 31 then overflow (2 ^ 31) else .ok (-v % 2 ^ 32).toNat

/-- `a - b` on `i32`. -/
def subI32 [BuildProfile] (a b : ℤ) : Outcome ℤ :=
  if -2 ^ 31 ≤ a - b ∧ a - b < 2 ^ 31 then .ok (a - b) else overflow (Int.bmod (a - b) (2 ^ 32))

/-- `a + b` on `i32`. -/
def addI32 [BuildProfile] (a b : ℤ) : Outcome ℤ :=
  if -2 ^ 31 ≤ a + b ∧ a + b < 2 ^ 31 then .ok (a + b) else overflow (Int.bmod (a + b) (2 ^ 32))

/-- `xs[i]` -/
def index {α : Type} (xs : List α) (i : ℕ) : Outcome α :=
  match xs[i]? with
  | none => .error .panic
  | some x => .ok x

/-- The bounds check of an access at `i` in an array of length `n`. -/
def boundsCheck (i n : ℕ) : Outcome Unit := if i < n then .ok () else .error .panic

/-- `isize::MAX`, the size that no allocation exceeds. -/
def isizeMax : ℕ := 2 ^ 63 - 1

/-- `&[u8]`: no slice is larger than an allocation can be. -/
structure ByteSlice where
  bytes : List UInt8
  length_le : bytes.length ≤ isizeMax

/-- `Vec::with_capacity(n)` for bytes, which panics on a capacity that no allocation can have. -/
def withCapacity (n : ℕ) : Outcome (List UInt8) := if n ≤ isizeMax then .ok [] else .error .panic

/-- `Vec::with_capacity(n)` for elements of four bytes, with the same limit. -/
def withCapacityU32 (n : ℕ) : Outcome (List ℕ) := if n * 4 ≤ isizeMax then .ok [] else .error .panic

/-- A number that a `u32` holds is no such capacity. -/
theorem withCapacityU32_of_lt {n : ℕ} (h : n < 2 ^ 32) : withCapacityU32 n = .ok [] := by
  rw [withCapacityU32, isizeMax, if_pos (by omega)]

/-- `vec.extend_from_slice(bytes)`, with the same limit. -/
def extendFromSlice (vec bytes : List UInt8) : Outcome (List UInt8) :=
  if vec.length + bytes.length ≤ isizeMax then .ok (vec ++ bytes) else .error .panic

/-- `x.ok_or(EngineError::NotInitialized)` -/
def okOr {α : Type} : Option α → Outcome α
  | none => .error (.err .notInitialized)
  | some x => .ok x

/-- `&xs[from..to]` -/
def slice {α : Type} (xs : List α) (lo hi : ℕ) : Outcome (List α) :=
  if lo ≤ hi ∧ hi ≤ xs.length then .ok ((xs.take hi).drop lo) else .error .panic

theorem slice_of_le {α : Type} {xs : List α} {lo hi : ℕ} (h₁ : lo ≤ hi) (h₂ : hi ≤ xs.length) :
    slice xs lo hi = .ok ((xs.take hi).drop lo) := if_pos ⟨h₁, h₂⟩

/-- A slice at known places. -/
theorem slice_append {α : Type} (a x y : List α) :
    slice (a ++ (x ++ y)) a.length (a.length + x.length) = .ok x := by
  rw [slice_of_le (Nat.le_add_right ..) (by simp only [List.length_append]; omega),
    ← List.append_assoc, ← List.length_append, List.take_left, List.drop_left]

theorem index_append {α : Type} (a : List α) (x : α) (y : List α) :
    index (a ++ x :: y) a.length = .ok x := by
  rw [index, List.getElem?_append_right (Nat.le_refl _), Nat.sub_self]
  rfl

theorem unfailing_index {α : Type} (xs : List α) (i : ℕ) : (index xs i).Unfailing := by
  rw [index]
  split
  · exact Outcome.unfailing_panic
  · exact Outcome.unfailing_ok _

theorem index_ends {α : Type} {P : Prop} {xs : List α} {i : ℕ} (hP : xs.length ≤ i → P) :
    (index xs i).Ends P fun x => xs[i]? = some x := by
  rw [index]
  split
  case h_1 hnone => exact hP (List.getElem?_eq_none_iff.1 hnone)
  case h_2 x hx => exact hx

theorem unfailing_withCapacity (n : ℕ) : (withCapacity n).Unfailing := by
  rw [withCapacity]
  split
  · exact Outcome.unfailing_ok _
  · exact Outcome.unfailing_panic

theorem withCapacity_ends {P : Prop} {n : ℕ} (hP : isizeMax < n → P) :
    (withCapacity n).Ends P fun vec => vec = [] := by
  rw [withCapacity]
  split
  · rfl
  · exact hP (by omega)

theorem unfailing_extendFromSlice (vec bytes : List UInt8) :
    (extendFromSlice vec bytes).Unfailing := by
  rw [extendFromSlice]
  split
  · exact Outcome.unfailing_ok _
  · exact Outcome.unfailing_panic

theorem extendFromSlice_ends {P : Prop} {vec bytes : List UInt8}
    (hP : isizeMax < vec.length + bytes.length → P) :
    (extendFromSlice vec bytes).Ends P fun vec' => vec' = vec ++ bytes := by
  rw [extendFromSlice]
  split
  · rfl
  · exact hP (by omega)

variable [BuildProfile]

theorem unfailing_overflow {α : Type} (a : α) : (overflow a).Unfailing := by
  intro e h
  rw [overflow] at h
  split at h <;> cases h

theorem unfailing_mulU32 (a b : ℕ) : (mulU32 a b).Unfailing := by
  rw [mulU32]
  split
  · exact Outcome.unfailing_ok _
  · exact unfailing_overflow _

theorem unfailing_mulUsize (a b : ℕ) : (mulUsize a b).Unfailing := by
  rw [mulUsize]
  split
  · exact Outcome.unfailing_ok _
  · exact unfailing_overflow _

theorem unfailing_addUsize (a b : ℕ) : (addUsize a b).Unfailing := by
  rw [addUsize]
  split
  · exact Outcome.unfailing_ok _
  · exact unfailing_overflow _

theorem debugAssert_of {c : Prop} [Decidable c] (h : c) : debugAssert c = .ok () := by
  simp [debugAssert, h]

theorem addU32_of_lt {a b : ℕ} (h : a + b < 2 ^ 32) : addU32 a b = .ok (a + b) := if_pos h

theorem subU32_of_le {a b : ℕ} (h : b ≤ a) : subU32 a b = .ok (a - b) := if_pos h

theorem mulU32_of_lt {a b : ℕ} (h : a * b < 2 ^ 32) : mulU32 a b = .ok (a * b) := if_pos h

/-- A product that may be too large. -/
theorem mulUsize_ends {P : Prop} {Q : ℕ → Prop} {a b : ℕ} (hlt : a * b < 2 ^ 64 → Q (a * b))
    (hover : 2 ^ 64 ≤ a * b → P ∧ Q (a * b % 2 ^ 64)) : (mulUsize a b).Ends P Q := by
  rw [mulUsize]
  split
  case isTrue h => exact hlt h
  case isFalse h =>
    obtain ⟨hP, hQ⟩ := hover (by omega)
    rw [overflow]
    split
    · exact hP
    · exact hQ

theorem addUsize_of_lt {a b : ℕ} (h : a + b < 2 ^ 64) : addUsize a b = .ok (a + b) := if_pos h

theorem mulUsize_of_lt {a b : ℕ} (h : a * b < 2 ^ 64) : mulUsize a b = .ok (a * b) := if_pos h

theorem shlOne_of_lt {k : ℕ} (h : k < 32) : shlOne k = .ok (2 ^ k) := if_pos h

theorem shrU32_of_lt {v k : ℕ} (h : k < 32) : shrU32 v k = .ok (v >>> k) := if_pos h

end Penflow
