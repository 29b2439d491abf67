import Mathlib.Algebra.BigOperators.Group.List.Basic
import Mathlib.Algebra.Ring.Nat
import Mathlib.Data.Nat.Notation
import Mathlib.Tactic.Common

/-!
# Readings of a growing counter

A counter that only grows is read from time to time, and each reading is reported in a word of `m` values.
The reports are per interval when those up to a reading sum up to it.  A counter that starts again at each
reading reports so as long as it grows by less than `m` in between; one that is reported as it stands does
only as long as every reading but the last is 0.
-/

namespace Readings

variable {m : ℕ}

/-- Each reading is the one before or more, by less than `m`. -/
def Spaced (m : ℕ) : ℕ → List ℕ → Prop
  | _, [] => True
  | prev, d :: ds => prev ≤ d ∧ d < prev + m ∧ Spaced m d ds

theorem spaced_concat {prev d : ℕ} {ds : List ℕ} :
    Spaced m prev (ds ++ [d]) ↔
      Spaced m prev ds ∧ ds.getLastD prev ≤ d ∧ d < ds.getLastD prev + m := by
  induction ds generalizing prev with
  | nil => simp only [List.nil_append, Spaced, List.getLastD_nil, and_true, true_and]
  | cons e ds ih => simp only [List.cons_append, Spaced, ih, List.getLastD_cons, and_assoc]

/-- The reports up to each reading sum up to it. -/
def PerInterval (reports readings : List ℕ) : Prop :=
  ∀ n (hn : n < readings.length), (reports.take (n + 1)).sum = readings[n]

/-- Each report is what the counter has grown. -/
def Adds : ℕ → List ℕ → List ℕ → Prop
  | prev, r :: rs, d :: ds => prev + r = d ∧ Adds d rs ds
  | _, [], [] => True
  | _, _, _ => False

theorem adds_iff {prev : ℕ} {reports readings : List ℕ} (hlength : reports.length = readings.length) :
    Adds prev reports readings ↔
      ∀ n (hn : n < readings.length), prev + (reports.take (n + 1)).sum = readings[n] := by
  induction reports generalizing prev readings with
  | nil =>
      obtain rfl := List.length_eq_zero_iff.1 hlength.symm
      simp only [Adds, List.length_nil, Nat.not_lt_zero, IsEmpty.forall_iff, implies_true]
  | cons r rs ih =>
      cases readings with
      | nil => cases hlength
      | cons d ds =>
          rw [Adds, ih (Nat.succ.inj hlength)]
          constructor
          · rintro ⟨hd, h⟩ n hn
            cases n with
            | zero => simpa using hd
            | succ n =>
                have hn' := h n (Nat.lt_of_succ_lt_succ hn)
                rw [List.take_succ_cons, List.sum_cons, ← Nat.add_assoc, hd]
                exact hn'
          · intro h
            have hd : prev + r = d := by simpa using h 0 (Nat.succ_pos _)
            refine ⟨hd, ?_⟩
            intro n hn
            have hn' := h (n + 1) (Nat.succ_lt_succ hn)
            rw [List.take_succ_cons, List.sum_cons, ← Nat.add_assoc, hd] at hn'
            exact hn'

theorem perInterval_iff_adds {reports readings : List ℕ} (hlength : reports.length = readings.length) :
    PerInterval reports readings ↔ Adds 0 reports readings := by
  rw [adds_iff hlength]
  simp only [PerInterval, Nat.zero_add]

/-! ### A counter that starts again -/

/-- What a counter reports that starts again at each reading. -/
def swapped (m : ℕ) : ℕ → List ℕ → List ℕ
  | _, [] => []
  | prev, d :: ds => (d - prev) % m :: swapped m d ds

theorem swapped_length (prev : ℕ) (ds : List ℕ) : (swapped m prev ds).length = ds.length := by
  induction ds generalizing prev with
  | nil => rfl
  | cons d ds ih => rw [swapped, List.length_cons, List.length_cons, ih]

theorem swapped_concat (prev d : ℕ) (ds : List ℕ) :
    swapped m prev (ds ++ [d]) = swapped m prev ds ++ [(d - ds.getLastD prev) % m] := by
  induction ds generalizing prev with
  | nil => rfl
  | cons e ds ih =>
      rw [List.cons_append, swapped, ih, swapped, List.cons_append, List.getLastD_cons]

theorem adds_swapped {prev : ℕ} {ds : List ℕ} (h : Spaced m prev ds) :
    Adds prev (swapped m prev ds) ds := by
  induction ds generalizing prev with
  | nil => trivial
  | cons d ds ih =>
      obtain ⟨hle, hlt, htail⟩ := h
      refine ⟨?_, ih htail⟩
      rw [Nat.mod_eq_of_lt (by omega)]
      omega

/-- **A counter that starts again** reports per interval. -/
theorem perInterval_swapped {ds : List ℕ} (h : Spaced m 0 ds) : PerInterval (swapped m 0 ds) ds :=
  (perInterval_iff_adds (swapped_length 0 ds)).2 (adds_swapped h)

/-! ### A counter that goes on -/

variable {narrow : ℕ → ℕ}

theorem adds_narrowed_iff (hnarrow : ∀ d, d < 2 * m → narrow d = d % m) {prev : ℕ} {ds : List ℕ}
    (hprev : prev < m) (h : Spaced m prev ds) :
    Adds prev (ds.map narrow) ds ↔ (ds = [] ∨ prev = 0) ∧ ∀ d ∈ ds.dropLast, d = 0 := by
  induction ds generalizing prev with
  | nil => simp [Adds]
  | cons d ds ih =>
      obtain ⟨hle, hlt, htail⟩ := h
      have hd : narrow d = d % m := hnarrow d (by omega)
      -- the reading is below `2 * m`, so its word is the reading or `m` less
      have hsum : prev + narrow d = d ↔ prev = 0 := by
        rw [hd]
        by_cases hsmall : d < m
        · rw [Nat.mod_eq_of_lt hsmall]
          omega
        · rw [Nat.mod_eq_sub_mod (by omega), Nat.mod_eq_of_lt (by omega)]
          omega
      rw [List.map_cons, Adds, hsum]
      constructor
      · rintro ⟨hzero, hadds⟩
        have hrest := (ih (by omega) htail).1 hadds
        refine ⟨Or.inr hzero, ?_⟩
        cases ds with
        | nil => simp
        | cons e ds =>
            intro x hx
            rw [List.dropLast_cons_cons] at hx
            rcases List.mem_cons.1 hx with rfl | hx
            · exact hrest.1.resolve_left (List.cons_ne_nil e ds)
            · exact hrest.2 x hx
      · rintro ⟨hzero, hrest⟩
        have hprev0 : prev = 0 := hzero.resolve_left (List.cons_ne_nil d ds)
        refine ⟨hprev0, (ih (by omega) htail).2 ?_⟩
        cases ds with
        | nil => simp
        | cons e ds =>
            rw [List.dropLast_cons_cons] at hrest
            exact ⟨Or.inr (hrest d List.mem_cons_self), fun x hx => hrest x (List.mem_cons_of_mem d hx)⟩

/-- **A counter that goes on** reports per interval only while it stands at 0, but for the last reading. -/
theorem perInterval_narrowed_iff (hm : 0 < m) (hnarrow : ∀ d, d < 2 * m → narrow d = d % m)
    {ds : List ℕ} (h : Spaced m 0 ds) :
    PerInterval (ds.map narrow) ds ↔ ∀ d ∈ ds.dropLast, d = 0 := by
  rw [perInterval_iff_adds (List.length_map narrow), adds_narrowed_iff hnarrow hm h]
  simp only [or_true, true_and]

end Readings
