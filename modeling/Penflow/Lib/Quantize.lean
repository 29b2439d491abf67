import Mathlib.Algebra.Order.Round
import Mathlib.Tactic.Linarith

/-!
# Clamped rounding

`quantize M u` is the level from `0` to `M` nearest to `u`.  A level stands for a cell of half a unit to
both sides, and the first and the last one for all that lies beyond.

The main result says when the levels of all points of an interval are, up to half a unit, where the points
are counted from an offset `o`: there is no offset, or the interval lies within one cell.
-/

namespace Quantize

variable {K : Type*} [Field K] [LinearOrder K] [IsStrictOrderedRing K] [FloorRing K]

def quantize (M : ℕ) (u : K) : ℤ := round (min (max u 0) (M : K))

/-- The points of the level `n`. -/
def InCell (M : ℕ) (n : ℤ) (u : K) : Prop :=
  (n = 0 ∨ (n : K) - 1 / 2 ≤ u) ∧ (n = M ∨ u < (n : K) + 1 / 2)

variable {M : ℕ} {n : ℤ} {u a b o : K}

theorem sub_half_le_intCast {m : ℤ} : (n : K) - 1 / 2 ≤ m ↔ n ≤ m := by
  constructor
  · intro h
    have hlt : (n : K) < (m + 1 : ℤ) := by
      push_cast
      linarith
    exact Int.lt_add_one_iff.1 (Int.cast_lt.1 hlt)
  · intro h
    have hle : (n : K) ≤ m := Int.cast_le.2 h
    linarith

theorem intCast_lt_add_half {m : ℤ} : (m : K) < (n : K) + 1 / 2 ↔ m ≤ n := by
  constructor
  · intro h
    have hlt : (m : K) < (n + 1 : ℤ) := by
      push_cast
      linarith
    exact Int.lt_add_one_iff.1 (Int.cast_lt.1 hlt)
  · intro h
    have hle : (m : K) ≤ n := Int.cast_le.2 h
    linarith

/-- **The levels are the cells.** -/
theorem quantize_eq_iff : quantize M u = n ↔ (0 ≤ n ∧ n ≤ M) ∧ InCell M n u := by
  have hzero : (n : K) - 1 / 2 ≤ 0 ↔ n ≤ 0 := by
    simpa using sub_half_le_intCast (K := K) (n := n) (m := 0)
  have htop : (n : K) - 1 / 2 ≤ (M : K) ↔ n ≤ M := by
    simpa using sub_half_le_intCast (K := K) (n := n) (m := M)
  have hzero' : (0 : K) < (n : K) + 1 / 2 ↔ 0 ≤ n := by
    simpa using intCast_lt_add_half (K := K) (n := n) (m := 0)
  have htop' : (M : K) < (n : K) + 1 / 2 ↔ (M : ℤ) ≤ n := by
    simpa using intCast_lt_add_half (K := K) (n := n) (m := M)
  rw [quantize, round_eq_iff, Set.mem_Ico, le_min_iff, min_lt_iff, le_max_iff, max_lt_iff, hzero, htop,
    hzero', htop', InCell]
  constructor
  · rintro ⟨⟨hlow, hle⟩, hhigh⟩
    have hnonneg : 0 ≤ n := by
      rcases hhigh with ⟨-, hn⟩ | hn
      · exact hn
      · exact le_trans (Int.natCast_nonneg M) hn
    refine ⟨⟨hnonneg, hle⟩, ?_, ?_⟩
    · rcases hlow with hlow | hlow
      · exact .inr hlow
      · exact .inl (le_antisymm hlow hnonneg)
    · rcases hhigh with ⟨hu, -⟩ | hn
      · exact .inr hu
      · exact .inl (le_antisymm hle hn)
  · rintro ⟨⟨hnonneg, hle⟩, hlow, hhigh⟩
    refine ⟨⟨?_, hle⟩, ?_⟩
    · rcases hlow with rfl | hlow
      · exact .inr le_rfl
      · exact .inl hlow
    · rcases hhigh with rfl | hu
      · exact .inr le_rfl
      · exact .inl ⟨hu, hnonneg⟩

omit [IsStrictOrderedRing K] [FloorRing K] in
/-- The cells are intervals. -/
theorem InCell.between (ha : InCell M n a) (hb : InCell M n b) (hau : a ≤ u) (hub : u ≤ b) :
    InCell M n u := by
  refine ⟨ha.1.imp_right fun h => le_trans h hau, hb.2.imp_right fun h => lt_of_le_of_lt hub h⟩

theorem quantize_mono (hab : a ≤ b) : quantize M a ≤ quantize M b := by
  obtain ⟨⟨-, ha⟩, hlow, -⟩ := quantize_eq_iff.1 (rfl : quantize M a = _)
  obtain ⟨⟨hb, -⟩, -, hhigh⟩ := quantize_eq_iff.1 (rfl : quantize M b = _)
  by_contra hlt
  rw [not_le] at hlt
  have hlow : ((quantize M a : ℤ) : K) - 1 / 2 ≤ a := hlow.resolve_left (by omega)
  have hhigh : b < ((quantize M b : ℤ) : K) + 1 / 2 := hhigh.resolve_left (by omega)
  have hcast : ((quantize M b + 1 : ℤ) : K) ≤ (quantize M a : ℤ) := Int.cast_le.2 hlt
  push_cast at hcast
  linarith

/-- The level of every point of the interval is within half a unit of the point counted from `o`. -/
def Shifts (M : ℕ) (o a b : K) : Prop :=
  ∀ u, a ≤ u → u ≤ b → |(quantize M u : K) - (u - o)| ≤ 1 / 2

theorem shifts_zero (ha : -(1 / 2) ≤ a) (hb : b ≤ M + 1 / 2) : Shifts M 0 a b := by
  intro u hau hub
  obtain ⟨-, hlow, hhigh⟩ := quantize_eq_iff.1 (rfl : quantize M u = _)
  rw [sub_zero, abs_le]
  constructor
  · rcases hhigh with hM | hu
    · rw [hM, Int.cast_natCast]
      linarith
    · linarith
  · rcases hlow with h0 | hu
    · rw [h0, Int.cast_zero]
      linarith
    · linarith

theorem shifts_inCell (hn : 0 ≤ n ∧ n ≤ M) (ha : InCell M n a) (hb : InCell M n b)
    (hao : |(n : K) - (a - o)| ≤ 1 / 2) (hbo : |(n : K) - (b - o)| ≤ 1 / 2) : Shifts M o a b := by
  intro u hau hub
  rw [quantize_eq_iff.2 ⟨hn, ha.between hb hau hub⟩]
  rw [abs_le] at hao hbo ⊢
  constructor <;> linarith

/-- An interval with points of two levels has points on both sides of a cell's edge, as close to it as one
likes. -/
theorem Shifts.offset_eq_zero (h : Shifts M o a b) (hab : a ≤ b) (hne : quantize M a ≠ quantize M b) :
    o = 0 := by
  have hlt : quantize M a < quantize M b := lt_of_le_of_ne (quantize_mono hab) hne
  obtain ⟨⟨hp, -⟩, hlow, hhigh⟩ := quantize_eq_iff.1 (rfl : quantize M a = _)
  obtain ⟨⟨-, hq⟩, hlow', -⟩ := quantize_eq_iff.1 (rfl : quantize M b = _)
  generalize quantize M a = p at hlt hp hlow hhigh
  generalize quantize M b = q at hlt hq hlow'
  have ha : a < (p : K) + 1 / 2 := hhigh.resolve_left (by omega)
  have hb : (p : K) + 1 / 2 ≤ b := by
    have hqb : (q : K) - 1 / 2 ≤ b := hlow'.resolve_left (by omega)
    have hcast : ((p + 1 : ℤ) : K) ≤ q := Int.cast_le.2 hlt
    push_cast at hcast
    linarith
  apply le_antisymm
  · -- the edge itself is of the upper level
    have hedge : quantize M ((p : K) + 1 / 2) = p + 1 := by
      refine quantize_eq_iff.2 ⟨⟨by omega, by omega⟩, .inr ?_, .inr ?_⟩
      · push_cast
        linarith
      · push_cast
        linarith
    have habs := h _ ha.le hb
    rw [hedge, abs_le] at habs
    push_cast at habs
    linarith [habs.2]
  · -- just below the edge is the lower one
    by_contra hneg
    rw [not_le] at hneg
    have hpos : 0 < min (-o / 2) ((p : K) + 1 / 2 - a) := lt_min (by linarith) (by linarith)
    have hleft := min_le_left (-o / 2) ((p : K) + 1 / 2 - a)
    have hright := min_le_right (-o / 2) ((p : K) + 1 / 2 - a)
    generalize min (-o / 2) ((p : K) + 1 / 2 - a) = ε at hpos hleft hright
    have hbelow : quantize M ((p : K) + 1 / 2 - ε) = p := by
      refine quantize_eq_iff.2 ⟨⟨hp, by omega⟩, hlow.imp_right fun h => ?_, .inr ?_⟩
      · linarith
      · linarith
    have habs := h ((p : K) + 1 / 2 - ε) (by linarith) (by linarith)
    rw [hbelow, abs_le] at habs
    linarith [habs.1]

/-- **When the levels count from an offset.** -/
theorem shifts_iff (hab : a ≤ b) : Shifts M o a b ↔ (o = 0 ∧ -(1 / 2) ≤ a ∧ b ≤ M + 1 / 2) ∨
    ∃ n : ℤ, (0 ≤ n ∧ n ≤ M) ∧ (InCell M n a ∧ InCell M n b) ∧
      |(n : K) - (a - o)| ≤ 1 / 2 ∧ |(n : K) - (b - o)| ≤ 1 / 2 := by
  constructor
  · intro h
    have ha := h a le_rfl hab
    have hb := h b hab le_rfl
    obtain ⟨hp, hcell⟩ := quantize_eq_iff.1 (rfl : quantize M a = _)
    obtain ⟨hq, hcell'⟩ := quantize_eq_iff.1 (rfl : quantize M b = _)
    by_cases heq : quantize M a = quantize M b
    · rw [← heq] at hb hcell'
      exact .inr ⟨quantize M a, hp, ⟨hcell, hcell'⟩, ha, hb⟩
    · obtain rfl := h.offset_eq_zero hab heq
      have hlow : (0 : K) ≤ (quantize M a : ℤ) := Int.cast_nonneg hp.1
      have hhigh : ((quantize M b : ℤ) : K) ≤ M := by
        rw [← Int.cast_natCast]
        exact Int.cast_le.2 hq.2
      rw [sub_zero, abs_le] at ha hb
      exact .inl ⟨rfl, by linarith [ha.2], by linarith [hb.1]⟩
  · rintro (⟨rfl, ha, hb⟩ | ⟨n, hn, ⟨ha, hb⟩, hao, hbo⟩)
    · exact shifts_zero ha hb
    · exact shifts_inCell hn ha hb hao hbo

end Quantize
