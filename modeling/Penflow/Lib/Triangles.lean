import Mathlib.Algebra.Order.Floor.Ring
import Mathlib.Tactic.Linarith
import Mathlib.Tactic.Ring

/-!
# Triangles on a screen

A rasteriser draws the pixels whose centres a triangle covers, where a centre on an edge belongs to the
triangle only if the edge is a top or a left one.  So triangles that share an edge draw every centre on it
once.  A rectangle drawn as a strip of two triangles covers just the centres in it, each once, and what is
interpolated between its corners is the one affine function that they fix.

The second coordinate grows downwards.
-/

namespace Triangles

variable {K : Type*} [Field K] [LinearOrder K]

/-- Twice the area of `a`, `b`, `p`, positive where they go around clockwise. -/
def cross (a b p : K × K) : K := (b.1 - a.1) * (p.2 - a.2) - (b.2 - a.2) * (p.1 - a.1)

/-- On the way around a triangle clockwise, the edge is a left one or a top one. -/
def TopLeft (a b : K × K) : Prop := b.2 < a.2 ∨ b.2 = a.2 ∧ a.1 < b.1

/-- The inner side of an edge, with the edge itself where it belongs to the triangle. -/
def Inside (a b p : K × K) : Prop := 0 < cross a b p ∨ cross a b p = 0 ∧ TopLeft a b

/-- What a triangle covers that goes around clockwise. -/
def CoversClockwise (a b c p : K × K) : Prop := Inside a b p ∧ Inside b c p ∧ Inside c a p

/-- What a triangle covers, whichever way it goes around. -/
def Covers (a b c p : K × K) : Prop :=
  0 < cross a b c ∧ CoversClockwise a b c p ∨ cross a b c < 0 ∧ CoversClockwise a c b p

instance (a b : K × K) : Decidable (TopLeft a b) := inferInstanceAs (Decidable (_ ∨ _))

instance (a b p : K × K) : Decidable (Inside a b p) := inferInstanceAs (Decidable (_ ∨ _))

instance (a b c p : K × K) : Decidable (CoversClockwise a b c p) := inferInstanceAs (Decidable (_ ∧ _))

instance (a b c p : K × K) : Decidable (Covers a b c p) := inferInstanceAs (Decidable (_ ∨ _))

/-- The value at `p` between the values at the corners. -/
def interpolate (a b c : K × K) (u v w : K) (p : K × K) : K :=
  (cross b c p * u + cross c a p * v + cross a b p * w) / cross a b c

omit [LinearOrder K] in
/-- **Between corners everything is affine.** -/
theorem interpolate_affine {a b c : K × K} (h : cross a b c ≠ 0) (k m n : K) (p : K × K) :
    interpolate a b c (k + m * a.1 + n * a.2) (k + m * b.1 + n * b.2) (k + m * c.1 + n * c.2) p =
      k + m * p.1 + n * p.2 := by
  rw [interpolate, div_eq_iff h]
  simp only [cross]
  ring

/-! ### Edges -/

/-- A top or left edge belongs to the triangle. -/
theorem inside_of_topLeft {a b : K × K} (h : TopLeft a b) (p : K × K) :
    Inside a b p ↔ 0 ≤ cross a b p := by
  rw [Inside, and_iff_left h, le_iff_lt_or_eq, eq_comm]

theorem inside_of_not_topLeft {a b : K × K} (h : ¬ TopLeft a b) (p : K × K) :
    Inside a b p ↔ 0 < cross a b p := by
  rw [Inside]
  constructor
  · rintro (hpos | ⟨-, hedge⟩)
    · exact hpos
    · exact absurd hedge h
  · exact .inl

theorem covers_of_pos {a b c : K × K} (h : 0 < cross a b c) (p : K × K) :
    Covers a b c p ↔ CoversClockwise a b c p := by
  constructor
  · rintro (⟨-, hcovers⟩ | ⟨hneg, -⟩)
    · exact hcovers
    · exact absurd h hneg.asymm
  · intro hcovers
    exact .inl ⟨h, hcovers⟩

/-! ### Rectangles -/

variable [IsStrictOrderedRing K] {l r t b : K}

omit [LinearOrder K] [IsStrictOrderedRing K] in
theorem cross_upper : cross (l, t) (r, t) (l, b) = (r - l) * (b - t) := by
  simp only [cross]
  ring

omit [LinearOrder K] [IsStrictOrderedRing K] in
theorem cross_lower : cross (r, t) (r, b) (l, b) = (r - l) * (b - t) := by
  simp only [cross]
  ring

theorem area_pos (hlr : l < r) (htb : t < b) : 0 < (r - l) * (b - t) :=
  mul_pos (sub_pos.2 hlr) (sub_pos.2 htb)

/-- How far down the diagonal of the rectangle `p` is: the area of the rectangle on the diagonal itself. -/
def descent (l r t b : K) (p : K × K) : K := (p.1 - l) * (b - t) + (p.2 - t) * (r - l)

/-- The upper triangle has the top and the left edge, and not the diagonal. -/
theorem covers_upper (hlr : l < r) (htb : t < b) (p : K × K) :
    Covers (l, t) (r, t) (l, b) p ↔ l ≤ p.1 ∧ t ≤ p.2 ∧ descent l r t b p < (r - l) * (b - t) := by
  have hpos : 0 < cross (l, t) (r, t) (l, b) := by
    rw [cross_upper]
    exact area_pos hlr htb
  have htop : Inside (l, t) (r, t) p ↔ t ≤ p.2 := by
    have hcross : cross (l, t) (r, t) p = (r - l) * (p.2 - t) := by
      simp only [cross]
      ring
    have hedge : TopLeft (l, t) (r, t) := .inr ⟨rfl, hlr⟩
    rw [inside_of_topLeft hedge, hcross, mul_nonneg_iff_of_pos_left (sub_pos.2 hlr), sub_nonneg]
  have hleft : Inside (l, b) (l, t) p ↔ l ≤ p.1 := by
    have hcross : cross (l, b) (l, t) p = (b - t) * (p.1 - l) := by
      simp only [cross]
      ring
    have hedge : TopLeft (l, b) (l, t) := .inl htb
    rw [inside_of_topLeft hedge, hcross, mul_nonneg_iff_of_pos_left (sub_pos.2 htb), sub_nonneg]
  have hdiagonal : Inside (r, t) (l, b) p ↔ descent l r t b p < (r - l) * (b - t) := by
    have hcross : cross (r, t) (l, b) p = (r - l) * (b - t) - descent l r t b p := by
      simp only [cross, descent]
      ring
    have hedge : ¬ TopLeft (r, t) (l, b) := by
      rintro (hlt | ⟨heq, -⟩)
      · exact absurd htb hlt.asymm
      · exact htb.ne' heq
    rw [inside_of_not_topLeft hedge, hcross, sub_pos]
  rw [covers_of_pos hpos, CoversClockwise, htop, hdiagonal, hleft]
  tauto

/-- The lower triangle has the diagonal, and not the right and the bottom edge. -/
theorem covers_lower (hlr : l < r) (htb : t < b) (p : K × K) :
    Covers (r, t) (r, b) (l, b) p ↔ p.1 < r ∧ p.2 < b ∧ (r - l) * (b - t) ≤ descent l r t b p := by
  have hpos : 0 < cross (r, t) (r, b) (l, b) := by
    rw [cross_lower]
    exact area_pos hlr htb
  have hright : Inside (r, t) (r, b) p ↔ p.1 < r := by
    have hcross : cross (r, t) (r, b) p = (b - t) * (r - p.1) := by
      simp only [cross]
      ring
    have hedge : ¬ TopLeft (r, t) (r, b) := by
      rintro (hlt | ⟨heq, -⟩)
      · exact absurd htb hlt.asymm
      · exact htb.ne' heq
    rw [inside_of_not_topLeft hedge, hcross, mul_pos_iff_of_pos_left (sub_pos.2 htb), sub_pos]
  have hbottom : Inside (r, b) (l, b) p ↔ p.2 < b := by
    have hcross : cross (r, b) (l, b) p = (r - l) * (b - p.2) := by
      simp only [cross]
      ring
    have hedge : ¬ TopLeft (r, b) (l, b) := by
      rintro (hlt | ⟨-, hlt⟩)
      · exact lt_irrefl _ hlt
      · exact absurd hlr hlt.asymm
    rw [inside_of_not_topLeft hedge, hcross, mul_pos_iff_of_pos_left (sub_pos.2 hlr), sub_pos]
  have hdiagonal : Inside (l, b) (r, t) p ↔ (r - l) * (b - t) ≤ descent l r t b p := by
    have hcross : cross (l, b) (r, t) p = descent l r t b p - (r - l) * (b - t) := by
      simp only [cross, descent]
      ring
    have hedge : TopLeft (l, b) (r, t) := .inl htb
    rw [inside_of_topLeft hedge, hcross, sub_nonneg]
  rw [covers_of_pos hpos, CoversClockwise, hright, hbottom, hdiagonal]

/-- The rectangle with its top and its left edge. -/
def InRect (l r t b : K) (p : K × K) : Prop := l ≤ p.1 ∧ p.1 < r ∧ t ≤ p.2 ∧ p.2 < b

/-- **A strip of two triangles covers the rectangle.** -/
theorem strip_covers (hlr : l < r) (htb : t < b) (p : K × K) :
    Covers (l, t) (r, t) (l, b) p ∨ Covers (r, t) (r, b) (l, b) p ↔ InRect l r t b p := by
  have hw : 0 < r - l := sub_pos.2 hlr
  have hh : 0 < b - t := sub_pos.2 htb
  rw [covers_upper hlr htb, covers_lower hlr htb, InRect]
  constructor
  · rintro (⟨hl, ht, habove⟩ | ⟨hr, hb, hbelow⟩)
    · rw [descent] at habove
      have hx := mul_nonneg (sub_nonneg.2 hl) hh.le
      have hy := mul_nonneg (sub_nonneg.2 ht) hw.le
      refine ⟨hl, ?_, ht, ?_⟩
      · have hlt : (p.1 - l) * (b - t) < (r - l) * (b - t) := by linarith
        linarith [lt_of_mul_lt_mul_right hlt hh.le]
      · have hlt : (p.2 - t) * (r - l) < (b - t) * (r - l) := by linarith
        linarith [lt_of_mul_lt_mul_right hlt hw.le]
    · rw [descent] at hbelow
      have hx := mul_pos (sub_pos.2 hr) hh
      have hy := mul_pos (sub_pos.2 hb) hw
      refine ⟨?_, hr, ?_, hb⟩
      · have hlt : 0 * (b - t) < (p.1 - l) * (b - t) := by linarith
        linarith [lt_of_mul_lt_mul_right hlt hh.le]
      · have hlt : 0 * (r - l) < (p.2 - t) * (r - l) := by linarith
        linarith [lt_of_mul_lt_mul_right hlt hw.le]
  · rintro ⟨hl, hr, ht, hb⟩
    rcases lt_or_ge (descent l r t b p) ((r - l) * (b - t)) with habove | hbelow
    · exact .inl ⟨hl, ht, habove⟩
    · exact .inr ⟨hr, hb, hbelow⟩

/-- It covers no point twice. -/
theorem strip_once (hlr : l < r) (htb : t < b) (p : K × K) :
    ¬ (Covers (l, t) (r, t) (l, b) p ∧ Covers (r, t) (r, b) (l, b) p) := by
  rw [covers_upper hlr htb, covers_lower hlr htb]
  rintro ⟨⟨-, -, habove⟩, -, -, hbelow⟩
  exact absurd habove hbelow.not_gt

/-! ### Pixels -/

/-- The centre of the pixel in column `i` of row `j`. -/
def centre (K : Type*) [Field K] (i j : ℕ) : K × K := (i + (1 + 1)⁻¹, j + (1 + 1)⁻¹)

theorem centre_eq (K : Type*) [Field K] (i j : ℕ) : centre K i j = ((i : K) + 1 / 2, (j : K) + 1 / 2) := by
  rw [centre, one_add_one_eq_two, one_div]

/-- Where the edge is between two columns, the centres behind it are those of the columns behind it. -/
theorem le_centre_iff (m : ℤ) (i : ℕ) : (m : K) ≤ i + 1 / 2 ↔ m ≤ i := by
  constructor
  · intro h
    have hlt : (m : K) < ((i + 1 : ℤ) : K) := by
      push_cast
      linarith
    have := Int.cast_lt.1 hlt
    omega
  · intro h
    have hle : (m : K) ≤ ((i : ℤ) : K) := Int.cast_le.2 h
    push_cast at hle
    linarith

theorem centre_lt_iff (m : ℤ) (i : ℕ) : (i : K) + 1 / 2 < m ↔ (i : ℤ) < m := by
  rw [← not_le, le_centre_iff, not_le]

/-- **The pixels of a rectangle between pixels.** -/
theorem inRect_centre (l r t b : ℤ) (i j : ℕ) :
    InRect (l : K) r t b (centre K i j) ↔ (l ≤ i ∧ (i : ℤ) < r) ∧ t ≤ j ∧ (j : ℤ) < b := by
  rw [InRect, centre_eq, le_centre_iff, centre_lt_iff, le_centre_iff, centre_lt_iff, and_assoc]

/-- The texel under a centre, where texels are as large as pixels. -/
theorem floor_centre [FloorRing K] (i : ℕ) (x : ℤ) : ⌊(i : K) + 1 / 2 - x⌋ = i - x := by
  rw [Int.floor_eq_iff]
  push_cast
  constructor <;> linarith

end Triangles
