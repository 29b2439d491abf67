import Mathlib.Algebra.Order.Field.Basic
import Mathlib.Data.Set.Function
import Mathlib.Tactic.Linarith

/-!
# Quarter turns of the unit square

A picture fills a rectangle by way of the unit square: it is turned there by some number of quarter turns,
and the square is then stretched over the rectangle.  Turning maps the square and its four corners onto
themselves, stretching maps them onto the rectangle and its corners, so any number of turns fills the
rectangle; `unplace` takes the rectangle back to the square.
-/

namespace QuarterTurn

variable {K : Type*} [Field K] {l t w h : K}

/-- One quarter turn. -/
def turn (p : K × K) : K × K := (1 - p.2, p.1)

/-- The square stretched over the rectangle of size `w` by `h` at `(l, t)`. -/
def place (l t w h : K) (p : K × K) : K × K := (l + w * p.1, t + h * p.2)

/-- The rectangle taken back to the square. -/
def unplace (l t w h : K) (p : K × K) : K × K := ((p.1 - l) / w, (p.2 - t) / h)

/-- Four quarter turns are none. -/
theorem turn_four (p : K × K) : turn (turn (turn (turn p))) = p := by
  simp [turn]

/-- A turn keeps every set that it maps into itself: three more turns undo it. -/
theorem turn_bijOn_of_mapsTo {s : Set (K × K)} (hs : Set.MapsTo turn s s) :
    Set.BijOn turn s s := by
  have hinv : Set.InvOn (turn ∘ turn ∘ turn) turn s s :=
    ⟨fun p _ => turn_four p, fun p _ => turn_four p⟩
  exact hinv.bijOn hs (hs.comp (hs.comp hs))

theorem unplace_place (hw : w ≠ 0) (hh : h ≠ 0) (p : K × K) :
    unplace l t w h (place l t w h p) = p := by
  simp only [unplace, place, add_sub_cancel_left]
  rw [mul_div_cancel_left₀ _ hw, mul_div_cancel_left₀ _ hh]

theorem place_unplace (hw : w ≠ 0) (hh : h ≠ 0) (p : K × K) :
    place l t w h (unplace l t w h p) = p := by
  simp only [unplace, place]
  rw [mul_div_cancel₀ _ hw, mul_div_cancel₀ _ hh, add_sub_cancel, add_sub_cancel]

/-- Stretching and taking back are inverse to one another. -/
theorem place_invOn (hw : w ≠ 0) (hh : h ≠ 0) (s s' : Set (K × K)) :
    Set.InvOn (unplace l t w h) (place l t w h) s s' := by
  constructor
  · intro p _
    exact unplace_place hw hh p
  · intro p _
    exact place_unplace hw hh p

/-! ### Corners -/

/-- The corners of the unit square. -/
def squareCorners (K : Type*) [Field K] : Set (K × K) :=
  {p | (p.1 = 0 ∨ p.1 = 1) ∧ (p.2 = 0 ∨ p.2 = 1)}

/-- The corners of a rectangle. -/
def rectCorners (l t w h : K) : Set (K × K) :=
  {p | (p.1 = l ∨ p.1 = l + w) ∧ (p.2 = t ∨ p.2 = t + h)}

theorem turn_bijOn_corners : Set.BijOn turn (squareCorners K) (squareCorners K) := by
  refine turn_bijOn_of_mapsTo ?_
  rintro p ⟨h₁, h₂⟩
  refine ⟨?_, h₁⟩
  show 1 - p.2 = 0 ∨ 1 - p.2 = 1
  rcases h₂ with h₂ | h₂
  · exact .inr (by rw [h₂, sub_zero])
  · exact .inl (by rw [h₂, sub_self])

theorem place_bijOn_corners (hw : w ≠ 0) (hh : h ≠ 0) :
    Set.BijOn (place l t w h) (squareCorners K) (rectCorners l t w h) := by
  refine (place_invOn hw hh _ _).bijOn ?_ ?_
  · rintro p ⟨h₁, h₂⟩
    refine ⟨h₁.imp ?_ ?_, h₂.imp ?_ ?_⟩ <;> intro heq <;> simp [place, heq]
  · rintro p ⟨h₁, h₂⟩
    refine ⟨h₁.imp ?_ ?_, h₂.imp ?_ ?_⟩ <;> intro heq <;> simp [unplace, heq, hw, hh]

/-! ### The square and the rectangle -/

variable [LinearOrder K] [IsStrictOrderedRing K]

/-- The unit square. -/
def square (K : Type*) [Field K] [LinearOrder K] : Set (K × K) :=
  {p | (0 ≤ p.1 ∧ p.1 ≤ 1) ∧ 0 ≤ p.2 ∧ p.2 ≤ 1}

/-- A rectangle. -/
def rect (l t w h : K) : Set (K × K) := {p | (l ≤ p.1 ∧ p.1 ≤ l + w) ∧ t ≤ p.2 ∧ p.2 ≤ t + h}

theorem turn_bijOn : Set.BijOn turn (square K) (square K) := by
  refine turn_bijOn_of_mapsTo ?_
  rintro p ⟨h₁, h₂, h₃⟩
  refine ⟨⟨?_, ?_⟩, h₁⟩
  · show (0 : K) ≤ 1 - p.2
    linarith
  · show 1 - p.2 ≤ 1
    linarith

theorem place_bijOn (hw : 0 < w) (hh : 0 < h) :
    Set.BijOn (place l t w h) (square K) (rect l t w h) := by
  refine (place_invOn hw.ne' hh.ne' _ _).bijOn ?_ ?_
  · rintro p ⟨⟨h₁, h₂⟩, h₃, h₄⟩
    have hx := mul_le_mul_of_nonneg_left h₂ hw.le
    have hy := mul_le_mul_of_nonneg_left h₄ hh.le
    have hx₀ := mul_nonneg hw.le h₁
    have hy₀ := mul_nonneg hh.le h₃
    refine ⟨⟨?_, ?_⟩, ?_, ?_⟩ <;> simp only [place] <;> linarith
  · rintro p ⟨⟨h₁, h₂⟩, h₃, h₄⟩
    refine ⟨⟨?_, ?_⟩, ?_, ?_⟩
    · exact div_nonneg (by linarith) hw.le
    · exact (div_le_one hw).2 (by linarith)
    · exact div_nonneg (by linarith) hh.le
    · exact (div_le_one hh).2 (by linarith)

end QuarterTurn
