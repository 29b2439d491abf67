import Penflow.Inject.VMultiCoords
import Penflow.Lib.QuarterTurn

/-!
# What a rotated monitor's transform covers

Over the rationals `from_normalized_to_rect` should stretch the unit square, turned by the rotation, over the
output rectangle.  For 0, 180 and 270 degrees it does.  For 90 degrees the `y` axis is scaled by the width of
the rectangle where its height belongs, which shows on every rectangle that is not a square.
-/

namespace Penflow

open AffineTransform QuarterTurn

namespace AffineTransform

/-- `map` on points. -/
def mapPoint (t : AffineTransform ℚ) (p : ℚ × ℚ) : ℚ × ℚ := t.map p.1 p.2

end AffineTransform

/-- The output of a session: where it lies and how large it is. -/
structure OutputRect where
  left : ℤ
  top : ℤ
  w : ℕ
  h : ℕ
  w_pos : 0 < w
  h_pos : 0 < h

namespace OutputRect

/-- The transform onto the output. -/
def transform (o : OutputRect) (rotation_deg : ℕ) : AffineTransform ℚ :=
  fromNormalizedToRect o.left o.top o.w o.h rotation_deg

/-- The pixels of the output. -/
def area (o : OutputRect) : Set (ℚ × ℚ) := rect (o.left : ℚ) o.top o.w o.h

def corners (o : OutputRect) : Set (ℚ × ℚ) := rectCorners (o.left : ℚ) o.top o.w o.h

/-- The transform maps the unit square bijectively onto the output, corners to corners. -/
structure Covered (o : OutputRect) (rotation_deg : ℕ) : Prop where
  bijOn : Set.BijOn (o.transform rotation_deg).mapPoint (square ℚ) o.area
  corners : Set.BijOn (o.transform rotation_deg).mapPoint (squareCorners ℚ) o.corners

/-- The transform, its output normalised again to the unit square. -/
def normalised (o : OutputRect) (rotation_deg : ℕ) (p : ℚ × ℚ) : ℚ × ℚ :=
  unplace (o.left : ℚ) o.top o.w o.h ((o.transform rotation_deg).mapPoint p)

variable (o : OutputRect)

theorem w_cast_pos : (0 : ℚ) < o.w := Nat.cast_pos.2 o.w_pos

theorem h_cast_pos : (0 : ℚ) < o.h := Nat.cast_pos.2 o.h_pos

/-! ### The four transforms -/

theorem mapPoint_zero (p : ℚ × ℚ) :
    (o.transform 0).mapPoint p = place (o.left : ℚ) o.top o.w o.h p := by
  show ((o.w : ℚ) * p.1 + 0 * p.2 + o.left, 0 * p.1 + (o.h : ℚ) * p.2 + o.top) = _
  rw [place]
  congr 1 <;> ring

theorem mapPoint_half (p : ℚ × ℚ) :
    (o.transform 180).mapPoint p = place (o.left : ℚ) o.top o.w o.h (turn (turn p)) := by
  show (-(o.w : ℚ) * p.1 + 0 * p.2 + (o.left + o.w), 0 * p.1 + -(o.h : ℚ) * p.2 + (o.top + o.h)) = _
  rw [place, turn, turn]
  congr 1 <;> ring

theorem mapPoint_threeQuarters (p : ℚ × ℚ) :
    (o.transform 270).mapPoint p = place (o.left : ℚ) o.top o.w o.h (turn (turn (turn p))) := by
  show (0 * p.1 + (o.w : ℚ) * p.2 + o.left, -(o.h : ℚ) * p.1 + 0 * p.2 + (o.top + o.h)) = _
  rw [place, turn, turn, turn]
  congr 1 <;> ring

/-- The 90 degrees of the source: the square is stretched by the width on both axes. -/
theorem mapPoint_quarter (p : ℚ × ℚ) :
    (o.transform 90).mapPoint p = place (o.left : ℚ) o.top o.w o.w (turn p) := by
  show (0 * p.1 + -(o.w : ℚ) * p.2 + (o.left + o.w), (o.w : ℚ) * p.1 + 0 * p.2 + o.top) = _
  rw [place, turn]
  congr 1 <;> ring

/-! ### Coverage -/

/-- A transform that turns the square and stretches it over the output covers the output. -/
theorem covered_of_place {rotation_deg : ℕ} {f : ℚ × ℚ → ℚ × ℚ}
    (hmap : ∀ p, (o.transform rotation_deg).mapPoint p = place (o.left : ℚ) o.top o.w o.h (f p))
    (hsquare : Set.BijOn f (square ℚ) (square ℚ))
    (hcorners : Set.BijOn f (squareCorners ℚ) (squareCorners ℚ)) : o.Covered rotation_deg := by
  have heq : (o.transform rotation_deg).mapPoint = place (o.left : ℚ) o.top o.w o.h ∘ f := funext hmap
  constructor
  · rw [heq]
    exact (place_bijOn o.w_cast_pos o.h_cast_pos).comp hsquare
  · rw [heq]
    exact (place_bijOn_corners o.w_cast_pos.ne' o.h_cast_pos.ne').comp hcorners

theorem covered_zero : o.Covered 0 :=
  o.covered_of_place o.mapPoint_zero (Set.bijOn_id _) (Set.bijOn_id _)

theorem covered_half : o.Covered 180 :=
  o.covered_of_place o.mapPoint_half (turn_bijOn.comp turn_bijOn)
    (turn_bijOn_corners.comp turn_bijOn_corners)

theorem covered_threeQuarters : o.Covered 270 :=
  o.covered_of_place o.mapPoint_threeQuarters (turn_bijOn.comp (turn_bijOn.comp turn_bijOn))
    (turn_bijOn_corners.comp (turn_bijOn_corners.comp turn_bijOn_corners))

/-- Where the lower right corner of the tablet goes. -/
theorem mapPoint_quarter_one_zero :
    (o.transform 90).mapPoint (1, 0) = ((o.left : ℚ) + o.w, (o.top : ℚ) + o.w) := by
  rw [mapPoint_quarter]
  simp [place, turn]

theorem one_zero_mem_square : ((1, 0) : ℚ × ℚ) ∈ square ℚ :=
  ⟨⟨zero_le_one, le_refl 1⟩, le_refl 0, zero_le_one⟩

theorem one_zero_mem_corners : ((1, 0) : ℚ × ℚ) ∈ squareCorners ℚ := ⟨.inr rfl, .inl rfl⟩

/-- On a square output the quarter turn is a turn like the others. -/
theorem covered_quarter_of_eq (hwh : o.w = o.h) : o.Covered 90 := by
  refine o.covered_of_place ?_ turn_bijOn turn_bijOn_corners
  intro p
  rw [mapPoint_quarter, ← hwh]

/-- Where width and height differ, the picture is too tall for the output or too short. -/
theorem bijOn_quarter_iff :
    Set.BijOn (o.transform 90).mapPoint (square ℚ) o.area ↔ o.w = o.h := by
  refine ⟨fun hbij => ?_, fun hwh => (o.covered_quarter_of_eq hwh).bijOn⟩
  apply le_antisymm
  · -- the image of (1, 0) lies in the output
    obtain ⟨-, -, hbottom⟩ := hbij.mapsTo one_zero_mem_square
    rw [mapPoint_quarter_one_zero] at hbottom
    have hle : (o.w : ℚ) ≤ o.h := by linarith
    exact_mod_cast hle
  · -- the lower edge of the output is reached
    have hedge : (((o.left : ℚ), (o.top : ℚ) + o.h) : ℚ × ℚ) ∈ o.area := by
      have hw := o.w_cast_pos
      have hh := o.h_cast_pos
      refine ⟨⟨le_refl _, ?_⟩, ?_, le_refl _⟩
      · show (o.left : ℚ) ≤ o.left + o.w
        linarith
      · show (o.top : ℚ) ≤ o.top + o.h
        linarith
    obtain ⟨p, ⟨⟨-, hp⟩, -⟩, hmap⟩ := hbij.surjOn hedge
    rw [mapPoint_quarter] at hmap
    have hy : (o.top : ℚ) + o.w * p.1 = o.top + o.h := congrArg Prod.snd hmap
    have hle : (o.w : ℚ) * p.1 ≤ o.w * 1 := mul_le_mul_of_nonneg_left hp o.w_cast_pos.le
    have hle' : (o.h : ℚ) ≤ o.w := by linarith
    exact_mod_cast hle'

theorem bijOn_corners_quarter_iff :
    Set.BijOn (o.transform 90).mapPoint (squareCorners ℚ) o.corners ↔ o.w = o.h := by
  refine ⟨fun hbij => ?_, fun hwh => (o.covered_quarter_of_eq hwh).corners⟩
  obtain ⟨-, hcorner⟩ := hbij.mapsTo one_zero_mem_corners
  rw [mapPoint_quarter_one_zero] at hcorner
  rcases hcorner with htop | hbottom
  · have hzero : (o.w : ℚ) = 0 := by linarith
    exact absurd hzero o.w_cast_pos.ne'
  · have heq : (o.w : ℚ) = o.h := by linarith
    exact_mod_cast heq

/-- Every angle but 90 degrees, read modulo a full turn, is one of the other three. -/
theorem covered_of_ne_quarter {rotation_deg : ℕ} (hdeg : rotation_deg % 360 ≠ 90) :
    o.Covered rotation_deg := by
  have hcongr : ∀ {d : ℕ}, o.transform rotation_deg = o.transform d → o.Covered d →
      o.Covered rotation_deg := by
    intro d heq hd
    exact ⟨by rw [heq]; exact hd.bijOn, by rw [heq]; exact hd.corners⟩
  by_cases hhalf : rotation_deg % 360 = 180
  · exact hcongr (by unfold transform fromNormalizedToRect; rw [hhalf]) o.covered_half
  · by_cases hthree : rotation_deg % 360 = 270
    · exact hcongr (by unfold transform fromNormalizedToRect; rw [hthree]) o.covered_threeQuarters
    · refine hcongr ?_ o.covered_zero
      unfold transform fromNormalizedToRect
      split
      · exact absurd ‹rotation_deg % 360 = 90› hdeg
      · exact absurd ‹rotation_deg % 360 = 180› hhalf
      · exact absurd ‹rotation_deg % 360 = 270› hthree
      · rfl

/-! ### The two quarter turns against one another -/

theorem normalised_threeQuarters (p : ℚ × ℚ) : o.normalised 270 p = turn (turn (turn p)) := by
  rw [normalised, mapPoint_threeQuarters, unplace_place o.w_cast_pos.ne' o.h_cast_pos.ne']

theorem normalised_quarter_of_eq (hwh : o.w = o.h) (p : ℚ × ℚ) : o.normalised 90 p = turn p := by
  rw [normalised, mapPoint_quarter, ← hwh, unplace_place o.w_cast_pos.ne' o.w_cast_pos.ne']

theorem invOn_quarters_iff :
    Set.InvOn (o.normalised 270) (o.normalised 90) (square ℚ) (square ℚ) ↔ o.w = o.h := by
  constructor
  · intro hinv
    have hback := hinv.1 one_zero_mem_square
    rw [normalised_threeQuarters, normalised, mapPoint_quarter_one_zero] at hback
    have hratio : (o.w : ℚ) / o.h = 1 := by simpa [turn, unplace] using congrArg Prod.fst hback
    have heq : (o.w : ℚ) = o.h := (div_eq_one_iff_eq o.h_cast_pos.ne').1 hratio
    exact_mod_cast heq
  · intro hwh
    constructor
    · intro p _
      rw [normalised_quarter_of_eq o hwh, normalised_threeQuarters, turn_four]
    · intro p _
      rw [normalised_threeQuarters, normalised_quarter_of_eq o hwh, turn_four]

theorem transform_of_mod {rotation_deg : ℕ} (hdeg : rotation_deg % 360 = 90) :
    o.transform rotation_deg = o.transform 90 := by
  unfold transform fromNormalizedToRect
  rw [hdeg]

/-- **What the rotated mapping covers.**  For every output and every angle the transform maps the unit
square bijectively onto the output, and its corners onto the corners, exactly when the angle is not 90
degrees or the output is square; and 270 degrees undo 90 degrees exactly on square outputs. -/
theorem rotation_covered_iff (o : OutputRect) :
    (∀ rotation_deg, (Set.BijOn (o.transform rotation_deg).mapPoint (square ℚ) o.area ↔
        rotation_deg % 360 ≠ 90 ∨ o.w = o.h) ∧
      (Set.BijOn (o.transform rotation_deg).mapPoint (squareCorners ℚ) o.corners ↔
        rotation_deg % 360 ≠ 90 ∨ o.w = o.h)) ∧
      (Set.InvOn (o.normalised 270) (o.normalised 90) (square ℚ) (square ℚ) ↔ o.w = o.h) := by
  refine ⟨fun rotation_deg => ?_, o.invOn_quarters_iff⟩
  by_cases hdeg : rotation_deg % 360 = 90
  · have hcond : (rotation_deg % 360 ≠ 90 ∨ o.w = o.h) ↔ o.w = o.h :=
      ⟨fun h => h.resolve_left fun hne => hne hdeg, .inr⟩
    rw [transform_of_mod o hdeg, hcond]
    exact ⟨o.bijOn_quarter_iff, o.bijOn_corners_quarter_iff⟩
  · have hcov := o.covered_of_ne_quarter hdeg
    exact ⟨iff_of_true hcov.bijOn (.inl hdeg), iff_of_true hcov.corners (.inl hdeg)⟩

/-- A portrait output of 100 by 200 pixels is covered only in its upper half. -/
theorem not_covered_portrait :
    ¬ OutputRect.Covered ⟨0, 0, 100, 200, by decide, by decide⟩ 90 := by
  intro hcov
  have heq := (bijOn_quarter_iff _).1 hcov.bijOn
  exact absurd heq (by decide)

end OutputRect

end Penflow
