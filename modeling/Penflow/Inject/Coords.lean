import Penflow.Inject.WinInk

/-!
# Coordinate transform

Pen coordinates are normalized; an affine map takes them to the output area, in pixels for the
synthetic pointer and in logical units for VMulti.
-/

namespace Penflow

/-- A 2D affine map, row-major. -/
structure AffineTransform (K : Type) where
  a : K
  b : K
  c : K
  d : K
  e : K
  f : K

namespace AffineTransform

/-- Apply the transform to a single point. -/
def map {K : Type} [Add K] [Mul K] (t : AffineTransform K) (x y : K) : K × K :=
  (t.a * x + t.c * y + t.e, t.b * x + t.d * y + t.f)

/-- `as i32` of a rounded `f32`. -/
def toPixel (x : Float32) : ℤ := x.round.toInt32.toInt

def mapToPixel (t : AffineTransform Float32) (x y : Float32) : ℤ × ℤ :=
  let (fx, fy) := t.map x y
  (toPixel fx, toPixel fy)

def mapToVMulti (t : AffineTransform Float32) (x y : Float32) (target_w_px target_h_px : ℕ) :
    UInt16 × UInt16 :=
  let (fx, fy) := t.map x y
  let tw := Float32.ofNat (max target_w_px 1)
  let th := Float32.ofNat (max target_h_px 1)
  ((clampF32 (fx / tw * 32767.0) 0.0 32767.0).round.toUInt16,
    (clampF32 (fy / th * 32767.0) 0.0 32767.0).round.toUInt16)

end AffineTransform

end Penflow
