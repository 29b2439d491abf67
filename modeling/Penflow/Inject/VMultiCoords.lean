import Penflow.Inject.Coords
import Penflow.Lib.Quantize
import Mathlib.Data.Rat.Floor
import Mathlib.Tactic.FieldSimp
import Mathlib.Tactic.Ring

/-!
# Where VMulti puts the pen

The coordinate transform over the rationals, so that nothing is lost to `f32`.  The synthetic pointer
subtracts the origin of the virtual screen from the pixel; VMulti spans the virtual screen with its logical
units, and `map_to_vmulti` scales the pixel as it is.  The two put the pen at one spot, up to half a logical
unit, exactly on the layouts of `Aligned`.
-/

namespace Penflow

namespace AffineTransform

/-- `from_normalized_to_rect` -/
def fromNormalizedToRect {K : Type} [Zero K] [Neg K] [Add K] [IntCast K] [NatCast K]
    (output_left output_top : ℤ) (output_w output_h rotation_deg : ℕ) : AffineTransform K :=
  let ow : K := output_w
  let oh : K := output_h
  let ol : K := output_left
  let ot : K := output_top
  match rotation_deg % 360 with
  | 90 => { a := 0, b := ow, c := -ow, d := 0, e := ol + ow, f := ot }
  | 180 => { a := -ow, b := 0, c := 0, d := -oh, e := ol + ow, f := ot + oh }
  | 270 => { a := 0, b := -oh, c := ow, d := 0, e := ol, f := ot + oh }
  -- any other angle is as good as 0
  | _ => { a := ow, b := 0, c := 0, d := oh, e := ol, f := ot }

/-- `round`, half away from zero. -/
def roundRat (x : ℚ) : ℤ := if 0 ≤ x then round x else -round (-x)

/-- `x.clamp(lo, hi)` -/
def clampRat (x lo hi : ℚ) : ℚ := min (max x lo) hi

/-- `map_to_vmulti`, with rationals for `f32`. -/
def mapToVMultiRat (t : AffineTransform ℚ) (x y : ℚ) (target_w_px target_h_px : ℕ) : UInt16 × UInt16 :=
  let (fx, fy) := t.map x y
  let tw : ℚ := (max target_w_px 1 : ℕ)
  let th : ℚ := (max target_h_px 1 : ℕ)
  ((roundRat (clampRat (fx / tw * 32767) 0 32767)).toNat.toUInt16,
    (roundRat (clampRat (fy / th * 32767) 0 32767)).toNat.toUInt16)

end AffineTransform

open AffineTransform Quantize

/-- The virtual screen, and the monitor that the tablet stands for. -/
structure Layout where
  screen : VirtualScreen
  left : ℤ
  top : ℤ
  width : ℕ
  height : ℕ
  rotation_deg : ℕ
  deriving DecidableEq, Repr

namespace Layout

/-- The monitor lies on a virtual screen of positive size. -/
structure Valid (l : Layout) : Prop where
  cx : 0 < l.screen.cx
  cy : 0 < l.screen.cy
  left : l.screen.x ≤ l.left
  right : l.left + l.width ≤ l.screen.x + l.screen.cx
  top : l.screen.y ≤ l.top
  bottom : l.top + l.height ≤ l.screen.y + l.screen.cy

/-- The transform of a session. -/
def coords (l : Layout) : AffineTransform ℚ :=
  fromNormalizedToRect l.left l.top l.width l.height l.rotation_deg

/-- `x_logical` and `y_logical` of the sample that `read_loop` makes for a pen event. -/
def logical (l : Layout) (x y : ℚ) : UInt16 × UInt16 :=
  l.coords.mapToVMultiRat x y (max l.screen.cx 1).toNat (max l.screen.cy 1).toNat

/-- The point of the unit square lands, in logical units, where it lands in pixels. -/
def LandsAt (l : Layout) (x y : ℚ) : Prop :=
  |((l.logical x y).1.toNat : ℚ) / 32767 - ((l.coords.map x y).1 - l.screen.x) / l.screen.cx| ≤
      1 / 2 / 32767 ∧
    |((l.logical x y).2.toNat : ℚ) / 32767 - ((l.coords.map x y).2 - l.screen.y) / l.screen.cy| ≤
      1 / 2 / 32767

/-- Every point of the tablet does. -/
def SamePlace (l : Layout) : Prop :=
  ∀ x y : ℚ, 0 ≤ x → x ≤ 1 → 0 ≤ y → y ≤ 1 → l.LandsAt x y

/-- A pixel position in logical units of a virtual screen of this size. -/
def units (size : ℤ) (p : ℚ) : ℚ := p / size * 32767

/-- On one axis: the virtual screen begins at pixel 0 and the image of the tablet ends on it; or the image
is so small that all of it is nearest to one logical unit, counted from pixel 0 and counted from where the
virtual screen begins. -/
def AxisAligned (origin size lo : ℤ) (len : ℕ) : Prop :=
  (origin = 0 ∧ units size (lo + len) ≤ 32767 + 1 / 2) ∨
    ∃ n : ℤ, (0 ≤ n ∧ n ≤ 32767) ∧
      (InCell 32767 n (units size lo) ∧ InCell 32767 n (units size (lo + len))) ∧
        |(n : ℚ) - (units size lo - units size origin)| ≤ 1 / 2 ∧
          |(n : ℚ) - (units size (lo + len) - units size origin)| ≤ 1 / 2

/-- The height of the image of the tablet: a quarter turn takes the monitor's width for it. -/
def imageHeight (l : Layout) : ℕ := if l.rotation_deg % 360 = 90 then l.width else l.height

def Aligned (l : Layout) : Prop :=
  AxisAligned l.screen.x l.screen.cx l.left l.width ∧
    AxisAligned l.screen.y l.screen.cy l.top l.imageHeight

/-! ### The logical position -/

theorem roundRat_clampRat (u : ℚ) :
    ((roundRat (clampRat u 0 32767)).toNat.toUInt16.toNat : ℤ) = quantize 32767 u := by
  have hnonneg : 0 ≤ clampRat u 0 32767 := by
    rw [clampRat, le_min_iff]
    exact ⟨le_max_right u 0, by norm_num⟩
  have hround : roundRat (clampRat u 0 32767) = quantize 32767 u := by
    rw [roundRat, if_pos hnonneg, clampRat, quantize]
    norm_num
  obtain ⟨⟨hlow, hhigh⟩, -⟩ := quantize_eq_iff.1 (rfl : quantize 32767 u = _)
  rw [hround]
  generalize quantize 32767 u = n at hlow hhigh
  show ((n.toNat % 2 ^ 16 : ℕ) : ℤ) = n
  push_cast at hhigh
  omega

theorem logical_fst {l : Layout} (hl : l.Valid) (x y : ℚ) :
    ((l.logical x y).1.toNat : ℤ) = quantize 32767 (units l.screen.cx (l.coords.map x y).1) := by
  have hsize : ((max (max l.screen.cx 1).toNat 1 : ℕ) : ℚ) = l.screen.cx := by
    have hcx := hl.cx
    have hint : ((max (max l.screen.cx 1).toNat 1 : ℕ) : ℤ) = l.screen.cx := by omega
    exact_mod_cast congrArg (Int.cast : ℤ → ℚ) hint
  rw [logical, mapToVMultiRat]
  dsimp only
  rw [hsize]
  exact roundRat_clampRat _

theorem logical_snd {l : Layout} (hl : l.Valid) (x y : ℚ) :
    ((l.logical x y).2.toNat : ℤ) = quantize 32767 (units l.screen.cy (l.coords.map x y).2) := by
  have hsize : ((max (max l.screen.cy 1).toNat 1 : ℕ) : ℚ) = l.screen.cy := by
    have hcy := hl.cy
    have hint : ((max (max l.screen.cy 1).toNat 1 : ℕ) : ℤ) = l.screen.cy := by omega
    exact_mod_cast congrArg (Int.cast : ℤ → ℚ) hint
  rw [logical, mapToVMultiRat]
  dsimp only
  rw [hsize]
  exact roundRat_clampRat _

/-! ### One axis -/

theorem units_sub {size : ℤ} (p q : ℚ) : units size p - units size q = (p - q) / size * 32767 := by
  rw [units, units]
  ring

theorem units_le {size : ℤ} (hsize : 0 < size) {p q : ℚ} : units size p ≤ units size q ↔ p ≤ q := by
  have hpos : (0 : ℚ) < size := Int.cast_pos.2 hsize
  rw [units, units, mul_le_mul_iff_of_pos_right (by norm_num), div_le_div_iff_of_pos_right hpos]

theorem units_surjective {size : ℤ} (hsize : 0 < size) (u : ℚ) : ∃ p, units size p = u := by
  have hne : (size : ℚ) ≠ 0 := Int.cast_ne_zero.2 hsize.ne'
  refine ⟨u / 32767 * size, ?_⟩
  rw [units]
  field_simp

theorem units_eq_zero {size : ℤ} (hsize : 0 < size) {p : ℚ} : units size p = 0 ↔ p = 0 := by
  have hne : (size : ℚ) ≠ 0 := Int.cast_ne_zero.2 hsize.ne'
  rw [units]
  constructor
  · intro h
    field_simp at h
    simpa using h
  · rintro rfl
    ring

/-- A pixel position of one axis is where its logical one is. -/
def AxisAt (origin size : ℤ) (p : ℚ) : Prop :=
  |(quantize 32767 (units size p) : ℚ) / 32767 - (p - origin) / size| ≤ 1 / 2 / 32767

theorem axisAt_iff {origin size : ℤ} (p : ℚ) : AxisAt origin size p ↔
    |(quantize 32767 (units size p) : ℚ) - (units size p - units size origin)| ≤ 1 / 2 := by
  have hscale : (quantize 32767 (units size p) : ℚ) / 32767 - (p - origin) / size =
      ((quantize 32767 (units size p) : ℚ) - (units size p - units size origin)) / 32767 := by
    rw [units_sub]
    ring
  have habs : |(32767 : ℚ)| = 32767 := by norm_num
  rw [AxisAt, hscale, abs_div, habs, div_le_div_iff_of_pos_right (by norm_num)]

/-- **One axis.** -/
theorem axisAt_all_iff {origin size lo : ℤ} {len : ℕ} (hsize : 0 < size) (hlo : origin ≤ lo) :
    (∀ p : ℚ, lo ≤ p → p ≤ lo + len → AxisAt origin size p) ↔ AxisAligned origin size lo len := by
  have hlen : (lo : ℚ) ≤ lo + len := by
    have : (0 : ℚ) ≤ len := Nat.cast_nonneg len
    linarith
  have hshifts : (∀ p : ℚ, lo ≤ p → p ≤ lo + len → AxisAt origin size p) ↔
      Shifts 32767 (units size origin) (units size lo) (units size (lo + len)) := by
    constructor
    · intro h u hau hub
      obtain ⟨p, rfl⟩ := units_surjective hsize u
      exact (axisAt_iff p).1 (h p ((units_le hsize).1 hau) ((units_le hsize).1 hub))
    · intro h p hlow hhigh
      exact (axisAt_iff p).2 (h _ ((units_le hsize).2 hlow) ((units_le hsize).2 hhigh))
  rw [hshifts, shifts_iff ((units_le hsize).2 hlen), units_eq_zero hsize, AxisAligned, Int.cast_eq_zero]
  constructor
  · rintro (⟨horigin, -, hhigh⟩ | hcell)
    · exact .inl ⟨horigin, by exact_mod_cast hhigh⟩
    · exact .inr (by exact_mod_cast hcell)
  · rintro (⟨horigin, hhigh⟩ | hcell)
    · refine .inl ⟨horigin, ?_, by exact_mod_cast hhigh⟩
      have hnonneg : units size 0 ≤ units size lo :=
        (units_le hsize).2 (Int.cast_nonneg (horigin ▸ hlo))
      rw [(units_eq_zero hsize).2 rfl] at hnonneg
      linarith
    · exact .inr (by exact_mod_cast hcell)

/-! ### The rotation -/

/-- Where a point of the tablet is on the monitor, from its left and top edges. -/
def turn (rotation_deg : ℕ) (x y : ℚ) : ℚ × ℚ :=
  match rotation_deg % 360 with
  | 90 => (1 - y, x)
  | 180 => (1 - x, 1 - y)
  | 270 => (y, 1 - x)
  | _ => (x, y)

theorem coords_map (l : Layout) (x y : ℚ) : l.coords.map x y =
    (l.left + l.width * (turn l.rotation_deg x y).1, l.top + l.imageHeight * (turn l.rotation_deg x y).2) := by
  rw [coords, fromNormalizedToRect, turn, imageHeight]
  split
  case h_1 hrot =>
    rw [if_pos hrot, map]
    refine Prod.ext ?_ ?_
    · ring
    · ring
  case h_2 hrot =>
    rw [if_neg (by omega), map]
    refine Prod.ext ?_ ?_
    · ring
    · ring
  case h_3 hrot =>
    rw [if_neg (by omega), map]
    refine Prod.ext ?_ ?_
    · ring
    · ring
  case h_4 hrot _ _ =>
    rw [if_neg hrot, map]
    refine Prod.ext ?_ ?_
    · ring
    · ring

/-- The turned square is the unit square. -/
theorem forall_turn_iff (rotation_deg : ℕ) {P : ℚ × ℚ → Prop} :
    (∀ x y : ℚ, 0 ≤ x → x ≤ 1 → 0 ≤ y → y ≤ 1 → P (turn rotation_deg x y)) ↔
      ∀ s t : ℚ, 0 ≤ s → s ≤ 1 → 0 ≤ t → t ≤ 1 → P (s, t) := by
  unfold turn
  split
  case h_1 =>
    constructor
    · intro h s t hs hs' ht ht'
      have hst := h t (1 - s) ht ht' (by linarith) (by linarith)
      rwa [sub_sub_cancel] at hst
    · intro h x y hx hx' hy hy'
      exact h _ _ (by linarith) (by linarith) hx hx'
  case h_2 =>
    constructor
    · intro h s t hs hs' ht ht'
      have hst := h (1 - s) (1 - t) (by linarith) (by linarith) (by linarith) (by linarith)
      rwa [sub_sub_cancel, sub_sub_cancel] at hst
    · intro h x y hx hx' hy hy'
      exact h _ _ (by linarith) (by linarith) (by linarith) (by linarith)
  case h_3 =>
    constructor
    · intro h s t hs hs' ht ht'
      have hst := h (1 - t) s (by linarith) (by linarith) hs hs'
      rwa [sub_sub_cancel] at hst
    · intro h x y hx hx' hy hy'
      exact h _ _ hy hy' (by linarith) (by linarith)
  case h_4 => exact Iff.rfl

/-- A segment, walked through in the unit interval. -/
theorem forall_segment_iff {lo : ℤ} {len : ℕ} {P : ℚ → Prop} :
    (∀ t : ℚ, 0 ≤ t → t ≤ 1 → P (lo + len * t)) ↔ ∀ p : ℚ, lo ≤ p → p ≤ lo + len → P p := by
  have hlen : (0 : ℚ) ≤ len := Nat.cast_nonneg len
  constructor
  · intro h p hlow hhigh
    rcases hlen.eq_or_lt with hzero | hpos
    · have hp : p = lo + len * 0 := by linarith
      rw [hp]
      exact h 0 le_rfl zero_le_one
    · have hp : p = lo + len * ((p - lo) / len) := by
        field_simp
        ring
      rw [hp]
      refine h _ (div_nonneg (by linarith) hlen) ?_
      rw [div_le_one hpos]
      linarith
  · intro h t ht ht'
    have := mul_nonneg hlen ht
    have := mul_le_of_le_one_right hlen ht'
    exact h _ (by linarith) (by linarith)

/-! ### The layout -/

theorem landsAt_iff {l : Layout} (hl : l.Valid) (x y : ℚ) : l.LandsAt x y ↔
    AxisAt l.screen.x l.screen.cx (l.coords.map x y).1 ∧
      AxisAt l.screen.y l.screen.cy (l.coords.map x y).2 := by
  have hfst : ((l.logical x y).1.toNat : ℚ) = quantize 32767 (units l.screen.cx (l.coords.map x y).1) := by
    exact_mod_cast congrArg (Int.cast : ℤ → ℚ) (logical_fst hl x y)
  have hsnd : ((l.logical x y).2.toNat : ℚ) = quantize 32767 (units l.screen.cy (l.coords.map x y).2) := by
    exact_mod_cast congrArg (Int.cast : ℤ → ℚ) (logical_snd hl x y)
  rw [LandsAt, hfst, hsnd, AxisAt, AxisAt]

/-- **The layouts on which VMulti and the pixels agree.** -/
theorem samePlace_iff {l : Layout} (hl : l.Valid) : l.SamePlace ↔ l.Aligned := by
  have hturn := forall_turn_iff l.rotation_deg (P := fun st : ℚ × ℚ =>
    AxisAt l.screen.x l.screen.cx (l.left + l.width * st.1) ∧
      AxisAt l.screen.y l.screen.cy (l.top + l.imageHeight * st.2))
  have hprod : (∀ s t : ℚ, 0 ≤ s → s ≤ 1 → 0 ≤ t → t ≤ 1 →
      AxisAt l.screen.x l.screen.cx (l.left + l.width * s) ∧
        AxisAt l.screen.y l.screen.cy (l.top + l.imageHeight * t)) ↔
      (∀ s : ℚ, 0 ≤ s → s ≤ 1 → AxisAt l.screen.x l.screen.cx (l.left + l.width * s)) ∧
        ∀ t : ℚ, 0 ≤ t → t ≤ 1 → AxisAt l.screen.y l.screen.cy (l.top + l.imageHeight * t) := by
    constructor
    · intro h
      exact ⟨fun s hs hs' => (h s 0 hs hs' le_rfl zero_le_one).1,
        fun t ht ht' => (h 0 t le_rfl zero_le_one ht ht').2⟩
    · rintro ⟨hx, hy⟩ s t hs hs' ht ht'
      exact ⟨hx s hs hs', hy t ht ht'⟩
  simp only [SamePlace, landsAt_iff hl, coords_map]
  refine hturn.trans ?_
  rw [hprod, forall_segment_iff, forall_segment_iff,
    axisAt_all_iff hl.cx hl.left, axisAt_all_iff hl.cy hl.top, Aligned]

/-- Where the virtual screen begins at pixel 0 and the monitor is not turned by 90 degrees, they agree. -/
theorem samePlace_of_origin {l : Layout} (hl : l.Valid) (hx : l.screen.x = 0) (hy : l.screen.y = 0)
    (hrot : l.rotation_deg % 360 ≠ 90) : l.SamePlace := by
  have hinside : ∀ {size lo : ℤ} {len : ℕ}, 0 < size → lo + len ≤ size →
      units size (lo + len) ≤ 32767 + 1 / 2 := by
    intro size lo len hsize hle
    have hpos : (0 : ℚ) < size := Int.cast_pos.2 hsize
    have hle' : ((lo : ℚ) + len) ≤ size := by exact_mod_cast hle
    have hone : ((lo : ℚ) + len) / size ≤ 1 := by rwa [div_le_one hpos]
    rw [units]
    linarith
  have hright := hl.right
  have hbottom := hl.bottom
  rw [hx, zero_add] at hright
  rw [hy, zero_add] at hbottom
  refine (samePlace_iff hl).2 ⟨.inl ⟨hx, hinside hl.cx hright⟩, .inl ⟨hy, ?_⟩⟩
  rw [imageHeight, if_neg hrot]
  exact hinside hl.cy hbottom

/-- The right one of two monitors, the left one being the primary. -/
theorem samePlace_iff_rightHalf :
    (Layout.mk ⟨0, 0, 3840, 1080⟩ 1920 0 1920 1080 0).SamePlace := by
  refine (samePlace_iff ⟨by decide, by decide, by decide, by decide, by decide, by decide⟩).2 ?_
  refine ⟨.inl ⟨rfl, ?_⟩, .inl ⟨rfl, ?_⟩⟩
  · rw [units]
    norm_num
  · rw [units, imageHeight, if_neg (by decide)]
    norm_num

/-- **A monitor to the left of the primary one.**  The pen at the left edge of the primary monitor is at the
middle of the virtual screen, and VMulti puts it at the left edge of that. -/
theorem leftMonitor_not_samePlace : ¬ ∀ l : Layout, l.Valid → l.SamePlace := by
  intro h
  have hlands := (h ⟨⟨-1920, 0, 3840, 1080⟩, 0, 0, 1920, 1080, 0⟩
    ⟨by decide, by decide, by decide, by decide, by decide, by decide⟩ 0 0 le_rfl zero_le_one le_rfl
    zero_le_one).1
  revert hlands
  decide +kernel

end Layout

end Penflow
