import Penflow.Capture.CursorBlit
import Penflow.Lib.LastSome
import Penflow.Server.Pipeline

/-!
# The picture that is encoded

Every tick hands one texture to the encoder, the keepalive.  A captured frame is moved into it, by a copy or
through the shader of the tonemapper, and the pointer is drawn on top; a tick without a frame leaves it as it
is.  The shape and the position of the pointer come with some frames only and are kept from the last one that
had them.  So what a tick submits is black until a frame comes, and then the latest frame with the pointer of
that moment on it, and nothing of what was there before (`keepalive_of_run`).

What the calls leave in the textures is up to `Direct3D`.  A texel of the desktop is of any type; what a BGRA texel
and the pixel shader make of it are parameters.
-/

namespace Penflow

open Triangles

/-! ### Frames of the desktop -/

inductive InputColorSpace where
  | sdrSrgb
  | scrgbLinear
  | hdr10Pq
  deriving DecidableEq, Repr

def inputColorSpaceFor : DxgiFormat → Option InputColorSpace
  | .b8g8r8a8Unorm => some .sdrSrgb
  | .r8g8b8a8Unorm => some .sdrSrgb
  | .r16g16b16a16Float => some .scrgbLinear
  | .r10g10b10a2Unorm => some .hdr10Pq
  | .other _ => none

def isBgra8 (format : DxgiFormat) : Bool := format == .b8g8r8a8Unorm

/-- `ps` is the pixel shader with its sampler, at a place in texture coordinates. -/
structure TonemapBlitter (τ : Type) where
  target_w : UInt32
  target_h : UInt32
  ps : InputColorSpace → DesktopTexture τ → ℚ × ℚ → Bgra
  size : TextureSize target_w target_h

namespace TonemapBlitter

variable {τ : Type} (b : TonemapBlitter τ)

/-- `vs_main` for a vertex id, of which `(vid << 1) & 2` and `vid & 2` are the two coordinates. -/
def vertex (vid : UInt32) : Vertex :=
  let ndc : ℚ × ℚ := (((vid <<< 1) &&& 2).toNat, (vid &&& 2).toNat)
  ⟨(ndc.1 * 2 + -1, ndc.2 * -2 + 1), ndc⟩

/-- `Draw(3, 0)` -/
def drawCall (cs : InputColorSpace) (frame : DesktopTexture τ) : DrawCall where
  topology := .triangleList
  vertices := [vertex 0, vertex 1, vertex 2]
  width := b.target_w
  height := b.target_h
  pixelShader := b.ps cs frame
  blend := .none

/-- `made` is whether the constant buffer could be mapped and the view of the frame made. -/
def convert [Direct3D] (made : Bool) (frame : DesktopTexture τ) (target : Picture) : Outcome Picture :=
  match inputColorSpaceFor frame.format with
  | none => .error (.err .notInitialized)
  | some cs => if made then .ok (Direct3D.draw (b.drawCall cs frame) target) else .error (.err .win32)

variable {b}

/-- **One triangle covers the target.**  Every pixel is shaded, at its own place of the frame. -/
theorem draw_eq [Direct3D] (hd : Direct3D.Documented) (cs : InputColorSpace) (frame : DesktopTexture τ)
    (target : Picture) {i j : ℕ} (hi : i < b.target_w.toNat) (hj : j < b.target_h.toNat) :
    Direct3D.draw (b.drawCall cs frame) target i j =
      b.ps cs frame (((i : ℚ) + 1 / 2) / b.target_w.toNat, ((j : ℚ) + 1 / 2) / b.target_h.toNat) := by
  have hw : (0 : ℚ) < b.target_w.toNat := Nat.cast_pos.2 b.size.width_pos
  have hh : (0 : ℚ) < b.target_h.toNat := Nat.cast_pos.2 b.size.height_pos
  have h₀ : (b.drawCall cs frame).place (vertex 0) = ((0 : ℚ), (0 : ℚ)) := by
    simp [DrawCall.place, drawCall, vertex]
  have h₁ : (b.drawCall cs frame).place (vertex 1) = (2 * (b.target_w.toNat : ℚ), (0 : ℚ)) := by
    simp [DrawCall.place, drawCall, vertex]
  have h₂ : (b.drawCall cs frame).place (vertex 2) = ((0 : ℚ), 2 * (b.target_h.toNat : ℚ)) := by
    simp [DrawCall.place, drawCall, vertex]
  have hi' : (i : ℚ) + 1 / 2 < b.target_w.toNat := by
    have hle : (i : ℚ) + 1 ≤ b.target_w.toNat := by exact_mod_cast hi
    linarith
  have hj' : (j : ℚ) + 1 / 2 < b.target_h.toNat := by
    have hle : (j : ℚ) + 1 ≤ b.target_h.toNat := by exact_mod_cast hj
    linarith
  have hcovers : Covers ((0 : ℚ), (0 : ℚ)) (2 * (b.target_w.toNat : ℚ), (0 : ℚ))
      ((0 : ℚ), 2 * (b.target_h.toNat : ℚ)) (centre ℚ i j) := by
    rw [covers_upper (by linarith) (by linarith)]
    refine ⟨by simp only [centre_eq]; positivity, by simp only [centre]; positivity, ?_⟩
    have hx := mul_lt_mul_of_pos_right hi' hh
    have hy := mul_lt_mul_of_pos_right hj' hw
    simp only [descent, centre_eq]
    linarith
  have harea : cross ((0 : ℚ), (0 : ℚ)) (2 * (b.target_w.toNat : ℚ), (0 : ℚ))
      ((0 : ℚ), 2 * (b.target_h.toNat : ℚ)) ≠ 0 := by
    rw [cross_upper]
    exact (area_pos (by linarith) (by linarith)).ne'
  have hu : interpolate ((0 : ℚ), (0 : ℚ)) (2 * (b.target_w.toNat : ℚ), (0 : ℚ))
      ((0 : ℚ), 2 * (b.target_h.toNat : ℚ)) 0 2 0 (centre ℚ i j) =
        ((i : ℚ) + 1 / 2) / b.target_w.toNat := by
    have haffine := interpolate_affine harea 0 (1 / (b.target_w.toNat : ℚ)) 0 (centre ℚ i j)
    have htwo : 1 / (b.target_w.toNat : ℚ) * (2 * b.target_w.toNat) = 2 := by
      rw [one_div, mul_left_comm, inv_mul_cancel₀ hw.ne', mul_one]
    simp only [mul_zero, zero_mul, add_zero, zero_add, htwo] at haffine
    rw [haffine, centre_eq, one_div_mul_eq_div]
  have hv : interpolate ((0 : ℚ), (0 : ℚ)) (2 * (b.target_w.toNat : ℚ), (0 : ℚ))
      ((0 : ℚ), 2 * (b.target_h.toNat : ℚ)) 0 0 2 (centre ℚ i j) =
        ((j : ℚ) + 1 / 2) / b.target_h.toNat := by
    have haffine := interpolate_affine harea 0 0 (1 / (b.target_h.toNat : ℚ)) (centre ℚ i j)
    have htwo : 1 / (b.target_h.toNat : ℚ) * (2 * b.target_h.toNat) = 2 := by
      rw [one_div, mul_left_comm, inv_mul_cancel₀ hh.ne', mul_one]
    simp only [mul_zero, zero_mul, add_zero, zero_add, htwo] at haffine
    rw [haffine, centre_eq, one_div_mul_eq_div]
  have hus : (vertex 0).uv.1 = 0 ∧ (vertex 1).uv.1 = 2 ∧ (vertex 2).uv.1 = 0 := by simp [vertex]
  have hvs : (vertex 0).uv.2 = 0 ∧ (vertex 1).uv.2 = 0 ∧ (vertex 2).uv.2 = 2 := by simp [vertex]
  rw [hd.triangle _ _ _ _ _ _ _ rfl rfl]
  simp only [h₀, h₁, h₂, hus, hvs]
  rw [if_pos ⟨⟨hi, hj⟩, hcovers⟩, hu, hv]
  exact hd.unblended _ _

end TonemapBlitter

/-! ### The tick -/

/-- What a tick gets with a frame: the frame itself, and what the calls on it answer. -/
structure Captured (τ : Type) where
  texture : DesktopTexture τ
  /-- `take_shape_update` -/
  shape : Outcome (Option CursorShape)
  pointer_position : Option PointerPosition
  /-- the calls of the tonemapper succeed -/
  tonemapped : Bool
  /-- the texture of the shape is created -/
  created : Bool
  /-- what stands behind the pixels of the shape in memory -/
  behind : ℕ → UInt8
  /-- the vertex buffer of the pointer can be mapped -/
  mapped : Bool

/-- The part of the state that makes the picture. -/
structure LoopState (τ : Type) where
  width : UInt32
  height : UInt32
  keepalive : Picture
  cursor_blitter : Option CursorBlitter
  tonemap_blitter : Option (TonemapBlitter τ)
  last_pointer : Option PointerPosition
  has_real_frame : Bool

/-- An error is logged, and the tick goes on with `a`. -/
def logged {α : Type} (x : Outcome α) (a : α) : Outcome α :=
  match x with
  | .error (.err _) => .ok a
  | x => x

/-- `clear_bgra_texture_to_black` -/
def clearBgraTextureToBlack [Direct3D] : Picture := Direct3D.clear (0, 0, 0, 1)

theorem clearBgraTextureToBlack_eq [Direct3D] (hd : Direct3D.Documented) :
    clearBgraTextureToBlack = fun _ _ => ⟨0, 0, 0, 0xFF⟩ := by
  have hclear := hd.clear_eq ⟨0, 0, 0, 0xFF⟩
  simp only [channel_zero, channel_full] at hclear
  exact hclear

namespace LoopState

variable {τ : Type} [Direct3D] (bgra : τ → Bgra)

/-- `Pipeline::start`; a blitter that cannot be built is left out. -/
def start (width height : UInt32) (size : TextureSize width height) (cursor : Bool)
    (ps : Option (InputColorSpace → DesktopTexture τ → ℚ × ℚ → Bgra)) : LoopState τ where
  width := width
  height := height
  keepalive := clearBgraTextureToBlack
  cursor_blitter := if cursor then some ⟨width, height, none, size⟩ else none
  tonemap_blitter := ps.map fun ps => ⟨width, height, ps, size⟩
  last_pointer := none
  has_real_frame := false

/-- The pixels of the desktop are moved into the keepalive. -/
def moveFrame (s : LoopState τ) (f : Captured τ) : Picture :=
  let copied := Direct3D.copyResource bgra f.texture s.width s.height s.keepalive
  if isBgra8 f.texture.format then copied
  else
    match s.tonemap_blitter with
    | none => copied
    | some blitter =>
      match blitter.convert f.tonemapped f.texture s.keepalive with
      | .ok keepalive => keepalive
      | .error _ => copied

variable [BuildProfile]

/-- A shape that comes with the frame is uploaded. -/
def takeShape (s : LoopState τ) (f : Captured τ) : Outcome (Option CursorBlitter) :=
  match s.cursor_blitter with
  | none => .ok none
  | some blitter => do
    match ← logged f.shape none with
    | none => .ok (some blitter)
    | some shape => logged ((blitter.updateShape f.created f.behind shape).map fun r => some r.2) (some blitter)

/-- The pointer is drawn where it was last seen. -/
def compositePointer (blitter : Option CursorBlitter) (last_pointer : Option PointerPosition) (mapped : Bool)
    (keepalive : Picture) : Outcome Picture :=
  match blitter, last_pointer with
  | some blitter, some pos =>
    if pos.visible then logged (blitter.composite mapped pos.x.toInt pos.y.toInt keepalive) keepalive
    else .ok keepalive
  | _, _ => .ok keepalive

/-- The tick up to its `convert`, which takes the keepalive. -/
def tick (s : LoopState τ) : Option (Captured τ) → Outcome (LoopState τ)
  | none => .ok s
  | some f => do
    let keepalive := s.moveFrame bgra f
    let cursor_blitter ← s.takeShape f
    let last_pointer := f.pointer_position.or s.last_pointer
    let keepalive ← compositePointer cursor_blitter last_pointer f.mapped keepalive
    .ok { s with keepalive, cursor_blitter, last_pointer, has_real_frame := true }

/-- The state behind ticks that get `fs`. -/
def run (s : LoopState τ) (fs : List (Option (Captured τ))) : Outcome (LoopState τ) := fs.foldlM (tick bgra) s

end LoopState

/-! ### What is to be seen -/

section Shown

variable {τ : Type} [Direct3D] (bgra : τ → Bgra) (width height : UInt32) (built : Bool)
  (ps : Option (InputColorSpace → DesktopTexture τ → ℚ × ℚ → Bgra))

/-- The desktop of a frame, where it can be moved into a picture of this size. -/
def Captured.desktop (f : Captured τ) : Option Picture :=
  if f.texture.format.ofBgra8 then
    if f.texture.width = width ∧ f.texture.height = height then some fun i j => bgra (f.texture.texel i j)
    else none
  else if f.tonemapped then do
    let shader ← ps
    let cs ← inputColorSpaceFor f.texture.format
    some fun i j => shader cs f.texture (((i : ℚ) + 1 / 2) / width.toNat, ((j : ℚ) + 1 / 2) / height.toNat)
  else none

/-- The pointer without the count of its shape. -/
def CachedCursor.unnumbered (c : CachedCursor) : CachedCursor := { c with generation := 0 }

/-- The pointer that a frame brings, where its shape becomes a texture. -/
def Captured.cursor (f : Captured τ) : Option CachedCursor :=
  match f.shape with
  | .ok (some shape) =>
    if h : f.created = true ∧ TextureSize shape.width shape.height then
      some {
        width := shape.width
        height := shape.height
        hot_x := shape.hot_x
        hot_y := shape.hot_y
        generation := 0
        texture := Direct3D.initialData shape.width shape.height (memoryAt shape.pixels f.behind) (shape.width.toNat * 4)
        size := h.2 }
    else none
  | _ => none

/-- The pointer of the last frame that brought one; `built` is whether there is a blitter. -/
def lastCursor (fs : List (Option (Captured τ))) : Option CachedCursor :=
  if built then fs.lastSome (·.bind Captured.cursor) else none

/-- The last position that came with a frame. -/
def lastPosition (fs : List (Option (Captured τ))) : Option PointerPosition :=
  fs.lastSome (·.bind Captured.pointer_position)

/-- A picture with a pointer on it. -/
def withPointer (c : Option CachedCursor) (pos : Option PointerPosition) (mapped : Bool) (pic : Picture) :
    Picture :=
  match c, pos with
  | some c, some pos =>
    if pos.visible ∧ mapped then c.drawnAt (pos.x.toInt - c.hot_x) (pos.y.toInt - c.hot_y) pic else pic
  | _, _ => pic

/-- The place of a pointer that is drawn is made of `i32` values. -/
def PointerFits (c : Option CachedCursor) (pos : Option PointerPosition) : Prop :=
  ∀ c' ∈ c, ∀ pos' ∈ pos, pos'.visible = true →
    InsideI32 pos'.x.toInt c'.hot_x c'.width ∧ InsideI32 pos'.y.toInt c'.hot_y c'.height

/-- Two pictures of this size are the same. -/
def SamePicture (a b : Picture) : Prop := ∀ i < width.toNat, ∀ j < height.toNat, a i j = b i j

variable {bgra width height built ps}

omit [Direct3D] in
theorem SamePicture.trans {a b c : Picture} (h₁ : SamePicture width height a b)
    (h₂ : SamePicture width height b c) : SamePicture width height a c :=
  fun i hi j hj => (h₁ i hi j hj).trans (h₂ i hi j hj)

/-- The pointer is put on pixel by pixel. -/
theorem SamePicture.withPointer {a b : Picture} (h : SamePicture width height a b) (c : Option CachedCursor)
    (pos : Option PointerPosition) (mapped : Bool) :
    SamePicture width height (withPointer c pos mapped a) (withPointer c pos mapped b) := by
  intro i hi j hj
  have hpixel := h i hi j hj
  cases c with
  | none => exact hpixel
  | some c =>
      cases pos with
      | none => exact hpixel
      | some pos =>
          simp only [Penflow.withPointer]
          split
          · simp only [CachedCursor.drawnAt, hpixel]
          · exact hpixel

/-! ### One frame -/

namespace LoopState

variable {size : TextureSize width height} {s s' : LoopState τ} {fs : List (Option (Captured τ))}

/-- What the state has kept of the frames `fs`. -/
structure Agrees (size : TextureSize width height) (built : Bool)
    (ps : Option (InputColorSpace → DesktopTexture τ → ℚ × ℚ → Bgra)) (fs : List (Option (Captured τ)))
    (s : LoopState τ) : Prop where
  width_eq : s.width = width
  height_eq : s.height = height
  tonemap : s.tonemap_blitter = ps.map fun ps => ⟨width, height, ps, size⟩
  blitter : if built then ∃ c, s.cursor_blitter = some ⟨width, height, c, size⟩ ∧
      c.map CachedCursor.unnumbered = lastCursor built fs
    else s.cursor_blitter = none
  position : s.last_pointer = lastPosition fs

theorem start_agrees : (start width height size built ps).Agrees size built ps [] where
  width_eq := rfl
  height_eq := rfl
  tonemap := rfl
  blitter := by
    cases built with
    | false => exact rfl
    | true => exact ⟨none, rfl, rfl⟩
  position := rfl

/-- A frame of the family is copied: the tonemapper takes none of its other formats. -/
theorem moveFrame_of_family {f : Captured τ} (hfamily : f.texture.format.ofBgra8 = true) :
    s.moveFrame bgra f = Direct3D.copyResource bgra f.texture s.width s.height s.keepalive := by
  rw [moveFrame]
  cases hformat : f.texture.format with
  | b8g8r8a8Unorm => rfl
  | other value => cases s.tonemap_blitter <;> simp [isBgra8, TonemapBlitter.convert, inputColorSpaceFor, hformat]
  | _ =>
      rw [hformat] at hfamily
      cases hfamily

/-- The frame is moved as far as it can be. -/
theorem moveFrame_same (hd : Direct3D.Documented) (bgra : τ → Bgra) (h : s.Agrees size built ps fs)
    (f : Captured τ) :
    SamePicture width height (s.moveFrame bgra f) ((f.desktop bgra width height ps).getD s.keepalive) := by
  intro i hi j hj
  rw [Captured.desktop]
  cases hfamily : f.texture.format.ofBgra8 with
  | true =>
      rw [moveFrame_of_family hfamily, h.width_eq, h.height_eq]
      simp only [if_true]
      split
      case isTrue hsize =>
        obtain ⟨rfl, rfl⟩ := hsize
        exact hd.copied bgra f.texture s.keepalive hfamily i hi j hj
      case isFalse hsize =>
        rw [hd.mismatched bgra f.texture _ _ _ fun hall => hsize hall.2]
        rfl
  | false =>
      have hbgra : isBgra8 f.texture.format = false := by
        rw [isBgra8, beq_eq_false_iff_ne]
        intro hformat
        rw [hformat] at hfamily
        cases hfamily
      have hcopied : Direct3D.copyResource bgra f.texture width height s.keepalive = s.keepalive := by
        apply hd.mismatched
        rintro ⟨hin, -⟩
        rw [hin] at hfamily
        cases hfamily
      rw [moveFrame, h.width_eq, h.height_eq, h.tonemap]
      simp only [hbgra, Bool.false_eq_true, if_false, hcopied]
      cases ps with
      | none => cases f.tonemapped <;> rfl
      | some shader =>
          simp only [Option.map_some, TonemapBlitter.convert]
          cases hcs : inputColorSpaceFor f.texture.format with
          | none => cases f.tonemapped <;> rfl
          | some cs =>
              cases f.tonemapped with
              | false => rfl
              | true =>
                  exact TonemapBlitter.draw_eq (b := ⟨width, height, shader, size⟩) hd cs f.texture s.keepalive hi hj

variable [BuildProfile]

/-- A shape is turned down only where it does not become a texture. -/
theorem updateShape_eq_err {b : CursorBlitter} {created : Bool} {behind : ℕ → UInt8} {shape : CursorShape}
    {e : EngineError} (h : b.updateShape created behind shape = .error (.err e)) :
    ¬ (created = true ∧ TextureSize shape.width shape.height) := by
  rintro ⟨hcreated, hsize⟩
  have hle := hsize.width_le
  rw [textureLimit] at hle
  rcases Outcome.bind_eq_error.1 h with hgen | ⟨next_gen, -, h⟩
  · rw [CursorBlitter.nextGeneration] at hgen
    split at hgen
    · exact unfailing_addUsize _ _ e hgen
    · cases hgen
  · rw [mulU32_of_lt (by omega)] at h
    change (if h : created = true ∧ TextureSize shape.width shape.height then _ else _) = _ at h
    rw [dif_pos ⟨hcreated, hsize⟩] at h
    cases h

/-- The blitter behind a frame has the pointer that came with it, or the one it had. -/
theorem takeShape_blitter {f : Captured τ} {c : Option CachedCursor} {blitter : Option CursorBlitter}
    (hblitter : s.cursor_blitter = some ⟨width, height, c, size⟩) (h : s.takeShape f = .ok blitter) :
    ∃ c', blitter = some ⟨width, height, c', size⟩ ∧ c'.map CachedCursor.unnumbered =
      f.cursor.or (c.map CachedCursor.unnumbered) := by
  rw [takeShape, hblitter] at h
  obtain ⟨shape, hshape, h⟩ := Outcome.bind_eq_ok.1 h
  rw [Captured.cursor]
  cases shape with
  | none =>
      obtain rfl := Except.ok.inj h
      refine ⟨c, rfl, ?_⟩
      rcases hf : f.shape with (e | _) | _ | shape
      · rfl
      · rfl
      · rfl
      · rw [hf] at hshape
        cases hshape
  | some shape =>
      have hf : f.shape = .ok (some shape) := by
        rcases hf : f.shape with (e | _) | _ | shape'
        · rw [hf] at hshape
          cases hshape
        · rw [hf] at hshape
          cases hshape
        · rw [hf] at hshape
          cases hshape
        · rw [hf] at hshape
          exact hshape
      simp only [hf]
      change logged ((CursorBlitter.updateShape ⟨width, height, c, size⟩ f.created f.behind shape).map
        fun r => some r.2) (some ⟨width, height, c, size⟩) = .ok blitter at h
      rcases hupdate : CursorBlitter.updateShape ⟨width, height, c, size⟩ f.created f.behind shape with
        (e | _) | ⟨gen, b'⟩
      · rw [hupdate] at h
        obtain rfl := Except.ok.inj h
        rw [dif_neg (updateShape_eq_err hupdate)]
        exact ⟨c, rfl, rfl⟩
      · rw [hupdate] at h
        cases h
      · rw [hupdate] at h
        obtain rfl := Except.ok.inj h
        obtain ⟨hsize, rfl⟩ := updateShape_eq_ok hupdate
        have hcreated : f.created = true := by
          by_contra hcreated
          obtain ⟨next_gen, -, hupdate⟩ := Outcome.bind_eq_ok.1 hupdate
          obtain ⟨row_pitch, -, hupdate⟩ := Outcome.bind_eq_ok.1 hupdate
          rw [dif_neg fun h => hcreated h.1] at hupdate
          cases hupdate
        rw [dif_pos ⟨hcreated, hsize⟩]
        exact ⟨_, rfl, rfl⟩

/-- The pointer is drawn on the picture, where it is to be seen. -/
theorem compositePointer_same (hd : Direct3D.Documented) {c : Option CachedCursor} {pos : Option PointerPosition}
    {mapped : Bool} {pic pic' : Picture}
    (hplace : PointerFits (c.map CachedCursor.unnumbered) pos)
    (h : compositePointer (some ⟨width, height, c, size⟩) pos mapped pic = .ok pic') :
    SamePicture width height pic' (withPointer (c.map CachedCursor.unnumbered) pos mapped pic) := by
  intro i hi j hj
  cases pos with
  | none =>
      obtain rfl := Except.ok.inj h
      cases c <;> rfl
  | some pos =>
      cases hvisible : pos.visible with
      | false =>
          rw [compositePointer, if_neg (by simp [hvisible])] at h
          obtain rfl := Except.ok.inj h
          cases c with
          | none => rfl
          | some c => simp [withPointer, hvisible]
      | true =>
          rw [compositePointer, if_pos hvisible] at h
          cases c with
          | none =>
              obtain rfl := Except.ok.inj h
              rfl
          | some c =>
              obtain ⟨hx, hy⟩ : InsideI32 pos.x.toInt c.hot_x c.width ∧ InsideI32 pos.y.toInt c.hot_y c.height :=
                hplace c.unnumbered rfl pos rfl hvisible
              cases mapped with
              | true =>
                  rw [CursorBlitter.composite_eq hd rfl hx hy] at h
                  obtain rfl := Except.ok.inj h
                  rw [CursorBlitter.clip, if_pos ⟨hi, hj⟩, Option.map_some, withPointer,
                    if_pos ⟨hvisible, rfl⟩]
                  rfl
              | false =>
                  rw [CursorBlitter.composite_of_cursor rfl hx hy, computeClippedQuad_eq hx hy] at h
                  have hsame : pic' = pic := by
                    split at h
                    · exact (Except.ok.inj h).symm
                    · exact (Except.ok.inj h).symm
                  rw [hsame]
                  simp [withPointer]

/-- A checked build goes on only where the pointer can be placed. -/
theorem compositePointer_fits (hchecked : BuildProfile.overflowChecks = true)
    {c : Option CachedCursor} {pos : Option PointerPosition} {mapped : Bool} {pic pic' : Picture}
    (h : compositePointer (some ⟨width, height, c, size⟩) pos mapped pic = .ok pic') :
    PointerFits (c.map CachedCursor.unnumbered) pos := by
  intro c' hc pos' hpos hvisible
  obtain ⟨c, rfl, rfl⟩ := Option.map_eq_some_iff.1 hc
  obtain rfl := Option.mem_def.1 hpos
  rw [compositePointer, if_pos hvisible] at h
  by_contra hout
  rw [CursorBlitter.composite_panics (c := c) rfl hchecked hout] at h
  cases h

theorem tick_some (hd : Direct3D.Documented) {f : Captured τ} (hs : s.Agrees size built ps fs)
    (h : s.tick bgra (some f) = .ok s') :
    s'.Agrees size built ps (fs ++ [some f]) ∧
      (BuildProfile.overflowChecks = true →
        PointerFits (lastCursor built (fs ++ [some f])) (lastPosition (fs ++ [some f]))) ∧
      (PointerFits (lastCursor built (fs ++ [some f])) (lastPosition (fs ++ [some f])) →
        SamePicture width height s'.keepalive (withPointer (lastCursor built (fs ++ [some f]))
          (lastPosition (fs ++ [some f])) f.mapped ((f.desktop bgra width height ps).getD s.keepalive))) := by
  obtain ⟨blitter, hblitter, h⟩ := Outcome.bind_eq_ok.1 h
  obtain ⟨pic, hpic, h⟩ := Outcome.bind_eq_ok.1 h
  obtain rfl := Except.ok.inj h
  have hposition : lastPosition (fs ++ [some f]) = f.pointer_position.or s.last_pointer := by
    rw [hs.position, lastPosition, List.lastSome_concat]
    rfl
  have hmoved := moveFrame_same hd bgra hs f
  rw [hposition]
  cases built with
  | false =>
      have hnone : s.cursor_blitter = none := hs.blitter
      rw [takeShape, hnone] at hblitter
      obtain rfl := Except.ok.inj hblitter
      obtain rfl := Except.ok.inj hpic
      refine ⟨⟨hs.width_eq, hs.height_eq, hs.tonemap, rfl, hposition.symm⟩, ?_, fun _ => hmoved⟩
      intro _ c hc
      cases hc
  | true =>
      obtain ⟨c, hc, hlast⟩ := hs.blitter
      obtain ⟨c', rfl, hc'⟩ := takeShape_blitter hc hblitter
      have hcursor : lastCursor true (fs ++ [some f]) = c'.map CachedCursor.unnumbered := by
        rw [hc', hlast, lastCursor, if_pos rfl, List.lastSome_concat, lastCursor, if_pos rfl]
        rfl
      rw [hcursor]
      refine ⟨⟨hs.width_eq, hs.height_eq, hs.tonemap, ⟨c', rfl, hcursor.symm⟩, hposition.symm⟩, ?_, ?_⟩
      · exact fun hchecked => compositePointer_fits hchecked hpic
      · intro hplace
        exact (compositePointer_same hd hplace hpic).trans (hmoved.withPointer _ _ _)

/-- What is kept of the frames is kept over a run. -/
theorem run_agrees (hd : Direct3D.Documented) {gs : List (Option (Captured τ))} (hs : s.Agrees size built ps fs)
    (h : s.run bgra gs = .ok s') : s'.Agrees size built ps (fs ++ gs) := by
  induction gs generalizing s fs with
  | nil =>
      obtain rfl := Except.ok.inj h
      rw [List.append_nil]
      exact hs
  | cons g gs ih =>
      rw [run, List.foldlM_cons] at h
      obtain ⟨s₁, hstep, hrun⟩ := Outcome.bind_eq_ok.1 h
      rw [List.append_cons]
      cases g with
      | none =>
          obtain rfl := Except.ok.inj hstep
          refine ih ⟨hs.width_eq, hs.height_eq, hs.tonemap, ?_, ?_⟩ hrun
          · rw [lastCursor, List.lastSome_concat]
            exact hs.blitter
          · rw [lastPosition, List.lastSome_concat]
            exact hs.position
      | some f =>
          obtain ⟨hagrees, -, -⟩ := tick_some hd hs hstep
          exact ih hagrees hrun

/-- Ticks that get no frame leave all as it is. -/
theorem run_idle (bgra : τ → Bgra) (s : LoopState τ) {gs : List (Option (Captured τ))}
    (hgs : ∀ g ∈ gs, g = none) : s.run bgra gs = .ok s := by
  induction gs with
  | nil => rfl
  | cons g gs ih =>
      rw [hgs g List.mem_cons_self, run, List.foldlM_cons]
      exact ih fun g hg => hgs g (List.mem_cons_of_mem _ hg)

/-- The ticks of two runs in a row. -/
theorem run_append {gs : List (Option (Captured τ))} :
    s.run bgra (fs ++ gs) = s.run bgra fs >>= fun s' => s'.run bgra gs := by
  rw [run, List.foldlM_append]
  rfl

/-- **What is encoded.**  Before the first frame the keepalive is black.  From a frame to the next it shows the
desktop of that frame, or where it cannot be moved what stood there before it; over it the last pointer that came
with a frame, at the last position that did, and no pointer of before.  A checked build comes through only where
that pointer can be placed. -/
theorem keepalive_of_run (hd : Direct3D.Documented) (h : (start width height size built ps).run bgra fs = .ok s) :
    ((∀ g ∈ fs, g = none) → s.keepalive = fun _ _ => ⟨0, 0, 0, 0xFF⟩) ∧
      ∀ pre f post, fs = pre ++ some f :: post → (∀ g ∈ post, g = none) →
        let seen := pre ++ [some f]
        (BuildProfile.overflowChecks = true → PointerFits (lastCursor built seen) (lastPosition seen)) ∧
          (PointerFits (lastCursor built seen) (lastPosition seen) →
            (∀ pic, f.desktop bgra width height ps = some pic → SamePicture width height s.keepalive
              (withPointer (lastCursor built seen) (lastPosition seen) f.mapped pic)) ∧
            (f.desktop bgra width height ps = none → ∃ before,
              (start width height size built ps).run bgra pre = .ok before ∧
                SamePicture width height s.keepalive
                  (withPointer (lastCursor built seen) (lastPosition seen) f.mapped before.keepalive))) := by
  constructor
  · intro hidle
    rw [run_idle bgra _ hidle] at h
    obtain rfl := Except.ok.inj h
    exact clearBgraTextureToBlack_eq hd
  · intro pre f post hfs hpost
    rw [hfs, run_append] at h
    obtain ⟨before, hbefore, h⟩ := Outcome.bind_eq_ok.1 h
    rw [run, List.foldlM_cons] at h
    obtain ⟨behind, htick, h⟩ := Outcome.bind_eq_ok.1 h
    have hlast := (run_idle bgra behind hpost).symm.trans h
    obtain rfl := Except.ok.inj hlast
    obtain ⟨-, hchecked, hsame⟩ := tick_some hd (run_agrees hd start_agrees hbefore) htick
    rw [List.nil_append] at hchecked hsame
    refine ⟨hchecked, fun hplace => ⟨fun pic hpic => ?_, fun hnone => ⟨before, hbefore, ?_⟩⟩⟩
    · have hshown := hsame hplace
      rw [hpic] at hshown
      exact hshown
    · have hshown := hsame hplace
      rw [hnone] at hshown
      exact hshown

/-- A grey desktop of four by four, with a pointer of one pixel on its second row. -/
def greyFrame : Captured Bgra where
  texture := ⟨4, 4, .b8g8r8a8Unorm, fun _ _ => ⟨9, 9, 9, 0xFF⟩⟩
  shape := .ok (some ⟨.color, 1, 1, 0, 0, [1, 2, 3, 0xFF]⟩)
  pointer_position := some ⟨0, 1, true⟩
  tonemapped := false
  created := true
  behind := fun _ => 7
  mapped := true

omit [BuildProfile] [Direct3D] in
/-- The frame, and a tick that gets none: the desktop with the pointer on it. -/
theorem keepalive_of_run_frame :
    letI : BuildProfile := ⟨true⟩
    letI := Direct3D.reference
    ∃ s, (start 4 4 (by decide) true none).run id [some greyFrame, none] = .ok s ∧
      SamePicture 4 4 s.keepalive (withPointer (lastCursor true [some greyFrame]) (lastPosition [some greyFrame]) true
        fun _ _ => ⟨9, 9, 9, 0xFF⟩) := by
  let _ : BuildProfile := ⟨true⟩
  let _ := Direct3D.reference
  have hok : ((start 4 4 (by decide) true none).run id [some greyFrame, none]).toBool = true := by
    decide +kernel
  obtain ⟨s, hs⟩ : ∃ s, (start 4 4 (by decide) true none).run id [some greyFrame, none] = .ok s := by
    cases hrun : (start 4 4 (by decide) true none).run id [some greyFrame, none] with
    | error e =>
        rw [hrun] at hok
        cases hok
    | ok s => exact ⟨s, rfl⟩
  obtain ⟨hfits, hshown⟩ := (keepalive_of_run Direct3D.reference_documented hs).2 [] greyFrame [none] rfl
    (fun g hg => List.mem_singleton.1 hg)
  exact ⟨s, hs, (hshown (hfits rfl)).1 _ rfl⟩

end LoopState

/-! ### The tick of the pipeline -/

section Follows

variable {ε : Type} [BuildProfile] {c : SessionConfig} {s s' : LoopState τ} {p : Pipeline ε}

/-- What both the picture and the loop of the pipeline keep of the frames. -/
def LoopState.Follows (s : LoopState τ) (p : Pipeline ε) : Prop :=
  s.last_pointer = p.last_pointer ∧ s.has_real_frame = p.has_real_frame

/-- The tick that makes the picture is the tick of the pipeline, at the return of `acquire_frame`. -/
theorem LoopState.Follows.acquire (h : s.Follows p) {got : Option (Captured τ)}
    (htick : s.tick bgra got = .ok s') {force_idr : Bool} (hpoint : p.point = .acquiring force_idr) (now : ℕ) :
    s'.Follows (Pipeline.step c p (.acquire (.ok (got.map Captured.pointer_position)) now)) := by
  obtain ⟨hpointer, hreal⟩ := h
  cases got with
  | none =>
      obtain rfl := Except.ok.inj htick
      simp only [Pipeline.step, Pipeline.acquire, hpoint, Option.map_none]
      exact ⟨hpointer, hreal⟩
  | some f =>
      obtain ⟨blitter, -, htick⟩ := Outcome.bind_eq_ok.1 htick
      obtain ⟨pic, -, htick⟩ := Outcome.bind_eq_ok.1 htick
      obtain rfl := Except.ok.inj htick
      simp only [Pipeline.step, Pipeline.acquire, hpoint, Option.map_some]
      exact ⟨congrArg f.pointer_position.or hpointer, rfl⟩

end Follows

end Shown

end Penflow
