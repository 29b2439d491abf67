import Mathlib.Data.Rat.Floor
import Mathlib.Tactic.Positivity
import Penflow.Capture.CursorShape
import Penflow.Lib.Triangles

/-!
# The Direct3D 11 calls that make the picture

Each call on textures with what it hands over, and `Direct3D`, which says what pixels Direct3D leaves.
`Direct3D.Documented` are the rules of its documentation which the blitters rely on; a conversion to eight bits may
be off by 0.6 of a step, so the rules leave some pixels open.  `Direct3D.reference` rounds to the nearest step and
keeps all of them.

Coordinates are rationals where the shaders and the rasterizer have `f32`.
-/

namespace Penflow

open Triangles

/-! ### Textures -/

/-- The pixels of a texture by column and row. -/
abbrev Picture := ℕ → ℕ → Bgra

/-- `D3D11_REQ_TEXTURE2D_U_OR_V_DIMENSION` -/
def textureLimit : ℕ := 16384

/-- A size that a texture can have. -/
structure TextureSize (width height : UInt32) : Prop where
  width_pos : 0 < width.toNat
  width_le : width.toNat ≤ textureLimit
  height_pos : 0 < height.toNat
  height_le : height.toNat ≤ textureLimit

instance (width height : UInt32) : Decidable (TextureSize width height) :=
  decidable_of_iff (0 < width.toNat ∧ width.toNat ≤ textureLimit ∧ 0 < height.toNat ∧
    height.toNat ≤ textureLimit)
    ⟨fun h => ⟨h.1, h.2.1, h.2.2.1, h.2.2.2⟩, fun h => ⟨h.1, h.2, h.3, h.4⟩⟩

inductive DxgiFormat where
  | b8g8r8a8Unorm
  | r8g8b8a8Unorm
  | r10g10b10a2Unorm
  | r16g16b16a16Float
  | other (value : UInt32)
  deriving DecidableEq, Repr

/-- The formats of the family of `B8G8R8A8`, with those of `DXGI_FORMAT_B8G8R8A8_TYPELESS` and
`DXGI_FORMAT_B8G8R8A8_UNORM_SRGB`. -/
def DxgiFormat.ofBgra8 : DxgiFormat → Bool
  | .b8g8r8a8Unorm => true
  | .other value => value == 90 || value == 91
  | _ => false

/-- A texture of the desktop; a texel is of any type. -/
structure DesktopTexture (τ : Type) where
  width : UInt32
  height : UInt32
  format : DxgiFormat
  texel : ℕ → ℕ → τ

/-! ### Draw calls -/

/-- A vertex behind the vertex shader, in clip space. -/
structure Vertex where
  pos : ℚ × ℚ
  uv : ℚ × ℚ
  deriving DecidableEq, Repr

inductive PrimitiveTopology where
  | triangleList
  | triangleStrip
  deriving DecidableEq, Repr

/-- The blend states that are bound: none, or `SrcBlend = ONE` and `DestBlend = INV_SRC_ALPHA`, for the alpha `ONE` and
`ZERO`. -/
inductive BlendState where
  | none
  | premultiplied
  deriving DecidableEq, Repr

/-- `Draw` of all of `vertices`, with no culling, no scissor and a viewport as large as the target. -/
structure DrawCall where
  topology : PrimitiveTopology
  vertices : List Vertex
  width : UInt32
  height : UInt32
  /-- The colour at a place of the texture that is bound. -/
  pixelShader : ℚ × ℚ → Bgra
  blend : BlendState

/-- Where the viewport has a point of clip space. -/
def DrawCall.place (d : DrawCall) (v : Vertex) : ℚ × ℚ :=
  ((v.pos.1 + 1) / 2 * d.width.toNat, (1 - v.pos.2) / 2 * d.height.toNat)

/-- What Direct3D leaves in textures. -/
class Direct3D where
  /-- The texture that `CreateTexture2D` makes of the memory at `pSysMem`, in rows of `SysMemPitch` bytes. -/
  initialData : (width height : UInt32) → (memory : ℕ → UInt8) → (pitch : ℕ) → Picture
  /-- `ClearRenderTargetView`, with red, green, blue and alpha. -/
  clear : (colour : ℚ × ℚ × ℚ × ℚ) → Picture
  /-- `CopyResource` into a BGRA texture; `bgra` is what the texels of one are. -/
  copyResource {τ : Type} (bgra : τ → Bgra) (src : DesktopTexture τ) (width height : UInt32) (dst : Picture) : Picture
  /-- `Sample` with `D3D11_FILTER_MIN_MAG_MIP_POINT` and `D3D11_TEXTURE_ADDRESS_CLAMP`. -/
  sample : (width height : UInt32) → Picture → ℚ × ℚ → Bgra
  /-- The output merger: what is written for a colour of the pixel shader over what stands there. -/
  merge : BlendState → Bgra → Bgra → Bgra
  draw : DrawCall → Picture → Picture

/-! ### What is documented -/

/-- A channel of a texture as a number between 0 and 1. -/
def channel (n : UInt8) : ℚ := n.toNat / 255

/-- The channel stands for `x`: the conversion is off by at most 0.6 of a step. -/
def UnormOf (n : UInt8) (x : ℚ) : Prop := |(n.toNat : ℚ) - max 0 (min x 1) * 255| ≤ 3 / 5

/-- A pixel with these colours and this alpha. -/
structure ColourOf (p : Bgra) (r g b a : ℚ) : Prop where
  r : UnormOf p.r r
  g : UnormOf p.g g
  b : UnormOf p.b b
  a : UnormOf p.a a

/-- `q` is a premultiplied pixel over another one. -/
def Bgra.Over (src dst q : Bgra) : Prop :=
  ColourOf q (channel src.r + channel dst.r * (1 - channel src.a)) (channel src.g + channel dst.g * (1 - channel src.a))
    (channel src.b + channel dst.b * (1 - channel src.a)) (channel src.a)

/-- The rules of Direct3D for these calls. -/
structure Direct3D.Documented [Direct3D] : Prop where
  /-- The rows of the memory follow each other at the pitch. -/
  initialData : ∀ width height memory pitch, ∀ x < width.toNat, ∀ y < height.toNat,
    Direct3D.initialData width height memory pitch x y =
      ⟨memory (y * pitch + x * 4), memory (y * pitch + x * 4 + 1), memory (y * pitch + x * 4 + 2),
        memory (y * pitch + x * 4 + 3)⟩
  cleared : ∀ r g b a i j, ColourOf (Direct3D.clear (r, g, b, a) i j) r g b a
  /-- Textures of one size whose formats are of one family are copied. -/
  copied : ∀ {τ : Type} (bgra : τ → Bgra) (src : DesktopTexture τ) (dst : Picture), src.format.ofBgra8 = true →
    ∀ i < src.width.toNat, ∀ j < src.height.toNat,
      Direct3D.copyResource bgra src src.width src.height dst i j = bgra (src.texel i j)
  /-- Between others the call does nothing. -/
  mismatched : ∀ {τ : Type} (bgra : τ → Bgra) (src : DesktopTexture τ) (width height : UInt32) (dst : Picture),
    ¬ (src.format.ofBgra8 = true ∧ src.width = width ∧ src.height = height) →
      Direct3D.copyResource bgra src width height dst = dst
  /-- A point sampler takes the texel that the place is in. -/
  nearest : ∀ (width height : UInt32) tex (u v : ℚ), ∀ x < width.toNat, ∀ y < height.toNat,
    ⌊u * width.toNat⌋ = x → ⌊v * height.toNat⌋ = y → Direct3D.sample width height tex (u, v) = tex x y
  /-- Without a blend state the colour is written as it is. -/
  unblended : ∀ src dst, Direct3D.merge .none src dst = src
  blended : ∀ src dst : Bgra, src.Over dst (Direct3D.merge .premultiplied src dst)
  /-- The pixels in the viewport whose centres a triangle covers are shaded at the place between its corners. -/
  triangle : ∀ (d : DrawCall) v₀ v₁ v₂ target i j, d.topology = .triangleList → d.vertices = [v₀, v₁, v₂] →
    Direct3D.draw d target i j =
      if (i < d.width.toNat ∧ j < d.height.toNat) ∧ Covers (d.place v₀) (d.place v₁) (d.place v₂) (centre ℚ i j) then
        Direct3D.merge d.blend (d.pixelShader
          (interpolate (d.place v₀) (d.place v₁) (d.place v₂) v₀.uv.1 v₁.uv.1 v₂.uv.1 (centre ℚ i j),
            interpolate (d.place v₀) (d.place v₁) (d.place v₂) v₀.uv.2 v₁.uv.2 v₂.uv.2 (centre ℚ i j))) (target i j)
      else target i j
  /-- A strip of four vertices is two triangles, drawn in their order. -/
  strip : ∀ (d : DrawCall) v₀ v₁ v₂ v₃ target, d.topology = .triangleStrip → d.vertices = [v₀, v₁, v₂, v₃] →
    Direct3D.draw d target =
      Direct3D.draw { d with topology := .triangleList, vertices := [v₁, v₃, v₂] }
        (Direct3D.draw { d with topology := .triangleList, vertices := [v₀, v₁, v₂] } target)

/-! ### Channels -/

theorem channel_nonneg (n : UInt8) : 0 ≤ channel n := by
  rw [channel]
  positivity

theorem channel_le_one (n : UInt8) : channel n ≤ 1 := by
  have hlt : n.toNat < 256 := n.toNat_lt
  rw [channel, div_le_one (by norm_num)]
  exact_mod_cast Nat.le_of_lt_succ hlt

/-- A channel that stands for another is that one: two steps differ by more than the conversion may be off. -/
theorem UnormOf.eq_channel {m n : UInt8} (h : UnormOf m (channel n)) : m = n := by
  have hexact : max 0 (min (channel n) 1) * 255 = n.toNat := by
    rw [min_eq_left (channel_le_one n), max_eq_right (channel_nonneg n), channel, div_mul_cancel₀ _ (by norm_num)]
  rw [UnormOf, hexact, abs_le] at h
  obtain ⟨hlo, hhi⟩ := h
  apply UInt8.toNat_inj.1
  have hle : (m.toNat : ℚ) < ((n.toNat + 1 : ℕ) : ℚ) := by
    push_cast
    linarith
  have hge : (n.toNat : ℚ) < ((m.toNat + 1 : ℕ) : ℚ) := by
    push_cast
    linarith
  have hle' := Nat.cast_lt.1 hle
  have hge' := Nat.cast_lt.1 hge
  omega

theorem channel_full : channel 0xFF = 1 := by
  rw [channel, show (0xFF : UInt8).toNat = 255 from rfl]
  norm_num

theorem channel_zero : channel 0 = 0 := by
  rw [channel, show (0 : UInt8).toNat = 0 from rfl, Nat.cast_zero, zero_div]

/-- A pixel whose colours and alpha are those of another. -/
theorem ColourOf.eq_pixel {p q : Bgra} (h : ColourOf p (channel q.r) (channel q.g) (channel q.b) (channel q.a)) :
    p = q := by
  obtain ⟨b, g, r, a⟩ := p
  obtain ⟨hr, hg, hb, ha⟩ := h
  obtain rfl := hr.eq_channel
  obtain rfl := hg.eq_channel
  obtain rfl := hb.eq_channel
  obtain rfl := ha.eq_channel
  rfl

/-- An opaque pixel covers what is behind it. -/
theorem Bgra.Over.eq_of_full {src dst q : Bgra} (h : src.Over dst q) (hfull : src.a = 0xFF) : q = src := by
  have hone : channel src.a = 1 := by rw [hfull, channel_full]
  rw [Bgra.Over, hone, sub_self, mul_zero, mul_zero, mul_zero, add_zero, add_zero, add_zero, ← hone] at h
  exact h.eq_pixel

/-- An empty one shows it. -/
theorem Bgra.Over.eq_of_empty {dst q : Bgra} (h : Bgra.Over ⟨0, 0, 0, 0⟩ dst q) : q = { dst with a := 0 } := by
  simp only [Bgra.Over, channel_zero, sub_zero, mul_one, zero_add] at h
  rw [← channel_zero] at h
  exact h.eq_pixel (q := { dst with a := 0 })

/-- A target that is cleared with the channels of a pixel has it everywhere. -/
theorem Direct3D.Documented.clear_eq [Direct3D] (h : Direct3D.Documented) (q : Bgra) :
    Direct3D.clear (channel q.r, channel q.g, channel q.b, channel q.a) = fun _ _ => q := by
  funext i j
  exact (h.cleared _ _ _ _ i j).eq_pixel

/-! ### A Direct3D that rounds to the nearest step -/

/-- The nearest of the 256 values that a channel has. -/
def unorm8 (x : ℚ) : UInt8 := UInt8.ofNat ⌊max 0 (min x 1) * 255 + 1 / 2⌋.toNat

theorem unorm8_of (x : ℚ) : UnormOf (unorm8 x) x := by
  have hlo : 0 ≤ max 0 (min x 1) * 255 := by positivity
  have hhi : max 0 (min x 1) ≤ 1 := max_le zero_le_one (min_le_right _ _)
  have hfloor := Int.floor_le (max 0 (min x 1) * 255 + 1 / 2)
  have hnext := Int.lt_floor_add_one (max 0 (min x 1) * 255 + 1 / 2)
  have hnonneg : 0 ≤ ⌊max 0 (min x 1) * 255 + 1 / 2⌋ := Int.floor_nonneg.2 (by linarith)
  have hlt : ⌊max 0 (min x 1) * 255 + 1 / 2⌋ < 256 := by
    rw [Int.floor_lt]
    push_cast
    linarith
  have hnat : ((unorm8 x).toNat : ℚ) = (⌊max 0 (min x 1) * 255 + 1 / 2⌋ : ℚ) := by
    rw [unorm8, UInt8.toNat_ofNat_of_lt' (by rw [UInt8.size]; omega)]
    exact_mod_cast Int.toNat_of_nonneg hnonneg
  rw [UnormOf, hnat, abs_le]
  constructor <;> linarith

/-- A place is taken to the nearest one in the texture. -/
def clampTexel (i : ℤ) (n : ℕ) : ℕ := (max 0 (min i (n - 1))).toNat

theorem clampTexel_of_lt {x n : ℕ} (h : x < n) : clampTexel x n = x := by
  rw [clampTexel]
  omega

/-- One triangle of a draw call. -/
def DrawCall.shade (d : DrawCall) (merge : BlendState → Bgra → Bgra → Bgra) (v₀ v₁ v₂ : Vertex) (target : Picture) :
    Picture := fun i j =>
  if (i < d.width.toNat ∧ j < d.height.toNat) ∧ Covers (d.place v₀) (d.place v₁) (d.place v₂) (centre ℚ i j) then
    merge d.blend (d.pixelShader
      (interpolate (d.place v₀) (d.place v₁) (d.place v₂) v₀.uv.1 v₁.uv.1 v₂.uv.1 (centre ℚ i j),
        interpolate (d.place v₀) (d.place v₁) (d.place v₂) v₀.uv.2 v₁.uv.2 v₂.uv.2 (centre ℚ i j))) (target i j)
  else target i j

/-- A blend with every channel rounded to the nearest step. -/
def roundedMerge : BlendState → Bgra → Bgra → Bgra
  | .none, src, _ => src
  | .premultiplied, src, dst => {
      b := unorm8 (channel src.b + channel dst.b * (1 - channel src.a))
      g := unorm8 (channel src.g + channel dst.g * (1 - channel src.a))
      r := unorm8 (channel src.r + channel dst.r * (1 - channel src.a))
      a := unorm8 (channel src.a) }

/-- A Direct3D with exact places and rounded colours. -/
abbrev Direct3D.reference : Direct3D where
  initialData _ _ memory pitch := fun x y =>
    ⟨memory (y * pitch + x * 4), memory (y * pitch + x * 4 + 1), memory (y * pitch + x * 4 + 2),
      memory (y * pitch + x * 4 + 3)⟩
  clear colour := fun _ _ => ⟨unorm8 colour.2.2.1, unorm8 colour.2.1, unorm8 colour.1, unorm8 colour.2.2.2⟩
  copyResource bgra src width height dst :=
    if src.format.ofBgra8 = true ∧ src.width = width ∧ src.height = height then fun i j => bgra (src.texel i j)
    else dst
  sample width height tex := fun (u, v) =>
    tex (clampTexel ⌊u * width.toNat⌋ width.toNat) (clampTexel ⌊v * height.toNat⌋ height.toNat)
  merge := roundedMerge
  draw d target :=
    match d.topology, d.vertices with
    | .triangleList, [v₀, v₁, v₂] => d.shade roundedMerge v₀ v₁ v₂ target
    | .triangleStrip, [v₀, v₁, v₂, v₃] => d.shade roundedMerge v₁ v₃ v₂ (d.shade roundedMerge v₀ v₁ v₂ target)
    | _, _ => target

theorem Direct3D.reference_documented : @Direct3D.Documented Direct3D.reference := by
  let _ := Direct3D.reference
  constructor
  case initialData => exact fun _ _ _ _ _ _ _ _ => rfl
  case cleared =>
    intro r g b a i j
    exact ⟨unorm8_of _, unorm8_of _, unorm8_of _, unorm8_of _⟩
  case copied =>
    intro τ bgra src dst hformat i hi j hj
    show (if _ then _ else _ : Picture) i j = _
    rw [if_pos ⟨hformat, rfl, rfl⟩]
  case mismatched =>
    intro τ bgra src width height dst hformat
    exact if_neg hformat
  case nearest =>
    intro width height tex u v x hx y hy hu hv
    show tex (clampTexel _ _) (clampTexel _ _) = _
    rw [hu, hv, clampTexel_of_lt hx, clampTexel_of_lt hy]
  case unblended => exact fun _ _ => rfl
  case blended =>
    intro src dst
    exact ⟨unorm8_of _, unorm8_of _, unorm8_of _, unorm8_of _⟩
  case triangle =>
    intro d v₀ v₁ v₂ target i j hlist hvertices
    obtain ⟨topology, vertices, width, height, pixelShader, blend⟩ := d
    obtain rfl : topology = .triangleList := hlist
    obtain rfl : vertices = [v₀, v₁, v₂] := hvertices
    rfl
  case strip =>
    intro d v₀ v₁ v₂ v₃ target hstrip hvertices
    obtain ⟨topology, vertices, width, height, pixelShader, blend⟩ := d
    obtain rfl : topology = .triangleStrip := hstrip
    obtain rfl : vertices = [v₀, v₁, v₂, v₃] := hvertices
    rfl

end Penflow
