import Penflow.Encoder.Walk

/-!
# The VUI blocks H.264 and HEVC share

Aspect ratio, overscan, video signal type and chroma location are coded alike in both VUI syntaxes.
The patchers copy three of them and replace the video signal type by full-range BT.709.
-/

namespace Penflow

open BitSyntax SyntaxReader

/-! ### Syntax -/

structure AspectRatio where
  aspect_ratio_idc : ℕ
  /-- `sar_width` and `sar_height`, coded for the extended aspect ratio only. -/
  sar : Option (ℕ × ℕ)
  deriving DecidableEq

structure ColourDescription where
  colour_primaries : ℕ
  transfer_characteristics : ℕ
  matrix_coefficients : ℕ
  deriving DecidableEq

structure VideoSignalType where
  video_format : ℕ
  video_full_range_flag : ℕ
  colour_description : Option ColourDescription
  deriving DecidableEq

namespace Rbsp

def aspectRatio : Rbsp AspectRatio := do
  let aspect_ratio_idc ← u 8
  let sar ← given (aspect_ratio_idc = 255) do
    let sar_width ← u 16
    let sar_height ← u 16
    pure (sar_width, sar_height)
  pure { aspect_ratio_idc, sar }

def colourDescription : Rbsp ColourDescription := do
  let colour_primaries ← u 8
  let transfer_characteristics ← u 8
  let matrix_coefficients ← u 8
  pure { colour_primaries, transfer_characteristics, matrix_coefficients }

def videoSignalType : Rbsp VideoSignalType := do
  let video_format ← u 3
  let video_full_range_flag ← u 1
  let colour_description ← flagged colourDescription
  pure { video_format, video_full_range_flag, colour_description }

/-- `chroma_sample_loc_type_top_field` and `chroma_sample_loc_type_bottom_field` -/
def chromaLoc : Rbsp (ℕ × ℕ) := do
  let top_field ← ue
  let bottom_field ← ue
  pure (top_field, bottom_field)

end Rbsp

/-- Full-range BT.709, with the video format left unspecified. -/
def fullRangeBt709 : VideoSignalType where
  video_format := 5
  video_full_range_flag := 1
  colour_description := some ⟨1, 1, 1⟩

/-! ### Walks -/

variable [BuildProfile]

namespace Walk

/-- The aspect ratio of a VUI. -/
def copyAspectRatio : Walk Unit := do
  let aspect_ratio_idc ← copyBits 8
  onlyIf (aspect_ratio_idc = 255) do
    let _ ← copyBits 16
    let _ ← copyBits 16
    pure ()

/-- The video signal type of the input: read and dropped. -/
def skipVideoSignalType : Walk Unit := do
  let video_signal_type_present ← readBits 1
  onlyIf (video_signal_type_present = 1) do
    let _ ← readBits 3
    let _ ← readBits 1
    let colour_desc ← readBits 1
    onlyIf (colour_desc = 1) do
      let _ ← readBits 8
      let _ ← readBits 8
      let _ ← readBits 8
      pure ()

def writeFullRangeBt709VideoSignalType : Walk Unit := do
  writeBits 1 1
  writeBits 5 3
  writeBits 1 1
  writeBits 1 1
  writeBits 1 8
  writeBits 1 8
  writeBits 1 8

/-- The chroma sample locations of a VUI. -/
def copyChromaLoc : Walk Unit := do
  let _ ← copyUe
  let _ ← copyUe
  pure ()

end Walk

/-! ### What the walks do -/

theorem copies_aspectRatio : Copies Walk.copyAspectRatio Rbsp.aspectRatio := by
  refine .bits (by decide) fun aspect_ratio_idc _ => ?_
  have hsar : Copies (do let _ ← Walk.copyBits 16; let _ ← Walk.copyBits 16; pure ()) (do
      let sar_width ← Rbsp.u 16
      let sar_height ← Rbsp.u 16
      pure (sar_width, sar_height)) :=
    .bits (by decide) fun _ _ => .bits (by decide) fun _ _ => .done rfl
  exact (Copies.onlyIf Iff.rfl fun _ => hsar).last fun _ => rfl

theorem copies_chromaLoc : Copies Walk.copyChromaLoc Rbsp.chromaLoc :=
  .ue fun _ _ => .ue fun _ _ => .done rfl

theorem reads_videoSignalType :
    Reads Walk.skipVideoSignalType (Rbsp.flagged Rbsp.videoSignalType) fun _ => () := by
  refine .bind (reads_bits (by decide)) fun flag _ => .onlyIf ?_
  refine .bind (reads_bits (by decide)) fun video_format _ => ?_
  refine .bind (reads_bits (by decide)) fun video_full_range_flag _ => .last _ ?_
  refine .bind (reads_bits (by decide)) fun colour_desc _ => .onlyIf ?_
  refine .bind (reads_bits (by decide)) fun colour_primaries _ => ?_
  refine .bind (reads_bits (by decide)) fun transfer_characteristics _ => ?_
  exact .bind (reads_bits (by decide)) fun matrix_coefficients _ => .done _

theorem writes_fullRangeBt709 : Writes Walk.writeFullRangeBt709VideoSignalType
    (Rbsp.flagged Rbsp.videoSignalType) (some fullRangeBt709) := by
  refine .bind (writes_bits (by decide) (by decide)) (.some rfl ?_)
  refine .bind (writes_bits (by decide) (by decide)) ?_
  refine .bind (writes_bits (by decide) (by decide)) (.last _ ?_)
  refine .bind (writes_bits (by decide) (by decide)) (.some rfl ?_)
  refine .bind (writes_bits (by decide) (by decide)) ?_
  refine .bind (writes_bits (by decide) (by decide)) ?_
  exact .last _ (writes_bits (by decide) (by decide))

end Penflow
