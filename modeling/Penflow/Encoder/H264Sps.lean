import Penflow.Encoder.Vui

/-!
# The H.264 SPS rewriter

`patchH264SpsRbsp` walks a sequence parameter set, copies it into a new one and puts its own values
where the decoder would otherwise delay: one reference frame, a full-range BT.709 signal, and a
bitstream restriction without reordering.

The walk is set against `Rbsp.h264Sps`, a reader of the same syntax with a record as its value.
`H264Sps.lowLatency` says on records what the rewriter does to the bits, and
`patchH264SpsRbsp_lowLatency` that this is all it does.
-/

namespace Penflow

open BitString BitSyntax SyntaxReader

/-! ### Syntax -/

/-- The profiles whose SPS carries chroma and bit-depth fields. -/
def isHighProfile (profile_idc : ℕ) : Prop :=
  profile_idc ∈ [100, 110, 122, 244, 44, 83, 86, 118, 128, 138, 139, 134, 135]

instance (profile_idc : ℕ) : Decidable (isHighProfile profile_idc) :=
  inferInstanceAs (Decidable (_ ∈ _))

structure H264Chroma where
  chroma_format_idc : ℕ
  separate_colour_plane_flag : Option ℕ
  bit_depth_luma_minus8 : ℕ
  bit_depth_chroma_minus8 : ℕ
  qpprime_y_zero_transform_bypass_flag : ℕ
  seq_scaling_matrix_present_flag : ℕ
  deriving DecidableEq

/-- The fields of picture order count type 1. -/
structure H264PocCycle where
  delta_pic_order_always_zero_flag : ℕ
  offset_for_non_ref_pic : ℤ
  offset_for_top_to_bottom_field : ℤ
  num_ref_frames_in_pic_order_cnt_cycle : ℕ
  offset_for_ref_frame : List ℤ
  deriving DecidableEq

structure H264Timing where
  num_units_in_tick : ℕ
  time_scale : ℕ
  fixed_frame_rate_flag : ℕ
  deriving DecidableEq

structure H264Cpb where
  bit_rate_value_minus1 : ℕ
  cpb_size_value_minus1 : ℕ
  cbr_flag : ℕ
  deriving DecidableEq

structure H264Hrd where
  cpb_cnt_minus1 : ℕ
  bit_rate_scale : ℕ
  cpb_size_scale : ℕ
  cpbs : List H264Cpb
  initial_cpb_removal_delay_length_minus1 : ℕ
  cpb_removal_delay_length_minus1 : ℕ
  dpb_output_delay_length_minus1 : ℕ
  time_offset_length : ℕ
  deriving DecidableEq

structure H264BitstreamRestriction where
  motion_vectors_over_pic_boundaries_flag : ℕ
  max_bytes_per_pic_denom : ℕ
  max_bits_per_mb_denom : ℕ
  log2_max_mv_length_horizontal : ℕ
  log2_max_mv_length_vertical : ℕ
  max_num_reorder_frames : ℕ
  max_dec_frame_buffering : ℕ
  deriving DecidableEq

structure H264Vui where
  aspect_ratio : Option AspectRatio
  overscan_appropriate_flag : Option ℕ
  video_signal_type : Option VideoSignalType
  chroma_loc : Option (ℕ × ℕ)
  timing : Option H264Timing
  nal_hrd : Option H264Hrd
  vcl_hrd : Option H264Hrd
  low_delay_hrd_flag : Option ℕ
  pic_struct_present_flag : ℕ
  bitstream_restriction : Option H264BitstreamRestriction
  deriving DecidableEq

structure H264Sps where
  profile_idc : ℕ
  constraint_flags : ℕ
  level_idc : ℕ
  seq_parameter_set_id : ℕ
  chroma : Option H264Chroma
  log2_max_frame_num_minus4 : ℕ
  pic_order_cnt_type : ℕ
  log2_max_pic_order_cnt_lsb_minus4 : Option ℕ
  poc_cycle : Option H264PocCycle
  max_num_ref_frames : ℕ
  gaps_in_frame_num_value_allowed_flag : ℕ
  pic_width_in_mbs_minus1 : ℕ
  pic_height_in_map_units_minus1 : ℕ
  frame_mbs_only_flag : ℕ
  mb_adaptive_frame_field_flag : Option ℕ
  direct_8x8_inference_flag : ℕ
  /-- The four frame cropping offsets. -/
  frame_cropping : Option (List ℕ)
  vui : Option H264Vui
  deriving DecidableEq

namespace Rbsp

def h264Chroma : Rbsp H264Chroma := do
  let chroma_format_idc ← ue
  let separate_colour_plane_flag ← given (chroma_format_idc = 3) (u 1)
  let bit_depth_luma_minus8 ← ue
  let bit_depth_chroma_minus8 ← ue
  let qpprime_y_zero_transform_bypass_flag ← u 1
  let seq_scaling_matrix_present_flag ← u 1
  -- scaling lists are not parsed
  refuseIf (seq_scaling_matrix_present_flag = 1)
  pure {
    chroma_format_idc, separate_colour_plane_flag, bit_depth_luma_minus8, bit_depth_chroma_minus8,
    qpprime_y_zero_transform_bypass_flag, seq_scaling_matrix_present_flag }

def h264PocCycle : Rbsp H264PocCycle := do
  let delta_pic_order_always_zero_flag ← u 1
  let offset_for_non_ref_pic ← se
  let offset_for_top_to_bottom_field ← se
  let num_ref_frames_in_pic_order_cnt_cycle ← ue
  let offset_for_ref_frame ← times num_ref_frames_in_pic_order_cnt_cycle se
  pure {
    delta_pic_order_always_zero_flag, offset_for_non_ref_pic, offset_for_top_to_bottom_field,
    num_ref_frames_in_pic_order_cnt_cycle, offset_for_ref_frame }

def h264Timing : Rbsp H264Timing := do
  let num_units_in_tick ← u 32
  let time_scale ← u 32
  let fixed_frame_rate_flag ← u 1
  pure { num_units_in_tick, time_scale, fixed_frame_rate_flag }

def h264Cpb : Rbsp H264Cpb := do
  let bit_rate_value_minus1 ← ue
  let cpb_size_value_minus1 ← ue
  let cbr_flag ← u 1
  pure { bit_rate_value_minus1, cpb_size_value_minus1, cbr_flag }

def h264Hrd : Rbsp H264Hrd := do
  let cpb_cnt_minus1 ← ue
  let bit_rate_scale ← u 4
  let cpb_size_scale ← u 4
  let cpbs ← times (cpb_cnt_minus1 + 1) h264Cpb
  let initial_cpb_removal_delay_length_minus1 ← u 5
  let cpb_removal_delay_length_minus1 ← u 5
  let dpb_output_delay_length_minus1 ← u 5
  let time_offset_length ← u 5
  pure {
    cpb_cnt_minus1, bit_rate_scale, cpb_size_scale, cpbs, initial_cpb_removal_delay_length_minus1,
    cpb_removal_delay_length_minus1, dpb_output_delay_length_minus1, time_offset_length }

def h264BitstreamRestriction : Rbsp H264BitstreamRestriction := do
  let motion_vectors_over_pic_boundaries_flag ← u 1
  let max_bytes_per_pic_denom ← ue
  let max_bits_per_mb_denom ← ue
  let log2_max_mv_length_horizontal ← ue
  let log2_max_mv_length_vertical ← ue
  let max_num_reorder_frames ← ue
  let max_dec_frame_buffering ← ue
  pure {
    motion_vectors_over_pic_boundaries_flag, max_bytes_per_pic_denom, max_bits_per_mb_denom,
    log2_max_mv_length_horizontal, log2_max_mv_length_vertical, max_num_reorder_frames,
    max_dec_frame_buffering }

def h264Vui : Rbsp H264Vui := do
  let aspect_ratio ← flagged aspectRatio
  let overscan_appropriate_flag ← flagged (u 1)
  let video_signal_type ← flagged videoSignalType
  let chroma_loc ← flagged chromaLoc
  let timing ← flagged h264Timing
  let nal_hrd ← flagged h264Hrd
  let vcl_hrd ← flagged h264Hrd
  let low_delay_hrd_flag ← given (nal_hrd.isSome ∨ vcl_hrd.isSome) (u 1)
  let pic_struct_present_flag ← u 1
  let bitstream_restriction ← flagged h264BitstreamRestriction
  pure {
    aspect_ratio, overscan_appropriate_flag, video_signal_type, chroma_loc, timing, nal_hrd, vcl_hrd,
    low_delay_hrd_flag, pic_struct_present_flag, bitstream_restriction }

/-- The SPS up to its trailing bits. -/
def h264Sps : Rbsp H264Sps := do
  let profile_idc ← u 8
  let constraint_flags ← u 8
  let level_idc ← u 8
  let seq_parameter_set_id ← ue
  let chroma ← given (isHighProfile profile_idc) h264Chroma
  let log2_max_frame_num_minus4 ← ue
  let pic_order_cnt_type ← ue
  let log2_max_pic_order_cnt_lsb_minus4 ← given (pic_order_cnt_type = 0) ue
  let poc_cycle ← given (pic_order_cnt_type = 1) h264PocCycle
  let max_num_ref_frames ← ue
  let gaps_in_frame_num_value_allowed_flag ← u 1
  let pic_width_in_mbs_minus1 ← ue
  let pic_height_in_map_units_minus1 ← ue
  let frame_mbs_only_flag ← u 1
  let mb_adaptive_frame_field_flag ← given (frame_mbs_only_flag = 0) (u 1)
  let direct_8x8_inference_flag ← u 1
  let frame_cropping ← flagged (times 4 ue)
  let vui ← flagged h264Vui
  pure {
    profile_idc, constraint_flags, level_idc, seq_parameter_set_id, chroma,
    log2_max_frame_num_minus4, pic_order_cnt_type, log2_max_pic_order_cnt_lsb_minus4, poc_cycle,
    max_num_ref_frames, gaps_in_frame_num_value_allowed_flag, pic_width_in_mbs_minus1,
    pic_height_in_map_units_minus1, frame_mbs_only_flag, mb_adaptive_frame_field_flag,
    direct_8x8_inference_flag, frame_cropping, vui }

end Rbsp

/-! ### What the rewriter is for -/

/-- No reordering and one decoded frame held back. -/
def lowLatencyRestriction : H264BitstreamRestriction where
  motion_vectors_over_pic_boundaries_flag := 1
  max_bytes_per_pic_denom := 0
  max_bits_per_mb_denom := 0
  log2_max_mv_length_horizontal := 16
  log2_max_mv_length_vertical := 16
  max_num_reorder_frames := 0
  max_dec_frame_buffering := 1

/-- The VUI of an SPS that came without one. -/
def minimalH264Vui : H264Vui where
  aspect_ratio := none
  overscan_appropriate_flag := none
  video_signal_type := some fullRangeBt709
  chroma_loc := none
  timing := none
  nal_hrd := none
  vcl_hrd := none
  low_delay_hrd_flag := none
  pic_struct_present_flag := 0
  bitstream_restriction := some lowLatencyRestriction

def H264Vui.lowLatency (vui : H264Vui) : H264Vui :=
  { vui with
    video_signal_type := some fullRangeBt709
    bitstream_restriction := some lowLatencyRestriction }

/-- **The rewrite on records.**  One reference frame, and a VUI with the overrides. -/
def H264Sps.lowLatency (sps : H264Sps) : H264Sps :=
  { sps with
    max_num_ref_frames := 1
    vui := some (sps.vui.elim minimalH264Vui H264Vui.lowLatency) }

/-! ### The walk -/

variable [BuildProfile]

namespace Walk

/-- The fields of the high profiles. -/
def copyH264Chroma : Walk Unit := do
  let chroma_format_idc ← copyUe
  onlyIf (chroma_format_idc = 3) (passBits 1)
  let _ ← copyUe
  let _ ← copyUe
  let _ ← copyBits 1
  let scaling_present ← copyBits 1
  refuseIf (scaling_present = 1)
  pure ()

/-- The fields of picture order count type 1. -/
def copyH264PocCycle : Walk Unit := do
  let _ ← copyBits 1
  let _ ← copySe
  let _ ← copySe
  let n ← copyUe
  times n passSe

def copyH264HrdParameters : Walk Unit := do
  let cpb_cnt_minus1 ← copyUe
  let _ ← copyBits 4
  let _ ← copyBits 4
  times (cpb_cnt_minus1 + 1) do
    let _ ← copyUe
    let _ ← copyUe
    let _ ← copyBits 1
    pure ()
  let _ ← copyBits 5
  let _ ← copyBits 5
  let _ ← copyBits 5
  let _ ← copyBits 5
  pure ()

/-- The bitstream restriction of the input: read and dropped. -/
def skipH264BitstreamRestriction : Walk Unit := do
  let bitstream_restriction ← readBits 1
  onlyIf (bitstream_restriction = 1) do
    let _ ← readBits 1
    let _ ← readUe
    let _ ← readUe
    let _ ← readUe
    let _ ← readUe
    let _ ← readUe
    let _ ← readUe
    pure ()

/-- The restriction both VUI branches emit. -/
def writeH264BitstreamRestriction : Walk Unit := do
  writeBits 1 1
  writeBits 1 1
  writeUe 0
  writeUe 0
  writeUe 16
  writeUe 16
  writeUe 0
  writeUe 1

def copyH264VuiWithPatchedBitstreamRestriction : Walk Unit := do
  let _ ← flagged copyAspectRatio
  let _ ← flagged (passBits 1)
  skipVideoSignalType
  writeFullRangeBt709VideoSignalType
  let _ ← flagged copyChromaLoc
  let _ ← flagged do
    let _ ← copyBits 32
    let _ ← copyBits 32
    let _ ← copyBits 1
    pure ()
  let nal_hrd ← flagged copyH264HrdParameters
  let vcl_hrd ← flagged copyH264HrdParameters
  onlyIf (nal_hrd = 1 ∨ vcl_hrd = 1) (passBits 1)
  let _ ← copyBits 1
  skipH264BitstreamRestriction
  writeH264BitstreamRestriction
  pure ()

def emitMinimalH264Vui : Walk Unit := do
  writeBits 0 1
  writeBits 0 1
  writeFullRangeBt709VideoSignalType
  writeBits 0 1
  writeBits 0 1
  writeBits 0 1
  writeBits 0 1
  writeBits 0 1
  writeH264BitstreamRestriction

/-- `patch_h264_sps_rbsp` up to its trailing bits. -/
def patchH264Sps : Walk Unit := do
  let profile_idc ← copyBits 8
  let _ ← copyBits 8
  let _ ← copyBits 8
  let _ ← copyUe
  onlyIf (isHighProfile profile_idc) copyH264Chroma
  let _ ← copyUe
  let pic_order_cnt_type ← copyUe
  onlyIf (pic_order_cnt_type = 0) passUe
  onlyIf (pic_order_cnt_type = 1) copyH264PocCycle
  let _ ← readUe
  writeUe 1
  let _ ← copyBits 1
  let _ ← copyUe
  let _ ← copyUe
  let frame_mbs_only ← copyBits 1
  onlyIf (frame_mbs_only = 0) (passBits 1)
  let _ ← copyBits 1
  let _ ← flagged (times 4 passUe)
  let vui_present ← readBits 1
  writeBits 1 1
  if vui_present = 1 then copyH264VuiWithPatchedBitstreamRestriction else emitMinimalH264Vui

end Walk

def patchH264SpsRbsp (rbsp : List UInt8) : Outcome (List UInt8) :=
  Walk.patchH264Sps.rewriteRbsp rbsp

/-! ### The walk against the syntax -/

theorem copies_h264Chroma : Copies Walk.copyH264Chroma Rbsp.h264Chroma := by
  refine .ue fun chroma_format_idc _ => ?_
  refine .copy (.onlyIf Iff.rfl fun _ => copies_bits (by decide)) fun separate_colour_plane => ?_
  refine .ue fun bit_depth_luma _ => ?_
  refine .ue fun bit_depth_chroma _ => ?_
  refine .bits (by decide) fun qpprime _ => ?_
  refine .bits (by decide) fun scaling_present _ => ?_
  exact .copy copies_refuseIf fun _ => .done rfl

theorem copies_h264PocCycle : Copies Walk.copyH264PocCycle Rbsp.h264PocCycle := by
  refine .bits (by decide) fun always_zero _ => ?_
  refine .se fun non_ref_pic => ?_
  refine .se fun top_to_bottom => ?_
  refine .ue fun n _ => ?_
  exact (Copies.times copies_se n).last fun _ => rfl

theorem copies_h264HrdParameters : Copies Walk.copyH264HrdParameters Rbsp.h264Hrd := by
  have hcpb : Copies (do
      let _ ← Walk.copyUe
      let _ ← Walk.copyUe
      let _ ← Walk.copyBits 1
      pure ()) Rbsp.h264Cpb :=
    .ue fun _ _ => .ue fun _ _ => .bits (by decide) fun _ _ => .done rfl
  refine .ue fun cpb_cnt_minus1 _ => ?_
  refine .bits (by decide) fun bit_rate_scale _ => ?_
  refine .bits (by decide) fun cpb_size_scale _ => ?_
  refine .copy (.times hcpb _) fun cpbs => ?_
  refine .bits (by decide) fun initial_cpb_removal_delay_length _ => ?_
  refine .bits (by decide) fun cpb_removal_delay_length _ => ?_
  refine .bits (by decide) fun dpb_output_delay_length _ => ?_
  exact .bits (by decide) fun time_offset_length _ => .done rfl

theorem reads_h264BitstreamRestriction : Reads Walk.skipH264BitstreamRestriction
    (Rbsp.flagged Rbsp.h264BitstreamRestriction) fun _ => () := by
  refine .bind (reads_bits (by decide)) fun flag _ => .onlyIf ?_
  refine .bind (reads_bits (by decide)) fun motion_vectors _ => ?_
  refine .bind reads_ue fun max_bytes _ => ?_
  refine .bind reads_ue fun max_bits _ => ?_
  refine .bind reads_ue fun mv_length_horizontal _ => ?_
  refine .bind reads_ue fun mv_length_vertical _ => ?_
  refine .bind reads_ue fun max_num_reorder_frames _ => ?_
  exact .bind reads_ue fun max_dec_frame_buffering _ => .done _

theorem writes_lowLatencyRestriction : Writes Walk.writeH264BitstreamRestriction
    (Rbsp.flagged Rbsp.h264BitstreamRestriction) (some lowLatencyRestriction) := by
  refine .bind (writes_bits (by decide) (by decide)) (.some rfl ?_)
  refine .bind (writes_bits (by decide) (by decide)) ?_
  refine .bind (writes_ue (by decide)) ?_
  refine .bind (writes_ue (by decide)) ?_
  refine .bind (writes_ue (by decide)) ?_
  refine .bind (writes_ue (by decide)) ?_
  refine .bind (writes_ue (by decide)) ?_
  exact .last _ (writes_ue (by decide))

theorem rewrites_h264Vui : Rewrites Walk.copyH264VuiWithPatchedBitstreamRestriction Rbsp.h264Vui
    Rbsp.h264Vui H264Vui.lowLatency fun _ => () := by
  have htiming : Copies (do
      let _ ← Walk.copyBits 32
      let _ ← Walk.copyBits 32
      let _ ← Walk.copyBits 1
      pure ()) Rbsp.h264Timing :=
    .bits (by decide) fun _ _ => .bits (by decide) fun _ _ => .bits (by decide) fun _ _ => .done rfl
  have hflag : ∀ b : Option H264Hrd, (if b.isSome then 1 else 0) = 1 ↔ b.isSome = true := by
    intro b
    cases b <;> simp
  refine .flagged copies_aspectRatio fun aspect_ratio => ?_
  refine .flagged (copies_bits (by decide)) fun overscan_appropriate => ?_
  refine .replace reads_videoSignalType writes_fullRangeBt709 fun video_signal_type => ?_
  refine .flagged copies_chromaLoc fun chroma_loc => ?_
  refine .flagged htiming fun timing => ?_
  refine .bind (rewrites_flagged copies_h264HrdParameters) fun nal_hrd _ => ?_
  refine .bind (rewrites_flagged copies_h264HrdParameters) fun vcl_hrd _ => ?_
  refine .copy (.onlyIf (or_congr (hflag nal_hrd) (hflag vcl_hrd)) fun _ =>
    copies_bits (by decide)) fun low_delay_hrd => ?_
  refine .bits (by decide) fun pic_struct_present _ => ?_
  exact .replace reads_h264BitstreamRestriction writes_lowLatencyRestriction fun _ => .done rfl

theorem writes_minimalH264Vui : Writes Walk.emitMinimalH264Vui Rbsp.h264Vui minimalH264Vui := by
  refine .absent (.absent ?_)
  refine .bind writes_fullRangeBt709 ?_
  refine .absent (.absent (.absent (.absent ?_)))
  refine .notGiven (by decide) ?_
  refine .bind (writes_bits (by decide) (by decide)) ?_
  exact .last _ writes_lowLatencyRestriction

/-- **The walk rewrites the syntax as `lowLatency` rewrites the record.** -/
theorem rewrites_h264Sps :
    Rewrites Walk.patchH264Sps Rbsp.h264Sps Rbsp.h264Sps H264Sps.lowLatency fun _ => () := by
  refine .bits (by decide) fun profile_idc _ => ?_
  refine .bits (by decide) fun constraint_flags _ => ?_
  refine .bits (by decide) fun level_idc _ => ?_
  refine .ue fun sps_id _ => ?_
  refine .copy (.onlyIf Iff.rfl fun _ => copies_h264Chroma) fun chroma => ?_
  refine .ue fun log2_max_frame_num _ => ?_
  refine .ue fun pic_order_cnt_type _ => ?_
  refine .copy (.onlyIf Iff.rfl fun _ => copies_ue) fun log2_max_pic_order_cnt_lsb => ?_
  refine .copy (.onlyIf Iff.rfl fun _ => copies_h264PocCycle) fun poc_cycle => ?_
  refine .replace reads_ue (writes_ue (by decide)) fun max_num_ref_frames => ?_
  refine .bits (by decide) fun gaps_in_frame_num _ => ?_
  refine .ue fun pic_width _ => ?_
  refine .ue fun pic_height _ => ?_
  refine .bits (by decide) fun frame_mbs_only _ => ?_
  refine .copy (.onlyIf Iff.rfl fun _ => copies_bits (by decide)) fun mb_adaptive => ?_
  refine .bits (by decide) fun direct_8x8_inference _ => ?_
  refine .flagged (.times copies_ue 4) fun frame_cropping => ?_
  exact (Rewrites.always rewrites_h264Vui writes_minimalH264Vui).last fun _ => rfl

/-- **The rewriter changes only what `lowLatency` changes.**  Input and output parse with one syntax,
the output's record is the input's with the overrides, and trailing bits end it. -/
theorem patchH264SpsRbsp_lowLatency {rbsp out : List UInt8} (h : patchH264SpsRbsp rbsp = .ok out) :
    ∃ sps s s', Rbsp.h264Sps.parse (bytesBits rbsp) = .ok (sps, s) ∧
      Rbsp.h264Sps.parse (bytesBits out) = .ok (sps.lowLatency, s') ∧ IsRbspTrailingBits s' := by
  obtain ⟨r, bs, s', hp, hout, htrailing⟩ := Walk.rewriteRbsp_eq_ok h
  obtain ⟨sps, ts, s, bs', hsps, hbs, -, -, hw⟩ := rewrites_h264Sps.of_run hp
  obtain rfl := BitWriter.push_new_injective hw
  exact ⟨sps, s, s', parse_of_run hsps, hout ▸ parse_of_spells hbs, htrailing⟩

omit [BuildProfile] in
/-- A baseline SPS with a counted picture order cycle and a VUI that allows reordering. -/
theorem patchH264SpsRbsp_lowLatency_baseline :
    ∃ sps s s', Rbsp.h264Sps.parse (bytesBits [66, 192, 31, 208, 169, 153, 148, 5, 0, 91, 176, 22,
        136, 0, 0, 31, 72, 0, 7, 83, 4, 120, 177, 108, 176]) = .ok (sps, s) ∧
      Rbsp.h264Sps.parse (bytesBits [66, 192, 31, 208, 169, 153, 160, 20, 1, 110, 192, 91, 128, 128,
        128, 160, 0, 0, 125, 32, 0, 29, 76, 17, 225, 16, 141, 64]) = .ok (sps.lowLatency, s') ∧
      IsRbspTrailingBits s' :=
  @patchH264SpsRbsp_lowLatency ⟨true⟩ _ _ (by decide +kernel)

end Penflow
