import Penflow.Encoder.Vui

/-!
# The HEVC SPS rewriter

`patchHevcSpsRbsp` first tries the full walk, which sets every decoded picture buffer triplet to zero
and the video signal to full-range BT.709, and falls back to a walk that stops after the triplets
and copies the remaining bits.

`Rbsp.hevcSps` reads the syntax of the full walk into a record, and `HevcSps.lowLatency` is the
rewrite on records.  The width of the long-term entries comes from a second walk over the same
input; `walkHevcSpsDpbLog2MaxPoc_eq` says that it finds the value the copying walk went past.
-/

namespace Penflow

open BitString BitSyntax SyntaxReader

/-! ### Syntax -/

structure HevcSubLayer where
  profile : Option (List ℕ)
  level_idc : Option ℕ
  deriving DecidableEq

structure HevcProfileTierLevel where
  /-- Profile space, tier flag and profile. -/
  general_profile : ℕ
  general_profile_compatibility_flags : ℕ
  /-- The constraint flags and the level, byte by byte. -/
  general_constraints_and_level : List ℕ
  /-- `sub_layer_profile_present_flag` and `sub_layer_level_present_flag` -/
  sub_layer_flags : List (ℕ × ℕ)
  reserved_zero_2bits : Option (List ℕ)
  sub_layers : List HevcSubLayer
  deriving DecidableEq

/-- The SPS up to `log2_max_pic_order_cnt_lsb_minus4`. -/
structure HevcSpsLead where
  sps_video_parameter_set_id : ℕ
  sps_max_sub_layers_minus1 : ℕ
  sps_temporal_id_nesting_flag : ℕ
  profile_tier_level : HevcProfileTierLevel
  sps_seq_parameter_set_id : ℕ
  chroma_format_idc : ℕ
  separate_colour_plane_flag : Option ℕ
  pic_width_in_luma_samples : ℕ
  pic_height_in_luma_samples : ℕ
  /-- The four conformance window offsets. -/
  conformance_window : Option (List ℕ)
  bit_depth_luma_minus8 : ℕ
  bit_depth_chroma_minus8 : ℕ
  log2_max_pic_order_cnt_lsb_minus4 : ℕ
  deriving DecidableEq

/-- The decoded picture buffer triplet of one sub-layer. -/
structure HevcDpb where
  sps_max_dec_pic_buffering_minus1 : ℕ
  sps_max_num_reorder_pics : ℕ
  sps_max_latency_increase_plus1 : ℕ
  deriving DecidableEq

/-- The SPS through its decoded picture buffer triplets. -/
structure HevcSpsHead where
  lead : HevcSpsLead
  sps_sub_layer_ordering_info_present_flag : ℕ
  dpb : List HevcDpb
  deriving DecidableEq

structure HevcPcm where
  pcm_sample_bit_depth_luma_minus1 : ℕ
  pcm_sample_bit_depth_chroma_minus1 : ℕ
  log2_min_pcm_luma_coding_block_size_minus3 : ℕ
  log2_diff_max_min_pcm_luma_coding_block_size : ℕ
  pcm_loop_filter_disabled_flag : ℕ
  deriving DecidableEq

/-- A short-term reference picture set, predicted from the one before it or coded on its own. -/
inductive HevcStRefPicSet where
  /-- The entries are `used_by_curr_pic_flag` and, where that is 0, `use_delta_flag`. -/
  | inter (delta_rps_sign abs_delta_rps_minus1 : ℕ) (entries : List (ℕ × Option ℕ))
  /-- The entries are `delta_poc_minus1` and `used_by_curr_pic_flag`. -/
  | explicit (num_negative_pics num_positive_pics : ℕ) (negative positive : List (ℕ × ℕ))
  deriving DecidableEq

/-- The entries are `lt_ref_pic_poc_lsb_sps` and `used_by_curr_pic_lt_sps_flag`. -/
structure HevcLongTerm where
  num_long_term_ref_pics_sps : ℕ
  entries : List (ℕ × ℕ)
  deriving DecidableEq

structure HevcTiming where
  vui_num_units_in_tick : ℕ
  vui_time_scale : ℕ
  vui_num_ticks_poc_diff_one_minus1 : Option ℕ
  deriving DecidableEq

structure HevcBitstreamRestriction where
  tiles_fixed_structure_flag : ℕ
  motion_vectors_over_pic_boundaries_flag : ℕ
  restricted_ref_pic_lists_flag : ℕ
  min_spatial_segmentation_idc : ℕ
  max_bytes_per_pic_denom : ℕ
  max_bits_per_min_cu_denom : ℕ
  log2_max_mv_length_horizontal : ℕ
  log2_max_mv_length_vertical : ℕ
  deriving DecidableEq

structure HevcVui where
  aspect_ratio : Option AspectRatio
  overscan_appropriate_flag : Option ℕ
  video_signal_type : Option VideoSignalType
  chroma_loc : Option (ℕ × ℕ)
  neutral_chroma_indication_flag : ℕ
  field_seq_flag : ℕ
  frame_field_info_present_flag : ℕ
  /-- The four default display window offsets. -/
  default_display_window : Option (List ℕ)
  timing : Option HevcTiming
  bitstream_restriction : Option HevcBitstreamRestriction
  deriving DecidableEq

structure HevcSps where
  head : HevcSpsHead
  log2_min_luma_coding_block_size_minus3 : ℕ
  log2_diff_max_min_luma_coding_block_size : ℕ
  log2_min_luma_transform_block_size_minus2 : ℕ
  log2_diff_max_min_luma_transform_block_size : ℕ
  max_transform_hierarchy_depth_inter : ℕ
  max_transform_hierarchy_depth_intra : ℕ
  scaling_list_enabled_flag : ℕ
  amp_enabled_flag : ℕ
  sample_adaptive_offset_enabled_flag : ℕ
  pcm : Option HevcPcm
  num_short_term_ref_pic_sets : ℕ
  st_ref_pic_sets : List HevcStRefPicSet
  long_term : Option HevcLongTerm
  sps_temporal_mvp_enabled_flag : ℕ
  strong_intra_smoothing_enabled_flag : ℕ
  vui : Option HevcVui
  deriving DecidableEq

namespace Rbsp

def hevcSubLayerFlags : Rbsp (ℕ × ℕ) := do
  let profile_present ← u 1
  let level_present ← u 1
  pure (profile_present, level_present)

/-- The profiles and levels behind the flags of each sub-layer. -/
def hevcSubLayers : List (ℕ × ℕ) → Rbsp (List HevcSubLayer)
  | [] => pure []
  | flags :: rest => do
    let profile ← given (flags.1 = 1) (times 11 (u 8))
    let level_idc ← given (flags.2 = 1) (u 8)
    let sub_layers ← hevcSubLayers rest
    pure ({ profile, level_idc } :: sub_layers)

def hevcProfileTierLevel (max_num_sub_layers_minus1 : ℕ) : Rbsp HevcProfileTierLevel := do
  let general_profile ← u 8
  let general_profile_compatibility_flags ← u 32
  let general_constraints_and_level ← times 7 (u 8)
  let sub_layer_flags ← times max_num_sub_layers_minus1 hevcSubLayerFlags
  let reserved_zero_2bits ← given (max_num_sub_layers_minus1 > 0)
    (times (8 - max_num_sub_layers_minus1) (u 2))
  let sub_layers ← hevcSubLayers sub_layer_flags
  pure {
    general_profile, general_profile_compatibility_flags, general_constraints_and_level,
    sub_layer_flags, reserved_zero_2bits, sub_layers }

def hevcSpsLead : Rbsp HevcSpsLead := do
  let sps_video_parameter_set_id ← u 4
  let sps_max_sub_layers_minus1 ← u 3
  let sps_temporal_id_nesting_flag ← u 1
  let profile_tier_level ← hevcProfileTierLevel sps_max_sub_layers_minus1
  let sps_seq_parameter_set_id ← ue
  let chroma_format_idc ← ue
  let separate_colour_plane_flag ← given (chroma_format_idc = 3) (u 1)
  let pic_width_in_luma_samples ← ue
  let pic_height_in_luma_samples ← ue
  let conformance_window ← flagged (times 4 ue)
  let bit_depth_luma_minus8 ← ue
  let bit_depth_chroma_minus8 ← ue
  let log2_max_pic_order_cnt_lsb_minus4 ← ue
  pure {
    sps_video_parameter_set_id, sps_max_sub_layers_minus1, sps_temporal_id_nesting_flag,
    profile_tier_level, sps_seq_parameter_set_id, chroma_format_idc, separate_colour_plane_flag,
    pic_width_in_luma_samples, pic_height_in_luma_samples, conformance_window,
    bit_depth_luma_minus8, bit_depth_chroma_minus8, log2_max_pic_order_cnt_lsb_minus4 }

def hevcDpb : Rbsp HevcDpb := do
  let sps_max_dec_pic_buffering_minus1 ← ue
  let sps_max_num_reorder_pics ← ue
  let sps_max_latency_increase_plus1 ← ue
  pure { sps_max_dec_pic_buffering_minus1, sps_max_num_reorder_pics, sps_max_latency_increase_plus1 }

/-- One triplet for each sub-layer, or one for all. -/
def hevcSpsHead : Rbsp HevcSpsHead := do
  let lead ← hevcSpsLead
  let sps_sub_layer_ordering_info_present_flag ← u 1
  let i_start :=
    if sps_sub_layer_ordering_info_present_flag = 1 then 0 else lead.sps_max_sub_layers_minus1
  let dpb ← times (lead.sps_max_sub_layers_minus1 + 1 - i_start) hevcDpb
  pure { lead, sps_sub_layer_ordering_info_present_flag, dpb }

def hevcPcm : Rbsp HevcPcm := do
  let pcm_sample_bit_depth_luma_minus1 ← u 4
  let pcm_sample_bit_depth_chroma_minus1 ← u 4
  let log2_min_pcm_luma_coding_block_size_minus3 ← ue
  let log2_diff_max_min_pcm_luma_coding_block_size ← ue
  let pcm_loop_filter_disabled_flag ← u 1
  pure {
    pcm_sample_bit_depth_luma_minus1, pcm_sample_bit_depth_chroma_minus1,
    log2_min_pcm_luma_coding_block_size_minus3, log2_diff_max_min_pcm_luma_coding_block_size,
    pcm_loop_filter_disabled_flag }

section RefPicSets

variable [BuildProfile]

/-- One entry of a predicted set, and the number of delta POCs counted so far. -/
def hevcInterEntry (num_delta_pocs : ℕ) : Rbsp ((ℕ × Option ℕ) × ℕ) := do
  let used_by_curr_pic_flag ← u 1
  if used_by_curr_pic_flag = 0 then
    let use_delta_flag ← u 1
    if use_delta_flag = 1 then
      let n ← compute (addU32 num_delta_pocs 1)
      pure ((used_by_curr_pic_flag, some use_delta_flag), n)
    else
      pure ((used_by_curr_pic_flag, some use_delta_flag), num_delta_pocs)
  else
    let n ← compute (addU32 num_delta_pocs 1)
    pure ((used_by_curr_pic_flag, none), n)

def hevcInterEntries : ℕ → ℕ → Rbsp (List (ℕ × Option ℕ) × ℕ)
  | 0, num_delta_pocs => pure ([], num_delta_pocs)
  | k + 1, num_delta_pocs => do
    let x ← hevcInterEntry num_delta_pocs
    let y ← hevcInterEntries k x.2
    pure (x.1 :: y.1, y.2)

def hevcExplicitEntry : Rbsp (ℕ × ℕ) := do
  let delta_poc_minus1 ← ue
  let used_by_curr_pic_flag ← u 1
  pure (delta_poc_minus1, used_by_curr_pic_flag)

/-- `st_ref_pic_set(st_rps_idx)` with its number of delta POCs, given those of the sets before. -/
def hevcStRefPicSet (st_rps_idx : ℕ) (num_delta_pocs : List ℕ) : Rbsp (HevcStRefPicSet × ℕ) := do
  let inter_ref_pic_set_prediction_flag ← (if st_rps_idx ≠ 0 then u 1 else pure 0)
  if inter_ref_pic_set_prediction_flag = 1 then
    let delta_rps_sign ← u 1
    let abs_delta_rps_minus1 ← ue
    let n_dp ← compute (okOr num_delta_pocs[st_rps_idx - 1]?)
    let x ← hevcInterEntries (n_dp + 1) 0
    pure (.inter delta_rps_sign abs_delta_rps_minus1 x.1, x.2)
  else
    let num_negative_pics ← ue
    let num_positive_pics ← ue
    let negative ← times num_negative_pics hevcExplicitEntry
    let positive ← times num_positive_pics hevcExplicitEntry
    let n ← compute (addU32 num_negative_pics num_positive_pics)
    pure (.explicit num_negative_pics num_positive_pics negative positive, n)

/-- `k` reference picture sets from `st_rps_idx` on. -/
def hevcStRefPicSets : ℕ → ℕ → List ℕ → Rbsp (List HevcStRefPicSet)
  | 0, _, _ => pure []
  | k + 1, st_rps_idx, num_delta_pocs => do
    let x ← hevcStRefPicSet st_rps_idx num_delta_pocs
    let sets ← hevcStRefPicSets k (st_rps_idx + 1) (num_delta_pocs ++ [x.2])
    pure (x.1 :: sets)

end RefPicSets

def hevcLongTerm (log2_max_poc : ℕ) : Rbsp HevcLongTerm := do
  let num_long_term_ref_pics_sps ← ue
  let entries ← times num_long_term_ref_pics_sps do
    let lt_ref_pic_poc_lsb_sps ← u (log2_max_poc + 4)
    let used_by_curr_pic_lt_sps_flag ← u 1
    pure (lt_ref_pic_poc_lsb_sps, used_by_curr_pic_lt_sps_flag)
  pure { num_long_term_ref_pics_sps, entries }

def hevcTiming : Rbsp HevcTiming := do
  let vui_num_units_in_tick ← u 32
  let vui_time_scale ← u 32
  let vui_num_ticks_poc_diff_one_minus1 ← flagged ue
  -- HRD parameters are not parsed
  zeroFlag
  pure { vui_num_units_in_tick, vui_time_scale, vui_num_ticks_poc_diff_one_minus1 }

def hevcBitstreamRestriction : Rbsp HevcBitstreamRestriction := do
  let tiles_fixed_structure_flag ← u 1
  let motion_vectors_over_pic_boundaries_flag ← u 1
  let restricted_ref_pic_lists_flag ← u 1
  let min_spatial_segmentation_idc ← ue
  let max_bytes_per_pic_denom ← ue
  let max_bits_per_min_cu_denom ← ue
  let log2_max_mv_length_horizontal ← ue
  let log2_max_mv_length_vertical ← ue
  pure {
    tiles_fixed_structure_flag, motion_vectors_over_pic_boundaries_flag,
    restricted_ref_pic_lists_flag, min_spatial_segmentation_idc, max_bytes_per_pic_denom,
    max_bits_per_min_cu_denom, log2_max_mv_length_horizontal, log2_max_mv_length_vertical }

def hevcVui : Rbsp HevcVui := do
  let aspect_ratio ← flagged aspectRatio
  let overscan_appropriate_flag ← flagged (u 1)
  let video_signal_type ← flagged videoSignalType
  let chroma_loc ← flagged chromaLoc
  let neutral_chroma_indication_flag ← u 1
  let field_seq_flag ← u 1
  let frame_field_info_present_flag ← u 1
  let default_display_window ← flagged (times 4 ue)
  let timing ← flagged hevcTiming
  let bitstream_restriction ← flagged hevcBitstreamRestriction
  pure {
    aspect_ratio, overscan_appropriate_flag, video_signal_type, chroma_loc,
    neutral_chroma_indication_flag, field_seq_flag, frame_field_info_present_flag,
    default_display_window, timing, bitstream_restriction }

/-- The SPS after its head, up to its trailing bits. -/
def hevcSpsTail [BuildProfile] (head : HevcSpsHead) : Rbsp HevcSps := do
  let log2_min_luma_coding_block_size_minus3 ← ue
  let log2_diff_max_min_luma_coding_block_size ← ue
  let log2_min_luma_transform_block_size_minus2 ← ue
  let log2_diff_max_min_luma_transform_block_size ← ue
  let max_transform_hierarchy_depth_inter ← ue
  let max_transform_hierarchy_depth_intra ← ue
  let scaling_list_enabled_flag ← u 1
  -- scaling lists are not parsed
  let _ ← given (scaling_list_enabled_flag = 1) do
    let sps_scaling_list_data_present_flag ← u 1
    refuseIf (sps_scaling_list_data_present_flag = 1)
  let amp_enabled_flag ← u 1
  let sample_adaptive_offset_enabled_flag ← u 1
  let pcm ← flagged hevcPcm
  let num_short_term_ref_pic_sets ← ue
  let st_ref_pic_sets ← hevcStRefPicSets num_short_term_ref_pic_sets 0 []
  let long_term ← flagged (hevcLongTerm head.lead.log2_max_pic_order_cnt_lsb_minus4)
  let sps_temporal_mvp_enabled_flag ← u 1
  let strong_intra_smoothing_enabled_flag ← u 1
  let vui ← flagged hevcVui
  -- extensions are not parsed
  zeroFlag
  pure {
    head, log2_min_luma_coding_block_size_minus3, log2_diff_max_min_luma_coding_block_size,
    log2_min_luma_transform_block_size_minus2, log2_diff_max_min_luma_transform_block_size,
    max_transform_hierarchy_depth_inter, max_transform_hierarchy_depth_intra,
    scaling_list_enabled_flag, amp_enabled_flag, sample_adaptive_offset_enabled_flag, pcm,
    num_short_term_ref_pic_sets, st_ref_pic_sets, long_term, sps_temporal_mvp_enabled_flag,
    strong_intra_smoothing_enabled_flag, vui }

def hevcSps [BuildProfile] : Rbsp HevcSps := do
  let head ← hevcSpsHead
  hevcSpsTail head

end Rbsp

/-! ### What the rewriter is for -/

/-- The VUI of an SPS that came without one. -/
def minimalHevcVui : HevcVui where
  aspect_ratio := none
  overscan_appropriate_flag := none
  video_signal_type := some fullRangeBt709
  chroma_loc := none
  neutral_chroma_indication_flag := 0
  field_seq_flag := 0
  frame_field_info_present_flag := 0
  default_display_window := none
  timing := none
  bitstream_restriction := none

def HevcVui.fullRange (vui : HevcVui) : HevcVui :=
  { vui with video_signal_type := some fullRangeBt709 }

/-- Every triplet becomes zero: one picture, no reordering, no latency. -/
def HevcSpsHead.lowLatency (head : HevcSpsHead) : HevcSpsHead :=
  { head with dpb := head.dpb.map fun _ => ⟨0, 0, 0⟩ }

/-- **The rewrite on records.** -/
def HevcSps.lowLatency (sps : HevcSps) : HevcSps :=
  { sps with
    head := sps.head.lowLatency
    vui := some (sps.vui.elim minimalHevcVui HevcVui.fullRange) }

/-! ### The walks -/

variable [BuildProfile]

namespace Walk

/-- One turn of the flag loop of `copy_hevc_profile_tier_level`, with the bounds check of its
arrays. -/
def copyHevcSubLayerFlag (i : ℕ) : Walk (ℕ × ℕ) := do
  let pp ← copyBits 1
  let lp ← copyBits 1
  ofOutcome (boundsCheck i 7)
  pure (pp, lp)

/-- The flag loop with `n` turns to go. -/
def copyHevcSubLayerFlags : ℕ → ℕ → Walk (List (ℕ × ℕ))
  | 0, _ => pure []
  | n + 1, i => do
    let flags ← copyHevcSubLayerFlag i
    let rest ← copyHevcSubLayerFlags n (i + 1)
    pure (flags :: rest)

/-- The last loop of `copy_hevc_profile_tier_level`, over the flags the first one collected. -/
def copyHevcSubLayers : List (ℕ × ℕ) → Walk Unit
  | [] => pure ()
  | flags :: rest => do
    onlyIf (flags.1 = 1) (times 11 (passBits 8))
    onlyIf (flags.2 = 1) (passBits 8)
    copyHevcSubLayers rest

def copyHevcProfileTierLevel (max_num_sub_layers_minus1 : ℕ) : Walk Unit := do
  let _ ← copyBits 8
  let _ ← copyBits 32
  times 7 (passBits 8)
  let flags ← copyHevcSubLayerFlags max_num_sub_layers_minus1 0
  onlyIf (max_num_sub_layers_minus1 > 0) (times (8 - max_num_sub_layers_minus1) (passBits 2))
  copyHevcSubLayers flags

/-- `walk_hevc_sps_through_dpb` up to `log2_max_pic_order_cnt_lsb_minus4`. -/
def copyHevcSpsLead : Walk ℕ := do
  let _ ← copyBits 4
  let sps_max_sub_layers_minus1 ← copyBits 3
  let _ ← copyBits 1
  copyHevcProfileTierLevel sps_max_sub_layers_minus1
  let _ ← copyUe
  let chroma_format_idc ← copyUe
  onlyIf (chroma_format_idc = 3) (passBits 1)
  let _ ← copyUe
  let _ ← copyUe
  let _ ← flagged (times 4 passUe)
  let _ ← copyUe
  let _ ← copyUe
  let _ ← copyUe
  pure sps_max_sub_layers_minus1

/-- One decoded picture buffer triplet, set to zero. -/
def clearHevcDpb : Walk Unit := do
  let _ ← readUe
  writeUe 0
  let _ ← readUe
  writeUe 0
  let _ ← readUe
  writeUe 0
  pure ()

def walkHevcSpsThroughDpb : Walk Unit := do
  let sps_max_sub_layers_minus1 ← copyHevcSpsLead
  let sub_layer_info_present ← copyBits 1
  let i_start := if sub_layer_info_present = 1 then 0 else sps_max_sub_layers_minus1
  times (sps_max_sub_layers_minus1 + 1 - i_start) clearHevcDpb

/-- The conformance window, read only. -/
def skipHevcConformanceWindow : Walk Unit := do
  let conformance_window ← readBits 1
  onlyIf (conformance_window = 1) do
    times 4 do
      let _ ← readUe
      pure ()

/-- The body of `walk_hevc_sps_dpb_log2_max_poc`; its writer is the throwaway one. -/
def findHevcLog2MaxPoc : Walk ℕ := do
  let _ ← readBits 4
  let sps_max_sub_layers_minus1 ← readBits 3
  let _ ← readBits 1
  copyHevcProfileTierLevel sps_max_sub_layers_minus1
  let _ ← readUe
  let chroma_format_idc ← readUe
  onlyIf (chroma_format_idc = 3) do
    let _ ← readBits 1
    pure ()
  let _ ← readUe
  let _ ← readUe
  skipHevcConformanceWindow
  let _ ← readUe
  let _ ← readUe
  readUe

/-- One turn of the loop of `copy_hevc_st_ref_pic_set` over a predicted set. -/
def copyHevcInterEntry (new_num_delta_pocs : ℕ) : Walk ℕ := do
  let used_by_curr_pic_flag ← copyBits 1
  if used_by_curr_pic_flag = 0 then
    let use_delta_flag ← copyBits 1
    if use_delta_flag = 1 then
      ofOutcome (addU32 new_num_delta_pocs 1)
    else
      pure new_num_delta_pocs
  else
    ofOutcome (addU32 new_num_delta_pocs 1)

/-- The loop over a predicted set, with `k` turns to go. -/
def copyHevcInterEntries : ℕ → ℕ → Walk ℕ
  | 0, new_num_delta_pocs => pure new_num_delta_pocs
  | k + 1, new_num_delta_pocs => do
    let n ← copyHevcInterEntry new_num_delta_pocs
    copyHevcInterEntries k n

/-- A `delta_poc_minus1` with its `used_by_curr_pic_flag`. -/
def copyHevcExplicitEntry : Walk Unit := do
  let _ ← copyUe
  let _ ← copyBits 1
  pure ()

def copyHevcStRefPicSet (st_rps_idx : ℕ) (num_delta_pocs : List ℕ) : Walk ℕ := do
  let inter_ref_pic_set_prediction_flag ← (if st_rps_idx ≠ 0 then copyBits 1 else pure 0)
  if inter_ref_pic_set_prediction_flag = 1 then
    let _ ← copyBits 1
    let _ ← copyUe
    let r_idx ← ofOutcome (okOr (if 1 ≤ st_rps_idx then some (st_rps_idx - 1) else none))
    let n_dp ← ofOutcome (okOr num_delta_pocs[r_idx]?)
    copyHevcInterEntries (n_dp + 1) 0
  else
    let num_neg ← copyUe
    let num_pos ← copyUe
    times num_neg copyHevcExplicitEntry
    times num_pos copyHevcExplicitEntry
    ofOutcome (addU32 num_neg num_pos)

/-- The loop of `patch_hevc_sps_full` over the sets, with `k` turns to go. -/
def copyHevcStRefPicSets : ℕ → ℕ → List ℕ → Walk Unit
  | 0, _, _ => pure ()
  | k + 1, st_rps_idx, num_delta_pocs => do
    let n ← copyHevcStRefPicSet st_rps_idx num_delta_pocs
    copyHevcStRefPicSets k (st_rps_idx + 1) (num_delta_pocs ++ [n])

def copyHevcVuiWithFullRangeBt709 : Walk Unit := do
  let _ ← flagged copyAspectRatio
  let _ ← flagged (passBits 1)
  skipVideoSignalType
  writeFullRangeBt709VideoSignalType
  let _ ← flagged copyChromaLoc
  let _ ← copyBits 1
  let _ ← copyBits 1
  let _ ← copyBits 1
  let _ ← flagged (times 4 passUe)
  let _ ← flagged do
    let _ ← copyBits 32
    let _ ← copyBits 32
    let _ ← flagged passUe
    copyZeroFlag
  let _ ← flagged do
    let _ ← copyBits 1
    let _ ← copyBits 1
    let _ ← copyBits 1
    let _ ← copyUe
    let _ ← copyUe
    let _ ← copyUe
    let _ ← copyUe
    let _ ← copyUe
    pure ()
  pure ()

def emitMinimalHevcVui : Walk Unit := do
  writeBits 0 1
  writeBits 0 1
  writeFullRangeBt709VideoSignalType
  writeBits 0 1
  writeBits 0 1
  writeBits 0 1
  writeBits 0 1
  writeBits 0 1
  writeBits 0 1
  writeBits 0 1

/-- The pulse code modulation fields. -/
def copyHevcPcm : Walk Unit := do
  let _ ← copyBits 4
  let _ ← copyBits 4
  let _ ← copyUe
  let _ ← copyUe
  let _ ← copyBits 1
  pure ()

/-- The long-term picture table. -/
def copyHevcLongTerm (log2_max_poc : ℕ) : Walk Unit := do
  let num_long_term ← copyUe
  let lt_lsb_bits ← ofOutcome (addU32 log2_max_poc 4)
  times num_long_term do
    let _ ← copyBits lt_lsb_bits
    let _ ← copyBits 1
    pure ()

/-- `vui_parameters_present_flag`, always 1 in the output, and a VUI behind it. -/
def patchHevcVui : Walk Unit := do
  let vui_present ← readBits 1
  writeBits 1 1
  if vui_present = 1 then copyHevcVuiWithFullRangeBt709 else emitMinimalHevcVui

/-- `patch_hevc_sps_full` after its two walks over the head, up to the trailing bits. -/
def patchHevcSpsTail (log2_max_poc : ℕ) : Walk Unit := do
  let _ ← copyUe
  let _ ← copyUe
  let _ ← copyUe
  let _ ← copyUe
  let _ ← copyUe
  let _ ← copyUe
  let scaling_list_enabled ← copyBits 1
  onlyIf (scaling_list_enabled = 1) do
    let sps_scaling_list_data_present ← copyBits 1
    refuseIf (sps_scaling_list_data_present = 1)
  let _ ← copyBits 1
  let _ ← copyBits 1
  let _ ← flagged copyHevcPcm
  let num_short_term_ref_pic_sets ← copyUe
  let num_delta_pocs ← ofOutcome (withCapacityU32 num_short_term_ref_pic_sets)
  copyHevcStRefPicSets num_short_term_ref_pic_sets 0 num_delta_pocs
  let _ ← flagged (copyHevcLongTerm log2_max_poc)
  let _ ← copyBits 1
  let _ ← copyBits 1
  patchHevcVui
  copyZeroFlag

end Walk

def walkHevcSpsDpbLog2MaxPoc (rbsp : List UInt8) : Outcome ℕ := do
  let (log2_max_poc, _, _) ← Walk.findHevcLog2MaxPoc.run (.new rbsp) .new
  pure log2_max_poc

def patchHevcSpsFull (rbsp : List UInt8) : Outcome (List UInt8) :=
  Walk.rewriteRbsp (do
    Walk.walkHevcSpsThroughDpb
    let log2_max_poc ← Walk.ofOutcome (walkHevcSpsDpbLog2MaxPoc rbsp)
    Walk.patchHevcSpsTail log2_max_poc) rbsp

/-! ### The walks against the syntax -/

theorem copies_hevcSubLayerFlag {i : ℕ} (hi : i < 7) :
    Rewrites (Walk.copyHevcSubLayerFlag i) Rbsp.hevcSubLayerFlags Rbsp.hevcSubLayerFlags id id := by
  refine .bits (by decide) fun pp _ => ?_
  refine .bits (by decide) fun lp _ => ?_
  exact Walks.compute (if_pos hi) (Rewrites.ret rfl rfl)

theorem copies_hevcSubLayerFlags (n i : ℕ) (h : i + n ≤ 7) :
    Rewrites (Walk.copyHevcSubLayerFlags n i) (times n Rbsp.hevcSubLayerFlags)
      (times n Rbsp.hevcSubLayerFlags) id id := by
  induction n generalizing i with
  | zero => exact .ret rfl rfl
  | succ n ih =>
      refine .value (copies_hevcSubLayerFlag (by omega)) fun flags _ => ?_
      refine .value (ih (i + 1) (by omega)) fun rest _ => ?_
      exact .ret rfl rfl

theorem copies_hevcSubLayers (flags : List (ℕ × ℕ)) :
    Copies (Walk.copyHevcSubLayers flags) (Rbsp.hevcSubLayers flags) := by
  induction flags with
  | nil => exact .done rfl
  | cons flags rest ih =>
      refine .copy (.onlyIf Iff.rfl fun _ => .times (copies_bits (by decide)) 11) fun profile => ?_
      refine .copy (.onlyIf Iff.rfl fun _ => copies_bits (by decide)) fun level_idc => ?_
      exact ih.last fun _ => rfl

theorem copies_hevcProfileTierLevel {n : ℕ} (hn : n ≤ 7) :
    Copies (Walk.copyHevcProfileTierLevel n) (Rbsp.hevcProfileTierLevel n) := by
  refine .bits (by decide) fun general_profile _ => ?_
  refine .bits (by decide) fun compatibility_flags _ => ?_
  refine .copy (.times (copies_bits (by decide)) 7) fun constraints => ?_
  refine .value (copies_hevcSubLayerFlags n 0 (by omega)) fun flags _ => ?_
  refine .copy (.onlyIf Iff.rfl fun _ => .times (copies_bits (by decide)) _) fun reserved => ?_
  exact (copies_hevcSubLayers flags).last fun _ => rfl

theorem rewrites_hevcSpsLead : Rewrites Walk.copyHevcSpsLead Rbsp.hevcSpsLead Rbsp.hevcSpsLead id
    HevcSpsLead.sps_max_sub_layers_minus1 := by
  refine .bits (by decide) fun vps_id _ => ?_
  refine .bits (by decide) fun max_sub_layers hlt => ?_
  refine .bits (by decide) fun temporal_id_nesting _ => ?_
  refine .copy (copies_hevcProfileTierLevel (by omega)) fun profile_tier_level => ?_
  refine .ue fun sps_id _ => ?_
  refine .ue fun chroma_format_idc _ => ?_
  refine .copy (.onlyIf Iff.rfl fun _ => copies_bits (by decide)) fun separate_colour_plane => ?_
  refine .ue fun pic_width _ => ?_
  refine .ue fun pic_height _ => ?_
  refine .flagged (.times copies_ue 4) fun conformance_window => ?_
  refine .ue fun bit_depth_luma _ => ?_
  refine .ue fun bit_depth_chroma _ => ?_
  exact .ue fun log2_max_poc _ => .ret rfl rfl

theorem rewrites_hevcDpb :
    Rewrites Walk.clearHevcDpb Rbsp.hevcDpb Rbsp.hevcDpb (fun _ => ⟨0, 0, 0⟩) fun _ => () := by
  refine .replace reads_ue (writes_ue (by decide)) fun max_dec_pic_buffering => ?_
  refine .replace reads_ue (writes_ue (by decide)) fun max_num_reorder => ?_
  exact .replace reads_ue (writes_ue (by decide)) fun max_latency_increase => .done rfl

theorem rewrites_hevcSpsHead : Rewrites Walk.walkHevcSpsThroughDpb Rbsp.hevcSpsHead
    Rbsp.hevcSpsHead HevcSpsHead.lowLatency fun _ => () := by
  refine .bind rewrites_hevcSpsLead fun lead _ => ?_
  refine .bits (by decide) fun sub_layer_info_present _ => ?_
  exact (Rewrites.times rewrites_hevcDpb _).last fun _ => rfl

theorem follows_hevcSpsLead : Follows Walk.findHevcLog2MaxPoc Rbsp.hevcSpsLead
    HevcSpsLead.log2_max_pic_order_cnt_lsb_minus4 := by
  have hwindow : Reads Walk.skipHevcConformanceWindow (Rbsp.flagged (times 4 Rbsp.ue))
      fun _ => () :=
    .bind (reads_bits (by decide)) fun _ _ => .onlyIf (.times (reads_ue.returning fun _ _ => rfl) 4)
  refine .bind (reads_bits (by decide)) fun vps_id _ => ?_
  refine .bind (reads_bits (by decide)) fun max_sub_layers hlt => ?_
  have hle : max_sub_layers ≤ 7 := by
    have := u_yields hlt
    omega
  refine .bind (reads_bits (by decide)) fun temporal_id_nesting _ => ?_
  refine .bind (copies_hevcProfileTierLevel hle) fun profile_tier_level _ => ?_
  refine .bind reads_ue fun sps_id _ => ?_
  refine .bind reads_ue fun chroma_format_idc _ => ?_
  refine .bind (Reads.onlyIf ((reads_bits (by decide)).returning fun _ _ => rfl))
    fun separate_colour_plane _ => ?_
  refine .bind reads_ue fun pic_width _ => ?_
  refine .bind reads_ue fun pic_height _ => ?_
  refine .bind hwindow fun conformance_window _ => ?_
  refine .bind reads_ue fun bit_depth_luma _ => ?_
  refine .bind reads_ue fun bit_depth_chroma _ => ?_
  exact Walks.last reads_ue (fun _ => rfl) fun _ _ _ => trivial

/-- **The second walk agrees with the copying one.** -/
theorem walkHevcSpsDpbLog2MaxPoc_eq {rbsp : List UInt8} {lead : HevcSpsLead} {ts : List Token}
    {s : List Bool} (h : Rbsp.hevcSpsLead.run (bytesBits rbsp) = .ok (lead, ts, s)) :
    walkHevcSpsDpbLog2MaxPoc rbsp = .ok lead.log2_max_pic_order_cnt_lsb_minus4 := by
  have hrun := follows_hevcSpsLead (.new rbsp) .new
  rw [BitReader.rest_new, h] at hrun
  obtain ⟨bs, -, hp⟩ := hrun
  rw [walkHevcSpsDpbLog2MaxPoc, hp]
  rfl

theorem copies_hevcInterEntry (n : ℕ) : Rewrites (Walk.copyHevcInterEntry n)
    (Rbsp.hevcInterEntry n) (Rbsp.hevcInterEntry n) id Prod.snd := by
  refine .bits (by decide) fun used_by_curr_pic_flag _ => ?_
  by_cases hused : used_by_curr_pic_flag = 0
  · simp only [if_pos hused]
    refine .bits (by decide) fun use_delta_flag _ => ?_
    by_cases huse : use_delta_flag = 1
    · simp only [if_pos huse]
      exact Rewrites.computed fun _ => rfl
    · simp only [if_neg huse]
      exact .ret rfl rfl
  · simp only [if_neg hused]
    exact Rewrites.computed fun _ => rfl

theorem copies_hevcInterEntries (k n : ℕ) : Rewrites (Walk.copyHevcInterEntries k n)
    (Rbsp.hevcInterEntries k n) (Rbsp.hevcInterEntries k n) id Prod.snd := by
  induction k generalizing n with
  | zero => exact .ret rfl rfl
  | succ k ih =>
      refine .bind (copies_hevcInterEntry n) fun x _ => ?_
      exact Walks.last (ih x.2) (fun _ => rfl) fun _ _ hbs => hbs.map _

theorem copies_hevcExplicitEntry : Copies Walk.copyHevcExplicitEntry Rbsp.hevcExplicitEntry :=
  .ue fun _ _ => .bits (by decide) fun _ _ => .done rfl

theorem copies_hevcStRefPicSet (i : ℕ) (ns : List ℕ) : Rewrites (Walk.copyHevcStRefPicSet i ns)
    (Rbsp.hevcStRefPicSet i ns) (Rbsp.hevcStRefPicSet i ns) id Prod.snd := by
  have hflag : Rewrites (if i ≠ 0 then Walk.copyBits 1 else pure 0)
      (if i ≠ 0 then Rbsp.u 1 else pure 0) (if i ≠ 0 then Rbsp.u 1 else pure 0) id id := by
    by_cases hi : i ≠ 0
    · simp only [if_pos hi]
      exact rewrites_bits (by decide)
    · simp only [if_neg hi]
      exact .ret rfl rfl
  refine .value hflag fun flag hyields => ?_
  by_cases hone : flag = 1
  · have hi : i ≠ 0 := by
      intro hi
      rw [if_neg (not_not.2 hi)] at hyields
      obtain ⟨s, ts, s', hrun⟩ := hyields
      cases hrun
      exact Nat.zero_ne_one hone
    have hidx : okOr (if 1 ≤ i then some (i - 1) else none) = .ok (i - 1) := by
      rw [if_pos (Nat.one_le_iff_ne_zero.2 hi), okOr]
    simp only [if_pos hone]
    refine .bits (by decide) fun delta_rps_sign _ => ?_
    refine .ue fun abs_delta_rps _ => ?_
    refine Walks.compute hidx ?_
    refine Rewrites.compute fun n_dp _ => ?_
    exact Walks.last (copies_hevcInterEntries (n_dp + 1) 0) (fun _ => rfl) fun _ _ hbs => hbs.map _
  · simp only [if_neg hone]
    refine .ue fun num_neg _ => ?_
    refine .ue fun num_pos _ => ?_
    refine .copy (.times copies_hevcExplicitEntry num_neg) fun negative => ?_
    refine .copy (.times copies_hevcExplicitEntry num_pos) fun positive => ?_
    exact .computed fun _ => rfl

theorem copies_hevcStRefPicSets (k i : ℕ) (ns : List ℕ) :
    Copies (Walk.copyHevcStRefPicSets k i ns) (Rbsp.hevcStRefPicSets k i ns) := by
  induction k generalizing i ns with
  | zero => exact .done rfl
  | succ k ih =>
      refine .bind (copies_hevcStRefPicSet i ns) fun x _ => ?_
      exact (ih (i + 1) (ns ++ [x.2])).last fun _ => rfl

theorem copies_hevcPcm : Copies Walk.copyHevcPcm Rbsp.hevcPcm := by
  refine .bits (by decide) fun bit_depth_luma _ => ?_
  refine .bits (by decide) fun bit_depth_chroma _ => ?_
  refine .ue fun log2_min _ => ?_
  refine .ue fun log2_diff _ => ?_
  exact .bits (by decide) fun loop_filter_disabled _ => .done rfl

/-- Up to 28 the entries fit the 32 bits a read can take. -/
theorem copies_hevcLongTerm {log2_max_poc : ℕ} (h : log2_max_poc ≤ 28) :
    Copies (Walk.copyHevcLongTerm log2_max_poc) (Rbsp.hevcLongTerm log2_max_poc) := by
  refine .ue fun num_long_term _ => ?_
  refine Walks.compute (addU32_of_lt (by omega)) ?_
  refine Rewrites.last (Copies.times ?_ num_long_term) fun _ => rfl
  exact .bits (by omega) fun poc_lsb _ => .bits (by decide) fun used _ => .done rfl

theorem rewrites_hevcVui : Rewrites Walk.copyHevcVuiWithFullRangeBt709 Rbsp.hevcVui Rbsp.hevcVui
    HevcVui.fullRange fun _ => () := by
  have htiming : Copies (do
      let _ ← Walk.copyBits 32
      let _ ← Walk.copyBits 32
      let _ ← Walk.flagged Walk.passUe
      Walk.copyZeroFlag) Rbsp.hevcTiming :=
    .bits (by decide) fun _ _ => .bits (by decide) fun _ _ => .flagged copies_ue fun _ =>
      copies_zeroFlag.last fun _ => rfl
  have hrestriction : Copies (do
      let _ ← Walk.copyBits 1
      let _ ← Walk.copyBits 1
      let _ ← Walk.copyBits 1
      let _ ← Walk.copyUe
      let _ ← Walk.copyUe
      let _ ← Walk.copyUe
      let _ ← Walk.copyUe
      let _ ← Walk.copyUe
      pure ()) Rbsp.hevcBitstreamRestriction :=
    .bits (by decide) fun _ _ => .bits (by decide) fun _ _ => .bits (by decide) fun _ _ =>
      .ue fun _ _ => .ue fun _ _ => .ue fun _ _ => .ue fun _ _ => .ue fun _ _ => .done rfl
  refine .flagged copies_aspectRatio fun aspect_ratio => ?_
  refine .flagged (copies_bits (by decide)) fun overscan_appropriate => ?_
  refine .replace reads_videoSignalType writes_fullRangeBt709 fun video_signal_type => ?_
  refine .flagged copies_chromaLoc fun chroma_loc => ?_
  refine .bits (by decide) fun neutral_chroma _ => ?_
  refine .bits (by decide) fun field_seq _ => ?_
  refine .bits (by decide) fun frame_field_info _ => ?_
  refine .flagged (.times copies_ue 4) fun default_display_window => ?_
  refine .flagged htiming fun timing => ?_
  exact .flagged hrestriction fun restriction => .done rfl

theorem writes_minimalHevcVui : Writes Walk.emitMinimalHevcVui Rbsp.hevcVui minimalHevcVui := by
  refine .absent (.absent ?_)
  refine .bind writes_fullRangeBt709 ?_
  refine .absent ?_
  refine .bind (writes_bits (by decide) (by decide)) ?_
  refine .bind (writes_bits (by decide) (by decide)) ?_
  refine .bind (writes_bits (by decide) (by decide)) ?_
  refine .absent (.absent ?_)
  exact .last _ writes_absent

theorem copies_hevcScalingList : Copies (do
    let sps_scaling_list_data_present ← Walk.copyBits 1
    Walk.refuseIf (sps_scaling_list_data_present = 1)) (do
    let sps_scaling_list_data_present_flag ← Rbsp.u 1
    Rbsp.refuseIf (sps_scaling_list_data_present_flag = 1)) :=
  .bits (by decide) fun _ _ => copies_refuseIf

/-- The walk after the head, given a width the entries fit. -/
theorem rewrites_hevcSpsTail {head : HevcSpsHead}
    (h : head.lead.log2_max_pic_order_cnt_lsb_minus4 ≤ 28) :
    Rewrites (Walk.patchHevcSpsTail head.lead.log2_max_pic_order_cnt_lsb_minus4)
      (Rbsp.hevcSpsTail head) (Rbsp.hevcSpsTail head.lowLatency) HevcSps.lowLatency
      fun _ => () := by
  refine .ue fun min_luma_coding_block _ => ?_
  refine .ue fun diff_luma_coding_block _ => ?_
  refine .ue fun min_luma_transform_block _ => ?_
  refine .ue fun diff_luma_transform_block _ => ?_
  refine .ue fun max_depth_inter _ => ?_
  refine .ue fun max_depth_intra _ => ?_
  refine .bits (by decide) fun scaling_list_enabled _ => ?_
  refine .copy (.onlyIf Iff.rfl fun _ => copies_hevcScalingList) fun _ => ?_
  refine .bits (by decide) fun amp_enabled _ => ?_
  refine .bits (by decide) fun sample_adaptive_offset_enabled _ => ?_
  refine .flagged copies_hevcPcm fun pcm => ?_
  refine .ue fun num_sets hnum_sets => ?_
  refine Walks.compute (withCapacityU32_of_lt (by omega)) ?_
  refine Rewrites.copy (copies_hevcStRefPicSets num_sets 0 []) fun sets => ?_
  refine .flagged (copies_hevcLongTerm h) fun long_term => ?_
  refine .bits (by decide) fun temporal_mvp_enabled _ => ?_
  refine .bits (by decide) fun strong_intra_smoothing_enabled _ => ?_
  refine .bind (Rewrites.always rewrites_hevcVui writes_minimalHevcVui) fun vui _ => ?_
  exact copies_zeroFlag.last fun _ => rfl

omit [BuildProfile] in
theorem hevcSpsHead_lead {s s' : List Bool} {head : HevcSpsHead} {ts : List Token}
    (h : Rbsp.hevcSpsHead.run s = .ok (head, ts, s')) :
    ∃ s₀ us, Rbsp.hevcSpsLead.run s = .ok (head.lead, us, s₀) := by
  obtain ⟨lead, us, s₀, us', hlead, hrest, -⟩ := run_bind_eq_ok.1 h
  have hhead : head.lead = lead := by
    refine Ensures.bind (P := fun head => head.lead = lead) (fun flag _ => ?_) head ⟨_, _, _, hrest⟩
    exact .bind fun dpb _ => ensures_pure rfl
  exact ⟨s₀, us, hhead ▸ hlead⟩

theorem hevcSpsTail_head (head : HevcSpsHead) :
    (Rbsp.hevcSpsTail head).Ensures fun sps => sps.head = head := by
  iterate 18 refine .bind fun _ _ => ?_
  exact ensures_pure rfl

/-- **The full walk changes only what `lowLatency` changes.**  Input and output parse with one
syntax, the output's record is the input's with the overrides, trailing bits end it, and the width of
the long-term entries is the one the copying walk passed. -/
theorem patchHevcSpsFull_lowLatency {rbsp out : List UInt8} (h : patchHevcSpsFull rbsp = .ok out)
    (hlog : ∀ lead s, Rbsp.hevcSpsLead.parse (bytesBits rbsp) = .ok (lead, s) →
      lead.log2_max_pic_order_cnt_lsb_minus4 ≤ 28) :
    ∃ sps s s', Rbsp.hevcSps.parse (bytesBits rbsp) = .ok (sps, s) ∧
      Rbsp.hevcSps.parse (bytesBits out) = .ok (sps.lowLatency, s') ∧ IsRbspTrailingBits s' ∧
      walkHevcSpsDpbLog2MaxPoc rbsp = .ok sps.head.lead.log2_max_pic_order_cnt_lsb_minus4 := by
  obtain ⟨r, bs, s', hp, hout, htrailing⟩ := Walk.rewriteRbsp_eq_ok h
  obtain ⟨⟨_, r₁, w₁⟩, hhead, hrest⟩ := Outcome.bind_eq_ok.1 hp
  obtain ⟨⟨log2_max_poc, r₂, w₂⟩, hlift, htail⟩ := Outcome.bind_eq_ok.1 hrest
  obtain ⟨head, ts₁, s₁, bs₁, hq₁, hbs₁, -, rfl, rfl⟩ := rewrites_hevcSpsHead.of_run hhead
  -- the second walk sees the lead of this head
  obtain ⟨s₀, us, hlead⟩ := hevcSpsHead_lead hq₁
  have hpoc : walkHevcSpsDpbLog2MaxPoc rbsp = _ := walkHevcSpsDpbLog2MaxPoc_eq hlead
  have hle := hlog head.lead s₀ (parse_of_run hlead)
  rw [hpoc] at hlift
  cases hlift
  obtain ⟨sps, ts₂, s, bs₂, hq₂, hbs₂, -, -, hw⟩ := (rewrites_hevcSpsTail hle).of_run htail
  have hskip : ((BitReader.new rbsp).skip (tokenBits ts₁).length).rest = s₁ :=
    BitReader.rest_skip_of_append (Rbsp.hevcSpsHead.consumes hq₁)
  rw [hskip] at hq₂
  rw [BitWriter.push_push] at hw
  obtain rfl := BitWriter.push_new_injective hw
  have hsps : Rbsp.hevcSps.run (bytesBits rbsp) = .ok (sps, ts₁ ++ ts₂, s) :=
    run_bind_of_ok hq₁ hq₂
  have hhead : sps.head = head := hevcSpsTail_head head sps ⟨_, _, _, hq₂⟩
  have hspell : Rbsp.hevcSps.Spells (bs₁ ++ bs₂) sps.lowLatency := hbs₁.bind hbs₂
  exact ⟨sps, s, s', parse_of_run hsps, hout ▸ parse_of_spells hspell, htrailing, hhead ▸ hpoc⟩

omit [BuildProfile] in
/-- An SPS with two sub-layers, a predicted reference picture set, long-term entries and no VUI. -/
theorem patchHevcSpsFull_lowLatency_main :
    letI : BuildProfile := ⟨true⟩
    ∃ sps s s', Rbsp.hevcSps.parse (bytesBits [3, 1, 96, 0, 0, 0, 0, 144, 0, 0, 0, 0, 0, 64, 0, 93,
        160, 5, 2, 1, 225, 101, 149, 152, 171, 36, 155, 53, 237, 164, 222, 64]) = .ok (sps, s) ∧
      Rbsp.hevcSps.parse (bytesBits [3, 1, 96, 0, 0, 0, 0, 144, 0, 0, 0, 0, 0, 64, 0, 93, 160, 5, 2,
        1, 225, 101, 255, 36, 155, 53, 237, 164, 223, 55, 1, 1, 1, 0, 128]) =
          .ok (sps.lowLatency, s') ∧ IsRbspTrailingBits s' ∧
      walkHevcSpsDpbLog2MaxPoc [3, 1, 96, 0, 0, 0, 0, 144, 0, 0, 0, 0, 0, 64, 0, 93, 160, 5, 2, 1,
        225, 101, 149, 152, 171, 36, 155, 53, 237, 164, 222, 64] =
          .ok sps.head.lead.log2_max_pic_order_cnt_lsb_minus4 := by
  have hlog : ((Rbsp.hevcSpsLead.parse (bytesBits [3, 1, 96, 0, 0, 0, 0, 144, 0, 0, 0, 0, 0, 64, 0,
      93, 160, 5, 2, 1, 225, 101, 149, 152, 171, 36, 155, 53, 237, 164, 222, 64])).map
        fun x => x.1.log2_max_pic_order_cnt_lsb_minus4) = .ok 4 := by
    decide +kernel
  refine @patchHevcSpsFull_lowLatency ⟨true⟩ _ _ (by decide +kernel) fun lead s hlead => ?_
  rw [hlead] at hlog
  have hfour : lead.log2_max_pic_order_cnt_lsb_minus4 = 4 := Except.ok.inj hlog
  omega

end Penflow
