import Penflow.Encoder.DpbBound
import Penflow.Lib.SyntaxFaults

/-!
# Syntax that cannot panic

Most of the SPS syntax ends in a value or in an error of the reader: whatever the input, no number it
reads leads to an overflow, an index out of range or a width the cursors do not take.  `Quiet` says
so of one reader.  A walk panics exactly when the reader it follows does (`Walks.error_iff`), so the
walks over quiet syntax cannot panic either.
-/

namespace Penflow

open BitString BitSyntax SyntaxReader

variable {α β γ : Type}

/-- `q` never ends in a panic. -/
def Quiet (q : Rbsp β) : Prop := q.Avoids .panic

theorem quiet_pure (b : β) : Quiet (pure b) := avoids_pure b

theorem Quiet.bind {q : Rbsp β} {f : β → Rbsp γ} (hq : Quiet q) (hf : ∀ b, Quiet (f b)) :
    Quiet (q >>= f) := Avoids.bind hq hf

theorem quiet_u (n : ℕ) : Quiet (Rbsp.u n) := avoids_u (by decide) n

theorem quiet_ue : Quiet Rbsp.ue := avoids_ue (by decide)

theorem quiet_se : Quiet Rbsp.se := avoids_se (by decide)

theorem Quiet.u {n : ℕ} {f : ℕ → Rbsp β} (h : ∀ v, Quiet (f v)) : Quiet (Rbsp.u n >>= f) :=
  (quiet_u n).bind h

theorem Quiet.ue {f : ℕ → Rbsp β} (h : ∀ v, Quiet (f v)) : Quiet (Rbsp.ue >>= f) := quiet_ue.bind h

theorem Quiet.se {f : ℤ → Rbsp β} (h : ∀ v, Quiet (f v)) : Quiet (Rbsp.se >>= f) := quiet_se.bind h

theorem Quiet.given {c : Prop} [Decidable c] {q : Rbsp β} (h : Quiet q) :
    Quiet (SyntaxReader.given c q) := Avoids.given h

theorem Quiet.times {q : Rbsp β} (h : Quiet q) (n : ℕ) : Quiet (SyntaxReader.times n q) :=
  Avoids.times h n

/-- A block behind its flag, then the rest. -/
theorem Quiet.flagged {q : Rbsp β} {f : Option β → Rbsp γ} (hq : Quiet q) (h : ∀ b, Quiet (f b)) :
    Quiet (Rbsp.flagged q >>= f) := Quiet.bind (Avoids.flagged (by decide) hq) h

theorem quiet_refuseIf {c : Prop} [Decidable c] : Quiet (Rbsp.refuseIf c) := by
  rw [Rbsp.refuseIf]
  split
  · exact avoids_fail (by decide)
  · exact quiet_pure ()

theorem quiet_zeroFlag : Quiet Rbsp.zeroFlag := .u fun _ => quiet_refuseIf

/-! ### Walks and readers -/

/-- **A walk panics where its reader does.** -/
theorem Walks.error_iff {p : Walk α} {q : Rbsp β} {g : β → α} {W : β → List Bool → Prop}
    (h : Walks p q g W) {r : BitReader} {w : BitWriter} {e : Fault} :
    p.run r w = .error e ↔ q.parse r.rest = .error e := by
  have hrw := h r w
  rw [SyntaxReader.parse]
  cases hq : q.run r.rest with
  | error e' =>
      rw [hq] at hrw
      rw [hrw, Except.map, Except.error.injEq, Except.error.injEq]
  | ok x =>
      rw [hq] at hrw
      obtain ⟨bs, -, hp⟩ := hrw
      rw [hp]
      refine iff_of_false (fun heq => ?_) fun heq => ?_
      · cases heq
      · cases heq

/-- What it takes, it takes off the front of what its reader takes it from. -/
theorem Walks.ok_iff {p : Walk α} {q : Rbsp β} {g : β → α} {W : β → List Bool → Prop}
    (h : Walks p q g W) {r : BitReader} {w : BitWriter} :
    (∃ x, p.run r w = .ok x) ↔ ∃ b s, q.parse r.rest = .ok (b, s) := by
  constructor
  · rintro ⟨⟨a, r', w'⟩, hp⟩
    obtain ⟨b, ts, s, bs, hq, -⟩ := h.of_run hp
    exact ⟨b, s, parse_of_run hq⟩
  · rintro ⟨b, s, hq⟩
    cases hp : p.run r w with
    | ok x => exact ⟨x, rfl⟩
    | error e =>
        rw [h.error_iff.1 hp] at hq
        cases hq

/-- A whole rewrite panics where its walk does. -/
theorem Walk.rewriteRbsp_error_iff [BuildProfile] {p : Walk Unit} {rbsp : List UInt8} {e : Fault} :
    p.rewriteRbsp rbsp = .error e ↔ p.run (.new rbsp) .new = .error e := by
  rw [Walk.rewriteRbsp, Outcome.bind_eq_error]
  refine or_iff_left ?_
  rintro ⟨⟨_, r, w⟩, -, hend⟩
  simp only [BitWriter.writeRbspTrailingBits_eq] at hend
  cases hend

/-! ### H.264 -/

theorem quiet_aspectRatio : Quiet Rbsp.aspectRatio :=
  .u fun _ => .bind (.given (.u fun _ => .u fun _ => quiet_pure _)) fun _ => quiet_pure _

theorem quiet_videoSignalType : Quiet Rbsp.videoSignalType := by
  refine .u fun video_format => .u fun video_full_range => .flagged ?_ fun _ => quiet_pure _
  exact .u fun _ => .u fun _ => .u fun _ => quiet_pure _

theorem quiet_chromaLoc : Quiet Rbsp.chromaLoc := .ue fun _ => .ue fun _ => quiet_pure _

theorem quiet_h264Chroma : Quiet Rbsp.h264Chroma := by
  refine .ue fun chroma_format_idc => ?_
  refine .bind (.given (quiet_u 1)) fun separate_colour_plane => ?_
  refine .ue fun bit_depth_luma => .ue fun bit_depth_chroma => ?_
  refine .u fun qpprime => .u fun scaling_present => ?_
  exact quiet_refuseIf.bind fun _ => quiet_pure _

theorem quiet_h264PocCycle : Quiet Rbsp.h264PocCycle := by
  refine .u fun always_zero => .se fun non_ref_pic => .se fun top_to_bottom => .ue fun n => ?_
  exact .bind (quiet_se.times n) fun _ => quiet_pure _

theorem quiet_h264Hrd : Quiet Rbsp.h264Hrd := by
  refine .ue fun cpb_cnt_minus1 => .u fun bit_rate_scale => .u fun cpb_size_scale => ?_
  refine .bind (.times (.ue fun _ => .ue fun _ => .u fun _ => quiet_pure _) _) fun cpbs => ?_
  exact .u fun _ => .u fun _ => .u fun _ => .u fun _ => quiet_pure _

theorem quiet_h264BitstreamRestriction : Quiet Rbsp.h264BitstreamRestriction :=
  .u fun _ => .ue fun _ => .ue fun _ => .ue fun _ => .ue fun _ => .ue fun _ => .ue fun _ =>
    quiet_pure _

theorem quiet_h264Vui : Quiet Rbsp.h264Vui := by
  refine .flagged quiet_aspectRatio fun aspect_ratio => ?_
  refine .flagged (quiet_u 1) fun overscan_appropriate => ?_
  refine .flagged quiet_videoSignalType fun video_signal_type => ?_
  refine .flagged quiet_chromaLoc fun chroma_loc => ?_
  refine .flagged (.u fun _ => .u fun _ => .u fun _ => quiet_pure _) fun timing => ?_
  refine .flagged quiet_h264Hrd fun nal_hrd => .flagged quiet_h264Hrd fun vcl_hrd => ?_
  refine .bind (.given (quiet_u 1)) fun low_delay_hrd => .u fun pic_struct_present => ?_
  exact .flagged quiet_h264BitstreamRestriction fun _ => quiet_pure _

theorem quiet_h264Sps : Quiet Rbsp.h264Sps := by
  refine .u fun profile_idc => .u fun constraint_flags => .u fun level_idc => .ue fun sps_id => ?_
  refine .bind (.given quiet_h264Chroma) fun chroma => ?_
  refine .ue fun log2_max_frame_num => .ue fun pic_order_cnt_type => ?_
  refine .bind (.given quiet_ue) fun log2_max_poc => ?_
  refine .bind (.given quiet_h264PocCycle) fun poc_cycle => ?_
  refine .ue fun max_num_ref_frames => .u fun gaps_in_frame_num => ?_
  refine .ue fun pic_width => .ue fun pic_height => .u fun frame_mbs_only => ?_
  refine .bind (.given (quiet_u 1)) fun mb_adaptive => .u fun direct_8x8_inference => ?_
  refine .flagged (quiet_ue.times 4) fun frame_cropping => ?_
  exact .flagged quiet_h264Vui fun _ => quiet_pure _

/-! ### HEVC -/

theorem quiet_hevcSubLayers (flags : List (ℕ × ℕ)) : Quiet (Rbsp.hevcSubLayers flags) := by
  induction flags with
  | nil => exact quiet_pure []
  | cons flags rest ih =>
      refine .bind (.given ((quiet_u 8).times 11)) fun profile => ?_
      exact .bind (.given (quiet_u 8)) fun level_idc => ih.bind fun _ => quiet_pure _

theorem quiet_hevcProfileTierLevel (n : ℕ) : Quiet (Rbsp.hevcProfileTierLevel n) := by
  refine .u fun general_profile => .u fun compatibility_flags => ?_
  refine .bind ((quiet_u 8).times 7) fun constraints => ?_
  refine .bind (.times (.u fun _ => .u fun _ => quiet_pure _) n) fun flags => ?_
  refine .bind (.given ((quiet_u 2).times _)) fun reserved => ?_
  exact .bind (quiet_hevcSubLayers flags) fun _ => quiet_pure _

theorem quiet_hevcSpsHead : Quiet Rbsp.hevcSpsHead := by
  refine .bind ?_ fun lead => .u fun flag => .bind (.times ?_ _) fun _ => quiet_pure _
  · refine .u fun vps_id => .u fun max_sub_layers => .u fun temporal_id_nesting => ?_
    refine .bind (quiet_hevcProfileTierLevel _) fun profile_tier_level => ?_
    refine .ue fun sps_id => .ue fun chroma_format_idc => ?_
    refine .bind (.given (quiet_u 1)) fun separate_colour_plane => ?_
    refine .ue fun pic_width => .ue fun pic_height => ?_
    refine .flagged (quiet_ue.times 4) fun conformance_window => ?_
    exact .ue fun _ => .ue fun _ => .ue fun _ => quiet_pure _
  · exact .ue fun _ => .ue fun _ => .ue fun _ => quiet_pure _

theorem quiet_hevcCodingTools : Quiet Rbsp.hevcCodingTools := by
  refine .ue fun _ => .ue fun _ => .ue fun _ => .ue fun _ => .ue fun _ => .ue fun _ => ?_
  refine .u fun scaling_list_enabled => .bind (.given (.u fun _ => quiet_refuseIf)) fun _ => ?_
  refine .u fun amp_enabled => .u fun sample_adaptive_offset_enabled => .flagged ?_ fun _ => quiet_ue
  exact .u fun _ => .u fun _ => .ue fun _ => .ue fun _ => .u fun _ => quiet_pure _

theorem quiet_stRefPicSet (i n : ℕ) : Quiet (Rbsp.stRefPicSet i n) := by
  have hflag : Quiet (if i ≠ 0 then Rbsp.u 1 else pure 0) := by
    split
    · exact quiet_u 1
    · exact quiet_pure 0
  have hexplicit : Quiet Rbsp.hevcExplicitEntry := .ue fun _ => .u fun _ => quiet_pure _
  have hinter : Quiet Rbsp.interEntry := .u fun _ => .bind (.given (quiet_u 1)) fun _ => quiet_pure _
  refine hflag.bind fun flag => ?_
  by_cases hone : flag = 1
  · rw [if_pos hone]
    refine .u fun delta_rps_sign => .ue fun abs_delta_rps => ?_
    exact .bind (hinter.times _) fun _ => quiet_pure _
  · rw [if_neg hone]
    refine .ue fun num_neg => .ue fun num_pos => ?_
    exact .bind (hexplicit.times _) fun _ => .bind (hexplicit.times _) fun _ => quiet_pure _

theorem quiet_hevcVui : Quiet Rbsp.hevcVui := by
  refine .flagged quiet_aspectRatio fun aspect_ratio => ?_
  refine .flagged (quiet_u 1) fun overscan_appropriate => ?_
  refine .flagged quiet_videoSignalType fun video_signal_type => ?_
  refine .flagged quiet_chromaLoc fun chroma_loc => ?_
  refine .u fun neutral_chroma => .u fun field_seq => .u fun frame_field_info => ?_
  refine .flagged (quiet_ue.times 4) fun default_display_window => ?_
  refine .flagged ?_ fun timing => .flagged ?_ fun restriction => quiet_pure _
  · refine .u fun num_units_in_tick => .u fun time_scale => ?_
    exact .flagged quiet_ue fun _ => quiet_zeroFlag.bind fun _ => quiet_pure _
  · exact .u fun _ => .u fun _ => .u fun _ => .ue fun _ => .ue fun _ => .ue fun _ => .ue fun _ =>
      .ue fun _ => quiet_pure _

end Penflow
