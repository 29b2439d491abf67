import Penflow.Encoder.Keeps
import Penflow.Encoder.PatchPacket

/-!
# Patching twice

Each SPS walk is stable: what it copies it copies verbatim, and what it puts in the place of
something else it puts there again.  So the patchers are idempotent, on an RBSP and, because
escaping is undone by unescaping, on an H.264 packet.
-/

namespace Penflow

open AnnexB BitString BitSyntax SyntaxReader

variable [BuildProfile]

/-! ### H.264 -/

theorem verbatim_copyAspectRatio : Verbatim Walk.copyAspectRatio := by
  refine .bits (by decide) fun aspect_ratio_idc => .onlyIf ?_
  exact .bits (by decide) fun _ => .bits (by decide) fun _ => verbatim_pure ()

theorem verbatim_copyChromaLoc : Verbatim Walk.copyChromaLoc :=
  .ue fun _ => .ue fun _ => verbatim_pure ()

theorem verbatim_copyH264Chroma : Verbatim Walk.copyH264Chroma := by
  refine .ue fun chroma_format_idc => ?_
  refine .bind (.onlyIf (verbatim_passBits (by decide))) fun _ => ?_
  refine .ue fun bit_depth_luma => ?_
  refine .ue fun bit_depth_chroma => ?_
  refine .bits (by decide) fun qpprime => ?_
  refine .bits (by decide) fun scaling_present => ?_
  exact .bind verbatim_refuseIf fun _ => verbatim_pure ()

theorem verbatim_copyH264PocCycle : Verbatim Walk.copyH264PocCycle := by
  refine .bits (by decide) fun always_zero => ?_
  refine .se fun non_ref_pic => ?_
  refine .se fun top_to_bottom => ?_
  exact .ue fun n => .times verbatim_passSe n

theorem verbatim_copyH264HrdParameters : Verbatim Walk.copyH264HrdParameters := by
  refine .ue fun cpb_cnt_minus1 => ?_
  refine .bits (by decide) fun bit_rate_scale => ?_
  refine .bits (by decide) fun cpb_size_scale => ?_
  refine .bind (.times ?_ _) fun _ => ?_
  · exact .ue fun _ => .ue fun _ => .bits (by decide) fun _ => verbatim_pure ()
  · refine .bits (by decide) fun initial_cpb_removal_delay_length => ?_
    refine .bits (by decide) fun cpb_removal_delay_length => ?_
    refine .bits (by decide) fun dpb_output_delay_length => ?_
    exact .bits (by decide) fun time_offset_length => verbatim_pure ()

theorem stable_copyH264Vui : Stable Walk.copyH264VuiWithPatchedBitstreamRestriction := by
  refine .copy (.flagged verbatim_copyAspectRatio) fun _ => ?_
  refine .copy (.flagged (verbatim_passBits (by decide))) fun _ => ?_
  refine .replace reads_videoSignalType writes_fullRangeBt709 ?_
  refine .copy (.flagged verbatim_copyChromaLoc) fun _ => ?_
  refine .copy (.flagged ?_) fun _ => ?_
  · exact .bits (by decide) fun _ => .bits (by decide) fun _ => .bits (by decide) fun _ =>
      verbatim_pure ()
  · refine .copy (.flagged verbatim_copyH264HrdParameters) fun nal_hrd => ?_
    refine .copy (.flagged verbatim_copyH264HrdParameters) fun vcl_hrd => ?_
    refine .copy (.onlyIf (verbatim_passBits (by decide))) fun _ => ?_
    refine .copy (verbatim_copyBits (by decide)) fun pic_struct_present => ?_
    exact .replace reads_h264BitstreamRestriction writes_lowLatencyRestriction
      (verbatim_pure ()).stable

/-- The made-up VUI is one the copying walk keeps. -/
theorem absorbs_minimalH264Vui :
    Absorbs Walk.copyH264VuiWithPatchedBitstreamRestriction Walk.emitMinimalH264Vui := by
  refine .absent (.absent ?_)
  refine .replace reads_videoSignalType writes_fullRangeBt709 ?_
  refine .absent (.absent (.absent (.absent ?_)))
  refine .skip (by decide) (.zero ?_)
  exact absorbs_replace reads_h264BitstreamRestriction writes_lowLatencyRestriction

/-- **The H.264 walk is stable.** -/
theorem stable_patchH264Sps : Stable Walk.patchH264Sps := by
  obtain ⟨cs, hwrites, hkeeps⟩ := absorbs_minimalH264Vui
  refine .copy (verbatim_copyBits (by decide)) fun profile_idc => ?_
  refine .copy (verbatim_copyBits (by decide)) fun constraint_flags => ?_
  refine .copy (verbatim_copyBits (by decide)) fun level_idc => ?_
  refine .copy verbatim_copyUe fun sps_id => ?_
  refine .copy (.onlyIf verbatim_copyH264Chroma) fun _ => ?_
  refine .copy verbatim_copyUe fun log2_max_frame_num => ?_
  refine .copy verbatim_copyUe fun pic_order_cnt_type => ?_
  refine .copy (.onlyIf verbatim_passUe) fun _ => ?_
  refine .copy (.onlyIf verbatim_copyH264PocCycle) fun _ => ?_
  refine .replace reads_ue (writes_ue (by decide)) ?_
  refine .copy (verbatim_copyBits (by decide)) fun gaps_in_frame_num => ?_
  refine .copy verbatim_copyUe fun pic_width => ?_
  refine .copy verbatim_copyUe fun pic_height => ?_
  refine .copy (verbatim_copyBits (by decide)) fun frame_mbs_only => ?_
  refine .copy (.onlyIf (verbatim_passBits (by decide))) fun _ => ?_
  refine .copy (verbatim_copyBits (by decide)) fun direct_8x8_inference => ?_
  refine .copy (.flagged (.times verbatim_passUe 4)) fun _ => ?_
  exact .always stable_copyH264Vui hwrites hkeeps

/-! ### HEVC -/

theorem verbatim_copyHevcSubLayerFlags (n i : ℕ) : Verbatim (Walk.copyHevcSubLayerFlags n i) := by
  induction n generalizing i with
  | zero => exact verbatim_pure []
  | succ n ih =>
      refine .bind ?_ fun flags => ?_
      · refine .bits (by decide) fun pp => ?_
        refine .bits (by decide) fun lp => ?_
        exact .bind (verbatim_ofOutcome _) fun _ => verbatim_pure (pp, lp)
      · exact .bind (ih (i + 1)) fun rest => verbatim_pure (flags :: rest)

theorem verbatim_copyHevcSubLayers (flags : List (ℕ × ℕ)) :
    Verbatim (Walk.copyHevcSubLayers flags) := by
  induction flags with
  | nil => exact verbatim_pure ()
  | cons flags rest ih =>
      refine .bind (.onlyIf (.times (verbatim_passBits (by decide)) 11)) fun _ => ?_
      exact .bind (.onlyIf (verbatim_passBits (by decide))) fun _ => ih

theorem verbatim_copyHevcProfileTierLevel (n : ℕ) :
    Verbatim (Walk.copyHevcProfileTierLevel n) := by
  refine .bits (by decide) fun general_profile => ?_
  refine .bits (by decide) fun compatibility_flags => ?_
  refine .bind (.times (verbatim_passBits (by decide)) 7) fun _ => ?_
  refine .bind (verbatim_copyHevcSubLayerFlags n 0) fun flags => ?_
  refine .bind (.onlyIf (.times (verbatim_passBits (by decide)) _)) fun _ => ?_
  exact verbatim_copyHevcSubLayers flags

/-- Up to the decoded picture buffer triplets nothing is changed. -/
theorem verbatim_copyHevcSpsLead : Verbatim Walk.copyHevcSpsLead := by
  refine .bits (by decide) fun vps_id => ?_
  refine .bits (by decide) fun max_sub_layers => ?_
  refine .bits (by decide) fun temporal_id_nesting => ?_
  refine .bind (verbatim_copyHevcProfileTierLevel _) fun _ => ?_
  refine .ue fun sps_id => ?_
  refine .ue fun chroma_format_idc => ?_
  refine .bind (.onlyIf (verbatim_passBits (by decide))) fun _ => ?_
  refine .ue fun pic_width => ?_
  refine .ue fun pic_height => ?_
  refine .bind (.flagged (.times verbatim_passUe 4)) fun _ => ?_
  refine .ue fun bit_depth_luma => ?_
  refine .ue fun bit_depth_chroma => ?_
  exact .ue fun log2_max_poc => verbatim_pure _

theorem stable_clearHevcDpb : Stable Walk.clearHevcDpb := by
  refine .replace reads_ue (writes_ue (by decide)) ?_
  refine .replace reads_ue (writes_ue (by decide)) ?_
  exact .replace reads_ue (writes_ue (by decide)) (verbatim_pure ()).stable

theorem stable_walkHevcSpsThroughDpb : Stable Walk.walkHevcSpsThroughDpb := by
  refine .copy verbatim_copyHevcSpsLead fun max_sub_layers => ?_
  exact .copy (verbatim_copyBits (by decide)) fun flag => .times stable_clearHevcDpb _

theorem verbatim_copyHevcPcm : Verbatim Walk.copyHevcPcm := by
  refine .bits (by decide) fun bit_depth_luma => ?_
  refine .bits (by decide) fun bit_depth_chroma => ?_
  exact .ue fun _ => .ue fun _ => .bits (by decide) fun _ => verbatim_pure ()

theorem verbatim_copyHevcInterEntry (n : ℕ) : Verbatim (Walk.copyHevcInterEntry n) := by
  refine .bits (by decide) fun used_by_curr_pic_flag => ?_
  by_cases hused : used_by_curr_pic_flag = 0
  · rw [if_pos hused]
    refine .bits (by decide) fun use_delta_flag => ?_
    by_cases huse : use_delta_flag = 1
    · rw [if_pos huse]
      exact verbatim_ofOutcome _
    · rw [if_neg huse]
      exact verbatim_pure n
  · rw [if_neg hused]
    exact verbatim_ofOutcome _

theorem verbatim_copyHevcInterEntries (k n : ℕ) : Verbatim (Walk.copyHevcInterEntries k n) := by
  induction k generalizing n with
  | zero => exact verbatim_pure n
  | succ k ih => exact .bind (verbatim_copyHevcInterEntry n) fun m => ih m

theorem verbatim_copyHevcExplicitEntry : Verbatim Walk.copyHevcExplicitEntry :=
  .ue fun _ => .bits (by decide) fun _ => verbatim_pure ()

theorem verbatim_copyHevcStRefPicSet (i : ℕ) (ns : List ℕ) :
    Verbatim (Walk.copyHevcStRefPicSet i ns) := by
  have hflag : Verbatim (if i ≠ 0 then Walk.copyBits 1 else pure 0) := by
    by_cases hi : i ≠ 0
    · rw [if_pos hi]
      exact verbatim_copyBits (by decide)
    · rw [if_neg hi]
      exact verbatim_pure 0
  refine .bind hflag fun flag => ?_
  by_cases hone : flag = 1
  · rw [if_pos hone]
    refine .bits (by decide) fun delta_rps_sign => ?_
    refine .ue fun abs_delta_rps => ?_
    refine .bind (verbatim_ofOutcome _) fun r_idx => ?_
    refine .bind (verbatim_ofOutcome _) fun n_dp => ?_
    exact verbatim_copyHevcInterEntries (n_dp + 1) 0
  · rw [if_neg hone]
    refine .ue fun num_neg => ?_
    refine .ue fun num_pos => ?_
    refine .bind (.times verbatim_copyHevcExplicitEntry num_neg) fun _ => ?_
    refine .bind (.times verbatim_copyHevcExplicitEntry num_pos) fun _ => ?_
    exact verbatim_ofOutcome _

theorem verbatim_copyHevcStRefPicSets (k i : ℕ) (ns : List ℕ) :
    Verbatim (Walk.copyHevcStRefPicSets k i ns) := by
  induction k generalizing i ns with
  | zero => exact verbatim_pure ()
  | succ k ih => exact .bind (verbatim_copyHevcStRefPicSet i ns) fun n => ih (i + 1) (ns ++ [n])

theorem verbatim_copyHevcLongTerm {log2_max_poc : ℕ} (h : log2_max_poc ≤ 28) :
    Verbatim (Walk.copyHevcLongTerm log2_max_poc) := by
  refine .ue fun num_long_term => ?_
  refine .compute (addU32_of_lt (by omega)) (.times ?_ num_long_term)
  exact .bits (by omega) fun poc_lsb => .bits (by decide) fun used => verbatim_pure ()

theorem stable_copyHevcVui : Stable Walk.copyHevcVuiWithFullRangeBt709 := by
  refine .copy (.flagged verbatim_copyAspectRatio) fun _ => ?_
  refine .copy (.flagged (verbatim_passBits (by decide))) fun _ => ?_
  refine .replace reads_videoSignalType writes_fullRangeBt709 ?_
  refine .copy (.flagged verbatim_copyChromaLoc) fun _ => ?_
  refine .copy (verbatim_copyBits (by decide)) fun neutral_chroma => ?_
  refine .copy (verbatim_copyBits (by decide)) fun field_seq => ?_
  refine .copy (verbatim_copyBits (by decide)) fun frame_field_info => ?_
  refine .copy (.flagged (.times verbatim_passUe 4)) fun _ => ?_
  refine .bind (.flagged ?_) fun _ => ?_
  · refine .copy (verbatim_copyBits (by decide)) fun num_units_in_tick => ?_
    refine .copy (verbatim_copyBits (by decide)) fun time_scale => ?_
    exact .copy (.flagged verbatim_passUe) fun _ => stable_copyZeroFlag
  · refine .copy (.flagged ?_) fun _ => (verbatim_pure ()).stable
    exact .bits (by decide) fun _ => .bits (by decide) fun _ => .bits (by decide) fun _ =>
      .ue fun _ => .ue fun _ => .ue fun _ => .ue fun _ => .ue fun _ => verbatim_pure ()

theorem absorbs_minimalHevcVui :
    Absorbs Walk.copyHevcVuiWithFullRangeBt709 Walk.emitMinimalHevcVui := by
  refine .absent (.absent ?_)
  refine .replace reads_videoSignalType writes_fullRangeBt709 ?_
  refine .absent (.zero (.zero (.zero ?_)))
  exact .absent (.absent absorbs_absent)

/-- The walk after the head, given a width the long-term entries fit. -/
theorem stable_patchHevcSpsTail {log2_max_poc : ℕ} (h : log2_max_poc ≤ 28) :
    Stable (Walk.patchHevcSpsTail log2_max_poc) := by
  obtain ⟨cs, hwrites, hkeeps⟩ := absorbs_minimalHevcVui
  refine .copy verbatim_copyUe fun min_luma_coding_block => ?_
  refine .copy verbatim_copyUe fun diff_luma_coding_block => ?_
  refine .copy verbatim_copyUe fun min_luma_transform_block => ?_
  refine .copy verbatim_copyUe fun diff_luma_transform_block => ?_
  refine .copy verbatim_copyUe fun max_depth_inter => ?_
  refine .copy verbatim_copyUe fun max_depth_intra => ?_
  refine .copy (verbatim_copyBits (by decide)) fun scaling_list_enabled => ?_
  refine .copy (.onlyIf (.bits (by decide) fun _ => verbatim_refuseIf)) fun _ => ?_
  refine .copy (verbatim_copyBits (by decide)) fun amp_enabled => ?_
  refine .copy (verbatim_copyBits (by decide)) fun sample_adaptive_offset_enabled => ?_
  refine .copy (.flagged verbatim_copyHevcPcm) fun _ => ?_
  refine .copy verbatim_copyUe fun num_sets => ?_
  refine .copy (verbatim_ofOutcome _) fun num_delta_pocs => ?_
  refine .copy (verbatim_copyHevcStRefPicSets num_sets 0 num_delta_pocs) fun _ => ?_
  refine .copy (.flagged (verbatim_copyHevcLongTerm h)) fun _ => ?_
  refine .copy (verbatim_copyBits (by decide)) fun temporal_mvp_enabled => ?_
  refine .copy (verbatim_copyBits (by decide)) fun strong_intra_smoothing_enabled => ?_
  exact .bind (.always stable_copyHevcVui hwrites hkeeps) fun _ => stable_copyZeroFlag

/-- The second walk finds the same width in the output. -/
theorem walkHevcSpsDpbLog2MaxPoc_patched {rbsp out : List UInt8}
    (h : patchHevcSpsFull rbsp = .ok out)
    (hlog : ∀ lead s, Rbsp.hevcSpsLead.parse (bytesBits rbsp) = .ok (lead, s) →
      lead.log2_max_pic_order_cnt_lsb_minus4 ≤ 28) :
    ∃ log2_max_poc ≤ 28, walkHevcSpsDpbLog2MaxPoc rbsp = .ok log2_max_poc ∧
      walkHevcSpsDpbLog2MaxPoc out = .ok log2_max_poc := by
  obtain ⟨sps, s, s', hin, hout, -, hpoc⟩ := patchHevcSpsFull_lowLatency h hlog
  have hlead : ∀ {bytes : List UInt8} {sps : HevcSps} {s : List Bool},
      Rbsp.hevcSps.parse (bytesBits bytes) = .ok (sps, s) →
      ∃ us s₀, Rbsp.hevcSpsLead.run (bytesBits bytes) = .ok (sps.head.lead, us, s₀) := by
    intro bytes sps s hparse
    obtain ⟨ts, hrun⟩ := run_of_parse hparse
    obtain ⟨head, ts₁, s₁, ts₂, hhead, htail, -⟩ := run_bind_eq_ok.1 hrun
    obtain ⟨s₀, us, hlead⟩ := hevcSpsHead_lead hhead
    have hsame : sps.head = head := hevcSpsTail_head head sps ⟨_, _, _, htail⟩
    exact ⟨us, s₀, hsame ▸ hlead⟩
  obtain ⟨us, s₀, hin⟩ := hlead hin
  obtain ⟨us', s₀', hout⟩ := hlead hout
  exact ⟨_, hlog _ _ (parse_of_run hin), hpoc, walkHevcSpsDpbLog2MaxPoc_eq hout⟩

theorem patchHevcSpsFull_idem {rbsp out : List UInt8} (h : patchHevcSpsFull rbsp = .ok out)
    (hlog : ∀ lead s, Rbsp.hevcSpsLead.parse (bytesBits rbsp) = .ok (lead, s) →
      lead.log2_max_pic_order_cnt_lsb_minus4 ≤ 28) : patchHevcSpsFull out = .ok out := by
  obtain ⟨log2_max_poc, hle, hin, hout⟩ := walkHevcSpsDpbLog2MaxPoc_patched h hlog
  rw [patchHevcSpsFull, hin] at h
  rw [patchHevcSpsFull, hout]
  refine Stable.rewriteRbsp_idem ?_ h
  exact .bind stable_walkHevcSpsThroughDpb fun _ => .compute rfl (stable_patchHevcSpsTail hle)

/-- What the fallback does with an input whose front the head walk takes. -/
theorem patchHevcSpsDpbOnly_of_takes {rbsp : List UInt8} {bs cs s : List Bool}
    (h : Takes Walk.walkHevcSpsThroughDpb bs () cs) (hrbsp : bytesBits rbsp = bs ++ s) :
    patchHevcSpsDpbOnly rbsp = .ok (BitWriter.new.push (cs ++ s)).bytes := by
  obtain ⟨hrun, hrest⟩ := h.run_bind (f := fun _ => Walk.copyRemainingBits) .new
    ((BitReader.rest_new rbsp).trans hrbsp)
  rw [patchHevcSpsDpbOnly, Walk.patchHevcSpsDpb, hrun, copyRemainingBits_run, hrest,
    BitWriter.push_push]
  rfl

theorem patchHevcSpsDpbOnly_eq_ok {rbsp out : List UInt8} (h : patchHevcSpsDpbOnly rbsp = .ok out) :
    ∃ bs cs s, bytesBits rbsp = bs ++ s ∧ Takes Walk.walkHevcSpsThroughDpb bs () cs ∧
      Keeps Walk.walkHevcSpsThroughDpb cs () ∧ out = (BitWriter.new.push (cs ++ s)).bytes := by
  obtain ⟨x, hx, -⟩ := Outcome.bind_eq_ok.1 h
  obtain ⟨y, hy, -⟩ := Outcome.bind_eq_ok.1 hx
  obtain ⟨bs, cs, s, hrest, htakes, hkeeps⟩ := stable_walkHevcSpsThroughDpb _ _ _ hy
  rw [BitReader.rest_new] at hrest
  rw [patchHevcSpsDpbOnly_of_takes htakes hrest] at h
  exact ⟨bs, cs, s, hrest, htakes, hkeeps, (Except.ok.inj h).symm⟩

omit [BuildProfile] in
/-- Whole bytes written again are the same bytes. -/
theorem push_bytesBits (bytes : List UInt8) : (BitWriter.new.push (bytesBits bytes)).bytes = bytes := by
  refine bytesBits_injective ?_
  have hfull : padding (BitWriter.new.push (bytesBits bytes)).bit_pos = 0 := by
    rw [BitWriter.bit_pos_push, bytesBits_length]
    show (8 - (0 + 8 * bytes.length) % 8) % 8 = 0
    omega
  rw [BitWriter.bytesBits_bytes, hfull, BitWriter.bits_push, BitWriter.bits_new, List.nil_append,
    List.replicate_zero, List.append_nil]

theorem patchHevcSpsDpbOnly_idem {rbsp out : List UInt8} (h : patchHevcSpsDpbOnly rbsp = .ok out) :
    patchHevcSpsDpbOnly out = .ok out := by
  obtain ⟨bs, cs, s, -, -, hkeeps, hout⟩ := patchHevcSpsDpbOnly_eq_ok h
  -- the second run copies the padding of the first as well
  have hbits := BitWriter.bytesBits_bytes (BitWriter.new.push (cs ++ s))
  rw [← hout, BitWriter.bits_push, BitWriter.bits_new, List.nil_append, List.append_assoc] at hbits
  rw [patchHevcSpsDpbOnly_of_takes hkeeps hbits, ← hbits, push_bytesBits]

/-! ### Packets -/

omit [BuildProfile] in
/-- After trailing bits the last byte is not zero. -/
theorem last_ne_zero_of_trailing {bytes : List UInt8} {pre s : List Bool}
    (h : bytesBits bytes = pre ++ s) (hs : IsRbspTrailingBits s) : bytes.getLast? ≠ some 0 := by
  obtain ⟨k, hk, rfl⟩ := hs
  intro hlast
  obtain ⟨bytes, rfl⟩ := List.getLast?_eq_some_iff.1 hlast
  have hzero : bytesBits [0] = List.replicate 8 false := by decide
  rw [bytesBits_append, hzero] at h
  have hsuffix : true :: List.replicate k false <:+ List.replicate 8 false := by
    refine List.suffix_of_suffix_length_le ⟨pre, h.symm⟩ (List.suffix_append _ _) ?_
    simp only [List.length_cons, List.length_replicate]
    omega
  exact absurd (List.eq_of_mem_replicate (hsuffix.subset List.mem_cons_self)) (by decide)

theorem patchH264SpsRbsp_idem {rbsp out : List UInt8} (h : patchH264SpsRbsp rbsp = .ok out) :
    patchH264SpsRbsp out = .ok out := stable_patchH264Sps.rewriteRbsp_idem h

/-- A patched H.264 payload is left as it is, and no zero ends it. -/
theorem patchPayload_idem {payload q : List UInt8} (h : patchPayload .h264 payload = .ok q)
    (hlen : Codec.h264.headerLen ≤ payload.length) :
    patchPayload .h264 q = .ok q ∧ (q = payload ∨ q.getLast? ≠ some 0) := by
  obtain ⟨b, t, rfl⟩ := List.exists_cons_of_length_pos hlen
  have hpatch := h
  rw [patchPayload] at h
  by_cases hsps : (b :: t).head?.map Codec.h264.nalType ≠ some Codec.h264.spsType
  · rw [if_pos hsps] at h
    cases h
    exact ⟨hpatch, .inl rfl⟩
  · rw [if_neg hsps] at h
    obtain ⟨body, hbody, hret⟩ := Outcome.bind_eq_ok.1 h
    cases hret
    have hagain : patchSpsRbsp .h264 body = .ok body := patchH264SpsRbsp_idem hbody
    refine ⟨?_, .inr ?_⟩
    · refine (if_neg hsps).trans ?_
      show (patchSpsRbsp .h264 (rbspUnescape (rbspEscape body)) >>= fun patched_rbsp =>
        pure (b :: rbspEscape patched_rbsp)) = _
      rw [rbspUnescape_escape, hagain]
      rfl
    · have hne : b ≠ 0 := @spsByte_ne_zero .h264 _ (Option.some.inj (not_not.1 hsps))
      obtain ⟨r, bs, s, -, hbits, htrailing⟩ := Walk.rewriteRbsp_eq_ok hbody
      have hlast := last_ne_zero_of_trailing hbits htrailing
      show (b :: rbspEscape body).getLast? ≠ some 0
      rw [List.getLast?_cons, rbspEscape_getLast?]
      cases hl : body.getLast? with
      | none => simpa using hne
      | some c =>
          rw [hl] at hlast
          simpa using hlast

theorem patchUnits_idem {us us' : List Nal} (h : patchUnits .h264 us = .ok us') :
    patchUnits .h264 us' = .ok us' := by
  induction us generalizing us' with
  | nil =>
      cases h
      rfl
  | cons u us ih =>
      have hunits := h
      rw [patchUnits] at h
      by_cases hshort : u.payload.length < Codec.h264.headerLen
      · rw [if_pos hshort] at h
        cases h
        exact hunits
      · rw [if_neg hshort] at h
        obtain ⟨payload, hpayload, h⟩ := Outcome.bind_eq_ok.1 h
        obtain ⟨rest, hrest, hret⟩ := Outcome.bind_eq_ok.1 h
        cases hret
        have hlen := Nat.not_lt.1 hshort
        have hhead := patchPayload_head hlen hpayload
        have hlong : ¬ payload.length < Codec.h264.headerLen := by
          obtain ⟨b, t, hb⟩ := List.exists_cons_of_length_pos hlen
          rw [hb] at hhead
          cases payload with
          | nil => cases hhead
          | cons c q => exact Nat.not_lt.2 (Nat.succ_le_succ (Nat.zero_le _))
        rw [patchUnits, if_neg hlong, (patchPayload_idem hpayload hlen).1, ih hrest]
        rfl

/-- The units of a patched H.264 packet are the ones a reader sees. -/
theorem tight_patched {us us' : List Nal} {q q' : List UInt8}
    (h : patchUnits .h264 us = .ok us') (htight : Tight q us)
    (hq : q' = q ∨ Free [] q' ∧ q'.getLast? ≠ some 0) : Tight q' us' := by
  induction us generalizing us' q q' with
  | nil =>
      cases h
      rcases hq with rfl | ⟨hfree, -⟩
      · exact htight
      · exact hfree
  | cons u us ih =>
      have hcode : Free u.code q' := by
        rcases hq with rfl | ⟨hfree, hlast⟩
        · exact htight.1
        · rcases code_cases u with hlong | hshort
          · exact hlong ▸ free_longCode hfree
          · exact hshort ▸ free_shortCode hfree hlast
      rw [patchUnits] at h
      by_cases hshort : u.payload.length < Codec.h264.headerLen
      · rw [if_pos hshort] at h
        cases h
        exact ⟨hcode, htight.2⟩
      · rw [if_neg hshort] at h
        obtain ⟨payload, hpayload, h⟩ := Outcome.bind_eq_ok.1 h
        obtain ⟨rest, hrest, hret⟩ := Outcome.bind_eq_ok.1 h
        cases hret
        have hlen := Nat.not_lt.1 hshort
        have hfree := patchPayload_free htight.2.free.1 hlen hpayload
        refine ⟨hcode, ih hrest htight.2 ?_⟩
        exact (patchPayload_idem hpayload hlen).2.imp_right fun hlast => ⟨hfree, hlast⟩

theorem patchPacket_idem {packet out : List UInt8}
    (h : patchPacketForLowLatencyDpb .h264 packet = .ok out) :
    patchPacketForLowLatencyDpb .h264 out = .ok out := by
  obtain ⟨p, us, htight, rfl⟩ := exists_tight packet
  rw [patchPacket_join .h264 htight] at h
  cases hus : patchUnits .h264 us with
  | error e =>
      rw [hus] at h
      cases h
  | ok us' =>
      rw [hus] at h
      obtain rfl : join p us' = out := Except.ok.inj h
      rw [patchPacket_join .h264 (tight_patched hus htight (.inl rfl)), patchUnits_idem hus]
      rfl

/-- **Patching is idempotent.**  What a patcher has written it writes again, for the H.264 rewriter,
the full HEVC walk on inputs whose long-term entries fit, the HEVC fallback and H.264 packets. -/
theorem patch_idempotent :
    (∀ x y, patchH264SpsRbsp x = .ok y → patchH264SpsRbsp y = .ok y) ∧
    (∀ x y, patchHevcSpsFull x = .ok y →
      (∀ lead s, Rbsp.hevcSpsLead.parse (bytesBits x) = .ok (lead, s) →
        lead.log2_max_pic_order_cnt_lsb_minus4 ≤ 28) → patchHevcSpsFull y = .ok y) ∧
    (∀ x y, patchHevcSpsDpbOnly x = .ok y → patchHevcSpsDpbOnly y = .ok y) ∧
    (∀ p q, patchPacketForLowLatencyDpb .h264 p = .ok q →
      patchPacketForLowLatencyDpb .h264 q = .ok q) := by
  refine ⟨?_, ?_, ?_, ?_⟩
  · intro x y h
    exact patchH264SpsRbsp_idem h
  · intro x y h hlog
    exact patchHevcSpsFull_idem h hlog
  · intro x y h
    exact patchHevcSpsDpbOnly_idem h
  · intro p q h
    exact patchPacket_idem h

omit [BuildProfile] in
/-- A baseline H.264 SPS, an HEVC SPS with long-term entries in both walks, and a packet. -/
theorem patch_idempotent_main :
    letI : BuildProfile := ⟨true⟩
    let full : List UInt8 := [3, 1, 96, 0, 0, 0, 0, 144, 0, 0, 0, 0, 0, 64, 0, 93, 160, 5, 2, 1, 225,
      101, 255, 36, 155, 53, 237, 164, 223, 55, 1, 1, 1, 0, 128]
    let fallback : List UInt8 := [3, 1, 96, 0, 0, 0, 0, 144, 0, 0, 0, 0, 0, 64, 0, 93, 160, 5, 2, 1, 225,
      101, 255, 36, 155, 53, 237, 164, 222, 64]
    let h264 : List UInt8 := [66, 192, 31, 208, 169, 153, 160, 20, 1, 110, 192, 91, 128, 128, 128, 160,
      0, 0, 125, 32, 0, 29, 76, 17, 225, 16, 141, 64]
    patchH264SpsRbsp h264 = .ok h264 ∧ patchHevcSpsFull full = .ok full ∧
      patchHevcSpsDpbOnly fallback = .ok fallback ∧
      patchPacketForLowLatencyDpb .h264 ([0, 0, 1, 103] ++ h264) = .ok ([0, 0, 1, 103] ++ h264) := by
  let _ : BuildProfile := ⟨true⟩
  intro full fallback h264
  let old : List UInt8 := [66, 192, 31, 208, 169, 153, 148, 5, 0, 91, 176, 22, 136, 0, 0, 31, 72, 0, 7,
    83, 4, 120, 177, 108, 176]
  let hevc : List UInt8 := [3, 1, 96, 0, 0, 0, 0, 144, 0, 0, 0, 0, 0, 64, 0, 93, 160, 5, 2, 1, 225, 101,
    149, 152, 171, 36, 155, 53, 237, 164, 222, 64]
  have hlog : ((Rbsp.hevcSpsLead.parse (bytesBits hevc)).map
      fun x => x.1.log2_max_pic_order_cnt_lsb_minus4) = .ok 4 := by decide +kernel
  refine ⟨patch_idempotent.1 old h264 (by decide +kernel),
    patch_idempotent.2.1 hevc full (by decide +kernel) fun lead s hlead => ?_,
    patch_idempotent.2.2.1 hevc fallback (by decide +kernel),
    patch_idempotent.2.2.2 ([0, 0, 1, 103] ++ old) _ (by decide +kernel)⟩
  rw [hlead] at hlog
  have hfour : lead.log2_max_pic_order_cnt_lsb_minus4 = 4 := Except.ok.inj hlog
  omega

end Penflow
