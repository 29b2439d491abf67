import Penflow.Encoder.MfSession
import Penflow.Encoder.PacketNals

/-!
# The keyframe detector

`firstNalIsIdr` has a start code scanner of its own, with another bound on its loop than the splitter
and a skip over each NAL header.  On packets whose NALs have their headers it sees what the splitter
sees (`firstNalIsIdr_iff`), and patching a packet does not change its answer.
-/

namespace Penflow

open AnnexB

/-- Every NAL the splitter reports is long enough for its header. -/
def CompleteHeaders (codec : Codec) (bytes : List UInt8) : Prop :=
  ∀ x ∈ reportedNals codec.splitNals bytes, codec.headerLen ≤ x.2.length

/-- What the first VCL NAL of several says. -/
def firstVclIsIdr (codec : Codec) (nals : List (UInt8 × List UInt8)) : Bool :=
  (nals.find? fun x => codec.isVcl x.1).any fun x => codec.isIdr x.1

/-! ### The scanner -/

theorem startCodeEnd_code (a : List UInt8) (u : Nal) (t : List UInt8) :
    startCodeEnd (a ++ (u.code ++ t)) a.length = some (a.length + u.code.length) := by
  rw [startCodeEnd, List.drop_left]
  exact scan_code u t (fun k => some (a.length + k)) none

theorem startCodeEnd_free (a : List UInt8) {b : UInt8} {p : List UInt8} {us : List Nal}
    (h : Tight (b :: p) us) : startCodeEnd (a ++ b :: join p us) a.length = none := by
  rw [startCodeEnd, List.drop_left]
  exact scan_free h _ _ none

/-- One turn where no code begins. -/
theorem firstNalIsIdrFrom_byte (codec : Codec) (fuel : ℕ) (a : List UInt8) {b : UInt8} {p : List UInt8}
    {us : List Nal} (h : Tight (b :: p) us) (hroom : a.length + 3 < (a ++ b :: join p us).length) :
    firstNalIsIdrFrom codec (a ++ b :: join p us) (fuel + 1) a.length =
      firstNalIsIdrFrom codec (a ++ b :: join p us) fuel (a.length + 1) := by
  rw [firstNalIsIdrFrom, if_pos hroom, startCodeEnd_free a h]

/-- One turn at a unit: the byte behind its code says what it is. -/
theorem firstNalIsIdrFrom_unit (codec : Codec) (fuel : ℕ) (a : List UInt8) (u : Nal) (us : List Nal)
    (hroom : a.length + 3 < (a ++ (u.code ++ join u.payload us)).length) :
    firstNalIsIdrFrom codec (a ++ (u.code ++ join u.payload us)) (fuel + 1) a.length =
      match (join u.payload us).head? with
      | none => false
      | some b =>
        if codec.isVcl (codec.nalType b) then codec.isIdr (codec.nalType b)
        else firstNalIsIdrFrom codec (a ++ (u.code ++ join u.payload us)) fuel
          (a.length + u.code.length + codec.headerLen) := by
  have hbyte : (a ++ (u.code ++ join u.payload us))[a.length + u.code.length]? =
      (join u.payload us).head? := by
    rw [← List.append_assoc, ← List.length_append, List.getElem?_append_right (Nat.le_refl _),
      Nat.sub_self, List.head?_eq_getElem?]
  rw [firstNalIsIdrFrom, if_pos hroom, startCodeEnd_code]
  cases hhead : (join u.payload us).head? with
  | none => simp only [hbyte, hhead]
  | some b => simp only [hbyte, hhead]

/-- The header of a unit stands in front of the rest of its payload. -/
theorem join_header {codec : Codec} {u : Nal} (us : List Nal) (hlen : codec.headerLen ≤ u.payload.length) :
    join u.payload us = u.payload.take codec.headerLen ++ join (u.payload.drop codec.headerLen) us ∧
      (u.payload.take codec.headerLen).length = codec.headerLen := by
  constructor
  · rw [← join_append, List.take_append_drop]
  · exact List.length_take_of_le hlen

/-- **The scanner on a tight stream.**  It goes from unit to unit, over the header of each. -/
theorem firstNalIsIdrFrom_join (codec : Codec) (fuel : ℕ) (a p : List UInt8) (us : List Nal)
    (h : Tight p us) (hfuel : (join p us).length ≤ fuel)
    (hcomplete : ∀ x ∈ unitNals codec.nalType us, codec.headerLen ≤ x.2.length) :
    firstNalIsIdrFrom codec (a ++ join p us) fuel a.length =
      firstVclIsIdr codec (unitNals codec.nalType us) := by
  induction fuel generalizing a p us with
  | zero =>
      cases us with
      | nil => rfl
      | cons u us =>
          have := three_le_join_length p u us
          omega
  | succ fuel ih =>
      cases p with
      | cons b p =>
          rw [join_pre_cons] at hfuel ⊢
          by_cases hroom : a.length + 3 < (a ++ b :: join p us).length
          · rw [firstNalIsIdrFrom_byte codec fuel a h hroom]
            have hnext := ih (a ++ [b]) p us h.tail (Nat.le_of_succ_le_succ hfuel) hcomplete
            rw [List.append_assoc, List.length_append, List.length_singleton] at hnext
            exact hnext
          · rw [firstNalIsIdrFrom, if_neg hroom]
            cases us with
            | nil => rfl
            | cons u us =>
                have := three_le_join_length p u us
                simp only [List.length_append, List.length_cons] at hroom
                omega
      | nil =>
          cases us with
          | nil =>
              rw [firstNalIsIdrFrom, if_neg (by simp)]
              rfl
          | cons u us =>
              rw [join_cons, List.nil_append] at hfuel ⊢
              rw [unitNals] at hcomplete ⊢
              have hcode := three_le_code_length u
              cases hhead : (join u.payload us).head? with
              | none =>
                  -- the code that ends the packet
                  obtain rfl := join_head_eq_none hhead
                  by_cases hroom : a.length + 3 < (a ++ (u.code ++ join u.payload [])).length
                  · rw [firstNalIsIdrFrom_unit codec fuel a u [] hroom, hhead]
                    rfl
                  · rw [firstNalIsIdrFrom, if_neg hroom]
                    rfl
              | some b =>
                  rw [hhead] at hcomplete
                  have hlen : codec.headerLen ≤ u.payload.length := hcomplete _ List.mem_cons_self
                  have hpos : 1 ≤ codec.headerLen := by cases codec <;> decide
                  obtain ⟨hsplit, hheader⟩ := join_header us hlen
                  have hroom : a.length + 3 < (a ++ (u.code ++ join u.payload us)).length := by
                    rw [hsplit]
                    simp only [List.length_append, hheader]
                    omega
                  rw [firstNalIsIdrFrom_unit codec fuel a u us hroom, hhead]
                  show (if codec.isVcl (codec.nalType b) then _ else _) = _
                  rw [firstVclIsIdr, List.find?_cons]
                  by_cases hvcl : codec.isVcl (codec.nalType b) = true
                  · rw [if_pos hvcl, hvcl]
                    rfl
                  · rw [if_neg hvcl, Bool.eq_false_iff.2 hvcl]
                    have hless : (join (u.payload.drop codec.headerLen) us).length ≤ fuel := by
                      rw [hsplit] at hfuel
                      simp only [List.length_append] at hfuel
                      omega
                    have hnext := ih (a ++ u.code ++ u.payload.take codec.headerLen)
                      (u.payload.drop codec.headerLen) us (h.2.drop _) hless fun x hx =>
                        hcomplete x (List.mem_cons_of_mem _ hx)
                    rw [List.append_assoc, List.append_assoc, ← hsplit, List.length_append,
                      List.length_append, hheader] at hnext
                    exact hnext

theorem firstNalIsIdr_eq {codec : Codec} {bytes : List UInt8} (h : CompleteHeaders codec bytes) :
    firstNalIsIdr bytes codec = firstVclIsIdr codec (reportedNals codec.splitNals bytes) := by
  obtain ⟨p, us, htight, rfl⟩ := exists_tight bytes
  rw [CompleteHeaders, reportedNals_codec codec htight] at h
  rw [reportedNals_codec codec htight]
  exact firstNalIsIdrFrom_join codec _ [] p us htight (Nat.le_refl _) h

/-! ### A patched packet -/

section Patched

variable [BuildProfile]

/-- A rewritten SPS has a body. -/
theorem patchSpsRbsp_ne_nil {codec : Codec} {rbsp body : List UInt8}
    (h : patchSpsRbsp codec rbsp = .ok body) : body ≠ [] := by
  rintro rfl
  cases codec with
  | h264 =>
      obtain ⟨r, bs, s, -, hbits, k, -, rfl⟩ := Walk.rewriteRbsp_eq_ok h
      cases bs <;> cases hbits
  | hevc =>
      obtain ⟨hlen, htake⟩ := patchHevcSpsRbsp_take_two h
      have := congrArg List.length htake
      rw [List.take_nil, List.length_take_of_le hlen] at this
      cases this

/-- An SPS keeps its header when it is rewritten. -/
theorem SpsRewritten.headerLen_le {codec : Codec} {payload payload' : List UInt8}
    (h : SpsRewritten codec payload payload') (hlen : codec.headerLen ≤ payload.length) :
    codec.headerLen ≤ payload'.length := by
  obtain ⟨body, z, hbody, hz, heq⟩ := h
  have hlength := congrArg List.length heq
  have hescape : 1 ≤ (rbspEscape body).length := by
    obtain ⟨b, t, rfl⟩ := List.exists_cons_of_ne_nil (patchSpsRbsp_ne_nil hbody)
    have hhead := rbspEscape_head (b :: t)
    cases hbytes : rbspEscape (b :: t) with
    | nil =>
        rw [hbytes] at hhead
        cases hhead
    | cons c s => exact Nat.succ_le_succ (Nat.zero_le _)
  rw [List.length_append, List.length_append, List.length_take_of_le hlen] at hlength
  rcases hz with rfl | rfl
  · rw [List.length_nil] at hlength
    omega
  · rw [List.length_singleton] at hlength
    omega

theorem NalsPatched.complete {codec : Codec} {xs ys : List (UInt8 × List UInt8)}
    (h : NalsPatched codec xs ys) (hx : ∀ x ∈ xs, codec.headerLen ≤ x.2.length) :
    ∀ y ∈ ys, codec.headerLen ≤ y.2.length := by
  induction h with
  | nil => exact hx
  | stop hshort => exact hx
  | pass hlen ht h ih =>
      rw [List.forall_mem_cons] at hx ⊢
      exact ⟨hlen, ih hx.2⟩
  | sps hlen ht hpayload h ih =>
      rw [List.forall_mem_cons] at hx ⊢
      exact ⟨hpayload.headerLen_le hlen, ih hx.2⟩

end Patched

theorem firstVclIsIdr_types (codec : Codec) (nals : List (UInt8 × List UInt8)) :
    firstVclIsIdr codec nals = ((nals.map Prod.fst).find? codec.isVcl).any codec.isIdr := by
  rw [firstVclIsIdr, List.find?_map, Option.any_map]
  rfl

/-- **The detector and the splitter.**  On a packet whose NALs have their headers, the detector says
what the first VCL NAL the splitter reports says, and says it again of the patched packet. -/
theorem firstNalIsIdr_iff [BuildProfile] {codec : Codec} {bytes : List UInt8}
    (h : CompleteHeaders codec bytes) :
    (firstNalIsIdr bytes codec = true ↔
        ∃ x, (reportedNals codec.splitNals bytes).find? (fun x => codec.isVcl x.1) = some x ∧
          codec.isIdr x.1 = true) ∧
      ∀ out, patchPacketForLowLatencyDpb codec bytes = .ok out →
        firstNalIsIdr out codec = firstNalIsIdr bytes codec := by
  refine ⟨?_, fun out hout => ?_⟩
  · rw [firstNalIsIdr_eq h, firstVclIsIdr, Option.any_eq_true]
  · have hpatched := (patchPacket_nalsPatched hout).1
    have hcomplete : CompleteHeaders codec out := hpatched.complete h
    rw [firstNalIsIdr_eq h, firstNalIsIdr_eq hcomplete, firstVclIsIdr_types, firstVclIsIdr_types,
      hpatched.types]

/-- An access unit delimiter, an SPS, a PPS and an IDR slice. -/
theorem firstNalIsIdr_iff_keyframe :
    letI : BuildProfile := ⟨true⟩
    let packet : List UInt8 := [0, 0, 0, 1, 9, 240, 0, 0, 0, 1, 103, 66, 192, 31, 208, 169, 153, 148,
      5, 0, 91, 176, 22, 136, 0, 0, 31, 72, 0, 7, 83, 4, 120, 177, 108, 176, 0, 0, 1, 104, 206, 60, 128,
      0, 0, 1, 101, 136]
    let out : List UInt8 := [0, 0, 0, 1, 9, 240, 0, 0, 0, 1, 103, 66, 192, 31, 208, 169, 153, 160, 20,
      1, 110, 192, 91, 128, 128, 128, 160, 0, 0, 125, 32, 0, 29, 76, 17, 225, 16, 141, 64, 0, 0, 1,
      104, 206, 60, 128, 0, 0, 1, 101, 136]
    firstNalIsIdr packet .h264 = true ∧ firstNalIsIdr out .h264 = true := by
  let _ : BuildProfile := ⟨true⟩
  intro packet out
  have hcomplete : CompleteHeaders .h264 packet := by
    have hall : (reportedNals Codec.h264.splitNals packet).all
        (fun x => Codec.h264.headerLen ≤ x.2.length) = true := by decide +kernel
    simpa [CompleteHeaders, List.all_eq_true] using hall
  have hnals : (reportedNals Codec.h264.splitNals packet).find? (fun x => Codec.h264.isVcl x.1) =
      some (5, [101, 136]) := by decide +kernel
  obtain ⟨hiff, hsame⟩ := firstNalIsIdr_iff hcomplete
  have hidr : firstNalIsIdr packet .h264 = true := hiff.2 ⟨_, hnals, by decide⟩
  exact ⟨hidr, (hsame out (by decide +kernel)).trans hidr⟩

end Penflow
