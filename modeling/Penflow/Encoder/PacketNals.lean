import Penflow.Encoder.PatchPacket
import Mathlib.Data.List.Forall2

/-!
# What a patched packet reads as

The NALs the protocol's splitter reports on a packet, before and after the patcher.  `NalsPatched`
relates the two reports: one NAL for one NAL, types unchanged, payloads unchanged except where the
patcher rewrote an SPS, and nothing changed from the first NAL on that is too short for its header.
-/

namespace Penflow

open AnnexB

variable [BuildProfile]

/-- The bytes before the first start code. -/
def beforeStartCodes (bytes : List UInt8) : List UInt8 :=
  match scanStartCode bytes 0 with
  | none => bytes
  | some (sc_len, payload_off) => bytes.take (payload_off - sc_len)

/-- `payload'` is the header of `payload` and the escaped rewrite of its body, of which a zero at the
end may count to the next start code. -/
def SpsRewritten (codec : Codec) (payload payload' : List UInt8) : Prop :=
  ∃ body z, patchSpsRbsp codec (rbspUnescape (payload.drop codec.headerLen)) = .ok body ∧
    (z = [] ∨ z = [0]) ∧ payload' ++ z = payload.take codec.headerLen ++ rbspEscape body

/-- How the NALs of a patched packet relate to those of the packet; a NAL is a type and a payload. -/
inductive NalsPatched (codec : Codec) :
    List (UInt8 × List UInt8) → List (UInt8 × List UInt8) → Prop where
  | nil : NalsPatched codec [] []
  /-- A NAL too short for its header, and everything behind it. -/
  | stop {t payload nals} (hshort : payload.length < codec.headerLen) :
      NalsPatched codec ((t, payload) :: nals) ((t, payload) :: nals)
  | pass {t payload nals nals'} (hlen : codec.headerLen ≤ payload.length) (ht : t ≠ codec.spsType)
      (h : NalsPatched codec nals nals') :
      NalsPatched codec ((t, payload) :: nals) ((t, payload) :: nals')
  | sps {t payload payload' nals nals'} (hlen : codec.headerLen ≤ payload.length)
      (ht : t = codec.spsType) (hpayload : SpsRewritten codec payload payload')
      (h : NalsPatched codec nals nals') :
      NalsPatched codec ((t, payload) :: nals) ((t, payload') :: nals')

/-! ### The report on units -/

omit [BuildProfile] in
theorem reportedNals_codec (codec : Codec) {p : List UInt8} {us : List Nal} (h : Tight p us) :
    reportedNals codec.splitNals (join p us) = unitNals codec.nalType us := by
  cases codec
  · exact reportedNals_join h264NalType h
  · exact reportedNals_join hevcNalType h

omit [BuildProfile] in
theorem beforeStartCodes_join {p : List UInt8} {us : List Nal} (h : Tight p us) :
    beforeStartCodes (join p us) = p := by
  have hscan := scanStartCode_join [] p us h
  rw [List.nil_append, List.length_nil, Nat.zero_add] at hscan
  rw [beforeStartCodes, hscan]
  cases us with
  | nil => simp
  | cons u us =>
      simp only [List.head?_cons, Option.map_some, Nat.add_sub_cancel]
      rw [join_cons, List.take_left]

omit [BuildProfile] in
/-- The report does not depend on which of the two start codes a unit has. -/
theorem unitNals_settled (f : UInt8 → UInt8) (q : List UInt8) (u : Nal) (us : List Nal) :
    unitNals f (settle q (u :: us)).2 =
      match (join u.payload us).head? with
      | none => unitNals f (settle u.payload us).2
      | some b => (f b, (settle u.payload us).1) :: unitNals f (settle u.payload us).2 := by
  obtain ⟨long, hsnd⟩ := settle_snd q u us
  rw [hsnd, unitNals]
  cases hhead : (join u.payload us).head? with
  | none => simp only [join_settle, hhead]
  | some b => simp only [join_settle, hhead]

/-- The code behind an unchanged payload is the code that was behind it. -/
theorem settle_fst_patched {codec : Codec} {p : List UInt8} {us us' : List Nal}
    (h : patchUnits codec us = .ok us') (htight : Tight p us) : (settle p us').1 = p := by
  cases us with
  | nil =>
      cases h
      rfl
  | cons u us =>
      rw [patchUnits] at h
      split at h
      · cases h
        rw [settle_of_free us htight.1]
      · obtain ⟨payload, -, h⟩ := Outcome.bind_eq_ok.1 h
        obtain ⟨rest, -, hret⟩ := Outcome.bind_eq_ok.1 h
        cases hret
        have hcode : Nal.code ⟨u.long, payload⟩ = u.code := rfl
        rw [settle_of_free rest (hcode ▸ htight.1)]

theorem unitNals_patched {codec : Codec} {us us' : List Nal} (h : patchUnits codec us = .ok us')
    (htight : Tight [] us) (q : List UInt8) :
    NalsPatched codec (unitNals codec.nalType us) (unitNals codec.nalType (settle q us').2) := by
  induction us generalizing us' q with
  | nil =>
      cases h
      exact .nil
  | cons u us ih =>
      rw [patchUnits] at h
      by_cases hshort : u.payload.length < codec.headerLen
      · rw [if_pos hshort] at h
        cases h
        rw [unitNals_settled, settle_of_tight htight.2, unitNals]
        cases hhead : (join u.payload us).head? with
        | none =>
            obtain rfl := join_head_eq_none hhead
            exact .nil
        | some b => exact .stop hshort
      · rw [if_neg hshort] at h
        have hlen := Nat.not_lt.1 hshort
        obtain ⟨payload, hpayload, h⟩ := Outcome.bind_eq_ok.1 h
        obtain ⟨rest, hrest, hret⟩ := Outcome.bind_eq_ok.1 h
        cases hret
        have hnext := ih hrest htight.2.nil payload
        obtain ⟨b, hb⟩ : ∃ b, u.payload.head? = some b := by
          cases hp : u.payload with
          | nil =>
              rw [hp] at hlen
              cases codec <;> exact absurd hlen (by simp [Codec.headerLen])
          | cons b t => exact ⟨b, rfl⟩
        have hb' := (patchPayload_head hlen hpayload).trans hb
        rw [unitNals_settled, unitNals, join_head us hb, join_head rest hb']
        rw [patchPayload, hb, Option.map_some] at hpayload
        by_cases hsps : some (codec.nalType b) ≠ some codec.spsType
        · rw [if_pos hsps] at hpayload
          cases hpayload
          rw [settle_fst_patched hrest htight.2]
          exact .pass hlen (fun ht => hsps (congrArg some ht)) hnext
        · rw [if_neg hsps] at hpayload
          obtain ⟨body, hbody, hret⟩ := Outcome.bind_eq_ok.1 hpayload
          cases hret
          obtain ⟨z, hz, hsettle⟩ := settle_fst (u.payload.take codec.headerLen ++ rbspEscape body) rest
          exact .sps hlen (Option.some.inj (not_not.1 hsps)) ⟨body, z, hbody, hz, hsettle⟩ hnext

/-! ### Packets -/

/-- **The report of a patched packet.** -/
theorem patchPacket_nalsPatched {codec : Codec} {bytes out : List UInt8}
    (h : patchPacketForLowLatencyDpb codec bytes = .ok out) :
    NalsPatched codec (reportedNals codec.splitNals bytes) (reportedNals codec.splitNals out) ∧
      beforeStartCodes out = beforeStartCodes bytes := by
  obtain ⟨p, us, htight, rfl⟩ := exists_tight bytes
  rw [patchPacket_join codec htight] at h
  cases hus : patchUnits codec us with
  | error e =>
      rw [hus] at h
      cases h
  | ok us' =>
      rw [hus] at h
      obtain rfl : join p us' = out := Except.ok.inj h
      obtain ⟨hp, hpayloads⟩ := htight.free
      have hsettled := tight_settle hp (patchUnits_free hus hpayloads)
      have hfst := settle_fst_patched hus htight
      rw [reportedNals_codec codec htight, beforeStartCodes_join htight, ← join_settle p us',
        reportedNals_codec codec hsettled, beforeStartCodes_join hsettled]
      exact ⟨unitNals_patched hus htight.nil p, hfst⟩

theorem NalsPatched.types {codec : Codec} {xs ys : List (UInt8 × List UInt8)}
    (h : NalsPatched codec xs ys) : ys.map Prod.fst = xs.map Prod.fst := by
  induction h with
  | nil => rfl
  | stop hshort => rfl
  | pass hlen ht h ih => rw [List.map_cons, List.map_cons, ih]
  | sps hlen ht hpayload h ih => rw [List.map_cons, List.map_cons, ih]

theorem NalsPatched.others {codec : Codec} {xs ys : List (UInt8 × List UInt8)}
    (h : NalsPatched codec xs ys) :
    List.Forall₂ (fun x y => x.1 ≠ codec.spsType → y = x) xs ys := by
  induction h with
  | nil => exact .nil
  | stop hshort => exact List.forall₂_same.2 fun x _ _ => rfl
  | pass hlen ht h ih => exact .cons (fun _ => rfl) ih
  | sps hlen ht hpayload h ih => exact .cons (fun hne => absurd ht hne) ih

/-- Without an SPS to rewrite the patcher copies every unit. -/
theorem patchUnits_of_no_sps {codec : Codec} {us : List Nal}
    (h : ∀ x ∈ unitNals codec.nalType us, x.1 ≠ codec.spsType) : patchUnits codec us = .ok us := by
  induction us with
  | nil => rfl
  | cons u us ih =>
      rw [patchUnits]
      by_cases hshort : u.payload.length < codec.headerLen
      · rw [if_pos hshort]
      · rw [if_neg hshort]
        cases hp : u.payload with
        | nil =>
            rw [hp] at hshort
            exact absurd (by cases codec <;> decide) hshort
        | cons b t =>
            rw [unitNals, join_head us (by rw [hp]; rfl), hp] at h
            have hb : codec.nalType b ≠ codec.spsType := h _ List.mem_cons_self
            have hpatch : patchPayload codec (b :: t) = .ok (b :: t) :=
              if_pos fun heq => hb (Option.some.inj heq)
            rw [hpatch, ih fun x hx => h x (List.mem_cons_of_mem _ hx), ← hp]
            rfl

/-- **A packet is preserved except for its SPS NALs.**  The types reported stay, the bytes before the
first start code stay, and so does every payload that is not an SPS; an SPS the patcher gets to keeps
its header in front of its escaped rewrite; and without an SPS the packet comes out as it is. -/
theorem patchPacket_preserves {codec : Codec} {bytes out : List UInt8}
    (h : patchPacketForLowLatencyDpb codec bytes = .ok out) :
    (reportedNals codec.splitNals out).map Prod.fst =
        (reportedNals codec.splitNals bytes).map Prod.fst ∧
      beforeStartCodes out = beforeStartCodes bytes ∧
      List.Forall₂ (fun x y => x.1 ≠ codec.spsType → y = x)
        (reportedNals codec.splitNals bytes) (reportedNals codec.splitNals out) ∧
      NalsPatched codec (reportedNals codec.splitNals bytes) (reportedNals codec.splitNals out) ∧
      ((∀ x ∈ reportedNals codec.splitNals bytes, x.1 ≠ codec.spsType) → out = bytes) := by
  obtain ⟨hpatched, hbefore⟩ := patchPacket_nalsPatched h
  refine ⟨hpatched.types, hbefore, hpatched.others, hpatched, fun hno => ?_⟩
  obtain ⟨p, us, htight, rfl⟩ := exists_tight bytes
  rw [reportedNals_codec codec htight] at hno
  rw [patchPacket_join codec htight, patchUnits_of_no_sps hno] at h
  exact (Except.ok.inj h).symm

omit [BuildProfile] in
/-- An access unit delimiter, an SPS and a PPS. -/
theorem patchPacket_preserves_packet :
    letI : BuildProfile := ⟨true⟩
    let packet : List UInt8 := [0, 0, 0, 1, 9, 240, 0, 0, 0, 1, 103, 66, 192, 31, 208, 169, 153, 148,
      5, 0, 91, 176, 22, 136, 0, 0, 31, 72, 0, 7, 83, 4, 120, 177, 108, 176, 0, 0, 1, 104, 206, 60, 128]
    let out : List UInt8 := [0, 0, 0, 1, 9, 240, 0, 0, 0, 1, 103, 66, 192, 31, 208, 169, 153, 160, 20,
      1, 110, 192, 91, 128, 128, 128, 160, 0, 0, 125, 32, 0, 29, 76, 17, 225, 16, 141, 64, 0, 0, 1,
      104, 206, 60, 128]
    patchPacketForLowLatencyDpb .h264 packet = .ok out ∧
      NalsPatched .h264 (reportedNals splitH264Nals packet) (reportedNals splitH264Nals out) :=
  letI : BuildProfile := ⟨true⟩
  ⟨by decide +kernel, (patchPacket_preserves (by decide +kernel)).2.2.2.1⟩

/-- Everything before the first NAL that is too short for its header is rewritten. -/
theorem NalsPatched.rewrites_iff {codec : Codec} {xs ys : List (UInt8 × List UInt8)}
    (h : NalsPatched codec xs ys) :
    List.Forall₂ (fun x y => x.1 = codec.spsType → codec.headerLen ≤ x.2.length →
        SpsRewritten codec x.2 y.2) xs ys ↔
      ∀ x ∈ xs.dropWhile fun x => codec.headerLen ≤ x.2.length,
        x.1 = codec.spsType → codec.headerLen ≤ x.2.length → SpsRewritten codec x.2 x.2 := by
  induction h with
  | nil => simp
  | stop hshort => rw [List.forall₂_same, List.dropWhile_cons_of_neg (by simpa using hshort)]
  | pass hlen ht _ ih =>
      rw [List.forall₂_cons, List.dropWhile_cons_of_pos (by simpa using hlen), ← ih]
      exact and_iff_right fun heq => absurd heq ht
  | sps hlen ht hpayload _ ih =>
      rw [List.forall₂_cons, List.dropWhile_cons_of_pos (by simpa using hlen), ← ih]
      exact and_iff_right fun _ _ => hpayload

/-- **When every SPS is rewritten.**  The patcher stops at the first NAL that is too short for its
header, so exactly the SPS NALs behind it are left as they are. -/
theorem patchPacket_rewrites_iff {codec : Codec} {bytes out : List UInt8}
    (h : patchPacketForLowLatencyDpb codec bytes = .ok out) :
    List.Forall₂ (fun x y => x.1 = codec.spsType → codec.headerLen ≤ x.2.length →
        SpsRewritten codec x.2 y.2)
        (reportedNals codec.splitNals bytes) (reportedNals codec.splitNals out) ↔
      ∀ x ∈ (reportedNals codec.splitNals bytes).dropWhile fun x => codec.headerLen ≤ x.2.length,
        x.1 = codec.spsType → codec.headerLen ≤ x.2.length → SpsRewritten codec x.2 x.2 :=
  (patchPacket_nalsPatched h).1.rewrites_iff

omit [BuildProfile] in
/-- No NAL of this packet is short, and its SPS is rewritten. -/
theorem patchPacket_rewrites_iff_packet :
    letI : BuildProfile := ⟨true⟩
    let packet : List UInt8 := [0, 0, 0, 1, 103, 66, 192, 31, 208, 169, 153, 148, 5, 0, 91, 176, 22,
      136, 0, 0, 31, 72, 0, 7, 83, 4, 120, 177, 108, 176]
    let out : List UInt8 := [0, 0, 0, 1, 103, 66, 192, 31, 208, 169, 153, 160, 20, 1, 110, 192, 91, 128,
      128, 128, 160, 0, 0, 125, 32, 0, 29, 76, 17, 225, 16, 141, 64]
    List.Forall₂ (fun x y => x.1 = Codec.h264.spsType → Codec.h264.headerLen ≤ x.2.length →
      SpsRewritten .h264 x.2 y.2) (reportedNals splitH264Nals packet) (reportedNals splitH264Nals out) :=
  letI : BuildProfile := ⟨true⟩
  (patchPacket_rewrites_iff (by decide +kernel)).2 fun x hx => by
    have hnone : (reportedNals Codec.h264.splitNals [0, 0, 0, 1, 103, 66, 192, 31, 208, 169, 153, 148,
        5, 0, 91, 176, 22, 136, 0, 0, 31, 72, 0, 7, 83, 4, 120, 177, 108, 176]).dropWhile
        (fun x => Codec.h264.headerLen ≤ x.2.length) = [] := by decide +kernel
    rw [hnone] at hx
    cases hx

omit [BuildProfile] in
/-- **An SPS behind an empty NAL keeps its values.**  The packet comes out as it went in, and the SPS in
it is not its own rewrite. -/
theorem patchPacket_copies_sps :
    letI : BuildProfile := ⟨true⟩
    let packet : List UInt8 := [0, 0, 1, 0, 0, 1, 103, 66, 192, 31, 208, 169, 153, 148, 5, 0, 91, 176,
      22, 136, 0, 0, 31, 72, 0, 7, 83, 4, 120, 177, 108, 176]
    patchPacketForLowLatencyDpb .h264 packet = .ok packet ∧
      ¬ List.Forall₂ (fun x y => x.1 = Codec.h264.spsType → Codec.h264.headerLen ≤ x.2.length →
        SpsRewritten .h264 x.2 y.2) (reportedNals splitH264Nals packet)
        (reportedNals splitH264Nals packet) := by
  let _ : BuildProfile := ⟨true⟩
  intro packet
  let sps : List UInt8 := [103, 66, 192, 31, 208, 169, 153, 148, 5, 0, 91, 176, 22, 136, 0, 0, 31, 72,
    0, 7, 83, 4, 120, 177, 108, 176]
  let body : List UInt8 := [66, 192, 31, 208, 169, 153, 160, 20, 1, 110, 192, 91, 128, 128, 128, 160,
    0, 0, 125, 32, 0, 29, 76, 17, 225, 16, 141, 64]
  have hnals : reportedNals splitH264Nals packet = [(0, []), (7, sps)] := by decide +kernel
  have hbody : patchSpsRbsp .h264 (rbspUnescape (sps.drop 1)) = .ok body := by decide +kernel
  refine ⟨by decide +kernel, fun hall => ?_⟩
  rw [hnals, List.forall₂_same] at hall
  obtain ⟨b, z, hb, hz, heq⟩ := hall (7, sps) (by simp) rfl (by decide)
  obtain rfl : b = body := Except.ok.inj (hb.symm.trans hbody)
  have hlen := congrArg List.length heq
  rw [show (List.take Codec.h264.headerLen sps ++ rbspEscape body).length = 29 from by decide +kernel,
    List.length_append, show sps.length = 26 from rfl] at hlen
  rcases hz with rfl | rfl <;> simp at hlen

end Penflow
