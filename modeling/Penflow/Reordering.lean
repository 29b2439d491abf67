import Penflow.Downlink
import Penflow.Server.ParameterSets

/-!
# Nothing is reordered

What the SPS patcher is for, from the encoder on the PC to the decoder on the tablet: the decoder is made with the
parameter sets of a packet that the encoder returned, in which every SPS says that no picture is held back
(`decoder_no_reordering`).
-/

namespace Penflow

/-- An SPS that says that no picture is held back, but for zeros at its end. -/
def SpsNoReordering (codec : Codec) (payload : List UInt8) : Prop :=
  ∃ header body, header.length = codec.headerLen ∧ Trimmed (header ++ rbspEscape body) payload ∧
    NoReordering codec body

theorem spsNoReordering_of_standsFor {codec : Codec} {xs ys : List (UInt8 × List UInt8)}
    (h : List.Forall₂ (StandsFor codec) xs ys) (hwhole : ∀ x ∈ xs, codec.headerLen ≤ x.2.length) :
    ∀ y ∈ ys, y.1 = codec.spsType → SpsNoReordering codec y.2 := by
  induction h with
  | nil =>
      intro y hy
      cases hy
  | @cons x y xs ys hxy _ ih =>
      intro z hz hsps
      rcases List.mem_cons.1 hz with rfl | hz
      · obtain ⟨body, hbody, htrimmed⟩ := hxy.2.2 (hxy.1.symm.trans hsps)
        exact ⟨_, body, List.length_take_of_le (hwhole x List.mem_cons_self), htrimmed, hbody.noReordering⟩
      · exact ih (fun x hx => hwhole x (List.mem_cons_of_mem _ hx)) z hz hsps

namespace Downlink

variable [BuildProfile] {c : StreamConfig} {hud : Bool} {pts_epoch : ℕ}

/-- **Nothing is reordered.**  In every run in which the transform keeps its promise, the session cuts no frame and the
packets fit their frames, the tablet makes its decoder with the parameter sets of the packet that one output of the
transform became, and the first frame fed is this packet.  Where the patcher took the output and every NAL of it has a
whole header, the NALs of csd-0 stand for the parameter sets of the output, one for one and in order, and each SPS
among them says that no picture is held back. -/
theorem decoder_no_reordering (hcodec : c.session.codec = c.encode.codec) {es : List DownlinkEvent}
    (h : Run.Steps (step c hud) (Sound c) (start c pts_epoch) es) {dec : Client.Decoder}
    (hdec : (after c hud pts_epoch es).client.decoder = some dec) :
    let codec := c.session.codec
    ∃ sample ∈ (after c hud pts_epoch es).streaming.encoding.outputs, ∃ bytes,
      MfSession.patchedBytes codec sample.bytes = .ok bytes ∧ dec.csd0 = c.session.csd0 bytes ∧
        (∀ fed ∈ dec.fed.head?, fed.2 = (bytes, true)) ∧
        (patchPacketForLowLatencyDpb codec sample.bytes = .ok bytes →
          (∀ x ∈ reportedNals codec.splitNals sample.bytes, codec.headerLen ≤ x.2.length) →
            List.Forall₂ (StandsFor codec)
              ((reportedNals codec.splitNals sample.bytes).filter fun x => x.1 ∈ codec.parameterTypes)
              (reportedNals codec.splitNals dec.csd0) ∧
            ∀ y ∈ reportedNals codec.splitNals dec.csd0, y.1 = codec.spsType → SpsNoReordering codec y.2) := by
  intro codec
  have hagreement : (after c hud pts_epoch es).Agreement c pts_epoch := h.invariant step_agreement start_agreement
  have hinv := hagreement.streaming
  obtain ⟨first, rest, htaken, hcsd0, hfed⟩ := decoder_fed hagreement.link hdec
  have hreturned := hinv.taken_returned
  rw [htaken] at hreturned
  -- the first packet is made of an output
  have hmade : (Except.ok first.bytes : Outcome (List UInt8)) ∈
      (after c hud pts_epoch es).streaming.encoding.returned.map fun pkt => Except.ok pkt.bytes :=
    List.mem_map.2 ⟨first, hreturned.subset List.mem_cons_self, rfl⟩
  rw [hinv.kept.bytes] at hmade
  obtain ⟨sample, hsample, hbytes⟩ := List.mem_map.1 hmade
  rw [← hcodec] at hbytes
  refine ⟨sample, List.mem_of_mem_take hsample, first.bytes, hbytes, hcsd0, ?_, ?_⟩
  · intro fed hhead
    obtain ⟨tail, htail⟩ := List.head?_eq_some_iff.1 hhead
    rw [htail] at hfed
    obtain rfl := (List.cons_prefix_cons.1 hfed).1
    rfl
  · intro hout hwhole
    have hstands := csd0_patched hout hwhole
    rw [← hcsd0] at hstands
    refine ⟨hstands, spsNoReordering_of_standsFor hstands ?_⟩
    intro x hx
    exact hwhole x (List.mem_filter.1 hx).1

/-- A baseline SPS that allows reordering, a PPS and a slice. -/
def reorderingSample : OutputSample where
  bytes := [0, 0, 0, 1, 103, 66, 192, 31, 208, 169, 153, 148, 5, 0, 91, 176, 22, 136, 0, 0, 31, 72, 0, 7, 83, 4, 120,
    177, 108, 176, 0, 0, 1, 104, 206, 60, 128, 0, 0, 1, 101, 136]
  sample_time := none

/-- The sample as the patcher returns it. -/
def patchedSample : List UInt8 :=
  [0, 0, 0, 1, 103, 66, 192, 31, 208, 169, 153, 160, 20, 1, 110, 192, 91, 128, 128, 128, 160, 0, 0, 125, 32, 0, 29, 76,
    17, 225, 16, 141, 64, 0, 0, 1, 104, 206, 60, 128, 0, 0, 1, 101, 136]

/-- The sample, up to the decoder. -/
def reorderingFed : List DownlinkEvent :=
  (Streaming.oneFrame 7 reorderingSample ++
    ([.popTurn false, .keyframe false, .write 16, .write 9, .write 45, .write 59, .flush true,
      .enterSelect .framePump] : List Event).map fun e => StreamEvent.session e 0 0).map .stream ++
    [.recv, .recv, .recv, .surfaceReady, .recv]

omit [BuildProfile] in
theorem decoder_no_reordering_h264 :
    letI : BuildProfile := ⟨true⟩
    ∃ dec, (after (.fullHd none none) false 0 reorderingFed).client.decoder = some dec ∧
      (reportedNals splitH264Nals dec.csd0).map Prod.fst = [7, 8] ∧
      ∀ y ∈ reportedNals splitH264Nals dec.csd0, y.1 = 7 → SpsNoReordering .h264 y.2 := by
  have hsteps : @Run.Steps _ _ (@step (.fullHd none none) false ⟨true⟩) (@Sound (.fullHd none none) ⟨true⟩)
      (start (.fullHd none none) 0) reorderingFed := by
    decide +kernel
  have hcsd0 : (@after (.fullHd none none) false ⟨true⟩ 0 reorderingFed).client.decoder.map
      (fun dec => (reportedNals splitH264Nals dec.csd0).map Prod.fst) = some [7, 8] := by
    decide +kernel
  have houtputs : (@after (.fullHd none none) false ⟨true⟩ 0 reorderingFed).streaming.encoding.outputs =
      [reorderingSample] := by
    decide +kernel
  have hpatched : @patchPacketForLowLatencyDpb ⟨true⟩ .h264 reorderingSample.bytes = .ok patchedSample := by
    decide +kernel
  obtain ⟨dec, hdec, htypes⟩ := Option.map_eq_some_iff.1 hcsd0
  obtain ⟨sample, hsample, bytes, hbytes, -, -, hall⟩ := @decoder_no_reordering ⟨true⟩ _ _ _ rfl _ hsteps _ hdec
  rw [houtputs, List.mem_singleton] at hsample
  subst hsample
  have hpacket : @MfSession.patchedBytes ⟨true⟩ .h264 reorderingSample.bytes = .ok patchedSample := by
    unfold MfSession.patchedBytes
    rw [hpatched]
  obtain rfl : patchedSample = bytes := Except.ok.inj (hpacket.symm.trans hbytes)
  exact ⟨dec, hdec, htypes, (hall hpatched (by decide +kernel)).2⟩

end Downlink

end Penflow
