import Penflow.Encoder.PacketNals
import Penflow.Server.Extract

/-!
# The parameter sets of a patched packet

The session cuts the parameter sets out of the first key frame and sends them as csd-0, from which the tablet makes
its decoder.  What the tablet reads in csd-0 are the parameter sets of the packet as the encoder returned it, one for
one and in order: those that are no SPS as they are, and in the place of each SPS one whose syntax says that nothing
is reordered (`csd0_patched`).  The rewrite gets to csd-0 although it is made on the whole packet.
-/

namespace Penflow

open AnnexB BitString BitSyntax SyntaxReader

/-! ### What a body says -/

/-- `body` parses as the SPS `rbsp` with the overrides of the rewriter; of an HEVC SPS, up to the triplets of the
decoded picture buffer. -/
def LowLatencyOf : Codec → List UInt8 → List UInt8 → Prop
  | .h264, rbsp, body => ∃ sps s s', Rbsp.h264Sps.parse (bytesBits rbsp) = .ok (sps, s) ∧
      Rbsp.h264Sps.parse (bytesBits body) = .ok (sps.lowLatency, s')
  | .hevc, rbsp, body => ∃ head s s', Rbsp.hevcSpsHead.parse (bytesBits rbsp) = .ok (head, s) ∧
      Rbsp.hevcSpsHead.parse (bytesBits body) = .ok (head.lowLatency, s')

/-- A decoder that reads this SPS need not hold a picture back. -/
def NoReordering : Codec → List UInt8 → Prop
  | .h264, body => ∃ sps s vui, Rbsp.h264Sps.parse (bytesBits body) = .ok (sps, s) ∧ sps.vui = some vui ∧
      vui.bitstream_restriction.map H264BitstreamRestriction.max_num_reorder_frames = some 0
  | .hevc, body => ∃ head s, Rbsp.hevcSpsHead.parse (bytesBits body) = .ok (head, s) ∧
      ∀ d ∈ head.dpb, d.sps_max_num_reorder_pics = 0

theorem LowLatencyOf.noReordering {codec : Codec} {rbsp body : List UInt8} (h : LowLatencyOf codec rbsp body) :
    NoReordering codec body := by
  cases codec with
  | h264 =>
      obtain ⟨sps, s, s', -, hbody⟩ := h
      refine ⟨sps.lowLatency, s', _, hbody, rfl, ?_⟩
      cases sps.vui with
      | none => rfl
      | some vui => rfl
  | hevc =>
      obtain ⟨head, s, s', -, hbody⟩ := h
      refine ⟨head.lowLatency, s', hbody, ?_⟩
      intro d hd
      obtain ⟨x, -, rfl⟩ := List.mem_map.1 hd
      rfl

section Rewriters

variable [BuildProfile]

theorem patchH264SpsRbsp_lowLatencyOf {rbsp body : List UInt8} (h : patchH264SpsRbsp rbsp = .ok body) :
    LowLatencyOf .h264 rbsp body := by
  obtain ⟨r, bs, s', hp, hout, -⟩ := Walk.rewriteRbsp_eq_ok h
  obtain ⟨sps, ts, s, bs', hsps, hbs, -, -, hw⟩ := rewrites_h264Sps.of_run hp
  obtain rfl := BitWriter.push_new_injective hw
  exact ⟨sps, s, s', parse_of_run hsps, hout ▸ parse_of_spells hbs⟩

/-- Both HEVC walks go through the triplets first. -/
theorem walkHevcSpsThroughDpb_lowLatencyOf {rbsp body : List UInt8} {r : BitReader} {w : BitWriter}
    (hwalk : Walk.walkHevcSpsThroughDpb.run (.new rbsp) .new = .ok ((), r, w))
    (hbody : ∀ bs, w = BitWriter.new.push bs → ∃ cs, bytesBits body = bs ++ cs) : LowLatencyOf .hevc rbsp body := by
  obtain ⟨head, ts, s, bs, hhead, hbs, -, -, hw⟩ := rewrites_hevcSpsHead.of_run hwalk
  obtain ⟨cs, hcs⟩ := hbody bs hw
  exact ⟨head, s, cs, parse_of_run hhead, hcs ▸ parse_of_spells hbs⟩

theorem patchHevcSpsRbsp_lowLatencyOf {rbsp body : List UInt8} (h : patchHevcSpsRbsp rbsp = .ok body) :
    LowLatencyOf .hevc rbsp body := by
  rw [patchHevcSpsRbsp] at h
  split at h
  · rename_i v hfull
    cases h
    obtain ⟨r, bs, s', hp, hout, -⟩ := Walk.rewriteRbsp_eq_ok hfull
    obtain ⟨⟨_, r₁, w₁⟩, hwalk, hrest⟩ := Outcome.bind_eq_ok.1 hp
    obtain ⟨k, cs, -, hw⟩ := Walk.onward _ hrest
    refine walkHevcSpsThroughDpb_lowLatencyOf hwalk fun bs₁ hbs₁ => ⟨cs ++ s', ?_⟩
    rw [hbs₁, BitWriter.push_push] at hw
    rw [hout, BitWriter.push_new_injective hw, List.append_assoc]
  · obtain ⟨⟨_, r, w⟩, hp, hret⟩ := Outcome.bind_eq_ok.1 h
    cases hret
    obtain ⟨⟨_, r₁, w₁⟩, hwalk, hrest⟩ := Outcome.bind_eq_ok.1 hp
    obtain ⟨k, cs, -, rfl⟩ := Walk.onward _ hrest
    have hout := BitWriter.bytesBits_bytes (w₁.push cs)
    refine walkHevcSpsThroughDpb_lowLatencyOf hwalk fun bs₁ hbs₁ => ?_
    rw [hbs₁, BitWriter.bits_push, BitWriter.bits_push, BitWriter.bits_new, List.nil_append,
      List.append_assoc] at hout
    exact ⟨_, hbs₁ ▸ hout⟩
  · cases h

/-- **The rewriter of each codec** keeps the SPS but for the overrides. -/
theorem patchSpsRbsp_lowLatencyOf {codec : Codec} {rbsp body : List UInt8}
    (h : patchSpsRbsp codec rbsp = .ok body) : LowLatencyOf codec rbsp body := by
  cases codec with
  | h264 => exact patchH264SpsRbsp_lowLatencyOf h
  | hevc => exact patchHevcSpsRbsp_lowLatencyOf h

end Rewriters

/-! ### What is read in an extract -/

/-- `y` is `x` but for zeros at its end. -/
def Trimmed (x y : List UInt8) : Prop := ∃ n, y ++ List.replicate n 0 = x

theorem Trimmed.trans {x y z : List UInt8} (hxy : Trimmed x y) (hyz : Trimmed y z) : Trimmed x z := by
  obtain ⟨n, rfl⟩ := hxy
  obtain ⟨m, rfl⟩ := hyz
  exact ⟨m + n, by rw [List.replicate_add, List.append_assoc]⟩

theorem trimmed_settle (p : List UInt8) (us : List Nal) : Trimmed p (settle p us).1 := by
  obtain ⟨z, hz, hsettle⟩ := settle_fst p us
  rcases hz with rfl | rfl
  · exact ⟨0, hsettle⟩
  · exact ⟨1, hsettle⟩

/-- The NALs of the units that are kept. -/
theorem unitNals_filter (f : UInt8 → UInt8) {keep_types : List UInt8} (hzero : f 0 ∉ keep_types) (us : List Nal) :
    (unitNals f us).filter (fun x => x.1 ∈ keep_types) =
      us.filterMap fun u => (keptType f keep_types u).map fun t => (t, u.payload) := by
  induction us with
  | nil => rfl
  | cons u us ih =>
      rw [unitNals, List.filterMap_cons, keptType_eq hzero u us]
      cases (join u.payload us).head? with
      | none => exact ih
      | some b =>
          by_cases hb : f b ∈ keep_types
          · rw [List.filter_cons_of_pos (by simpa using hb), ih, Option.map_some,
              Option.filter_some_pos (by simpa using hb)]
            rfl
          · rw [List.filter_cons_of_neg (by simpa using hb), ih, Option.map_some,
              Option.filter_some_neg (by simpa using hb)]
            rfl

/-- Of units that are all kept a reader sees the same NALs, but for a zero that counts to the next code. -/
theorem unitNals_settle (f : UInt8 → UInt8) {keep_types : List UInt8} {ks : List Nal}
    (hkept : ∀ u ∈ ks, (keptType f keep_types u).isSome) (q : List UInt8) :
    List.Forall₂ (fun x y => y.1 = x.1 ∧ Trimmed x.2 y.2)
      (ks.filterMap fun u => (keptType f keep_types u).map fun t => (t, u.payload))
      (unitNals f (settle q ks).2) := by
  induction ks generalizing q with
  | nil => exact .nil
  | cons u us ih =>
      obtain ⟨t, ht⟩ := Option.isSome_iff_exists.1 (hkept u List.mem_cons_self)
      have hrest := ih (fun v hv => hkept v (List.mem_cons_of_mem u hv)) u.payload
      have htype := ht
      rw [keptType, Option.filter_eq_some_iff, Option.map_eq_some_iff] at htype
      obtain ⟨⟨b, hb, rfl⟩, -⟩ := htype
      rw [List.filterMap_cons, ht, unitNals_settled, join_head us hb]
      exact .cons ⟨rfl, trimmed_settle u.payload us⟩ hrest

/-- **What is extracted is what is read**: the NALs of the types to keep, in order, but for zeros at their ends. -/
theorem reportedNals_extract (codec : Codec) {keep_types : List UInt8} (hzero : 0 ∉ keep_types)
    (bytes : List UInt8) :
    List.Forall₂ (fun x y => y.1 = x.1 ∧ Trimmed x.2 y.2)
      ((reportedNals codec.splitNals bytes).filter fun x => x.1 ∈ keep_types)
      (reportedNals codec.splitNals (extractNals codec.splitNals bytes keep_types)) := by
  have hcodec : codec.nalType 0 ∉ keep_types := by cases codec <;> exact hzero
  obtain ⟨p, us, htight, rfl⟩ := exists_tight bytes
  have hkept : ∀ u ∈ us.filter fun u => (keptType codec.nalType keep_types u).isSome,
      (keptType codec.nalType keep_types u).isSome := by
    intro u hu
    exact (List.mem_filter.1 hu).2
  have hfree : ∀ u ∈ us.filter fun u => (keptType codec.nalType keep_types u).isSome, Free [] u.payload := by
    intro u hu
    exact htight.free.2 u (List.mem_filter.1 hu).1
  have hsettled := tight_settle (p := []) trivial hfree
  have hread := unitNals_settle codec.nalType hkept []
  have hjoin := join_settle [] (us.filter fun u => (keptType codec.nalType keep_types u).isSome)
  rw [reportedNals_codec codec htight, unitNals_filter codec.nalType hcodec, extractNals_join codec hzero htight,
    ← hjoin, reportedNals_codec codec hsettled]
  have hsame : (us.filterMap fun u => (keptType codec.nalType keep_types u).map fun t => (t, u.payload)) =
      (us.filter fun u => (keptType codec.nalType keep_types u).isSome).filterMap fun u =>
        (keptType codec.nalType keep_types u).map fun t => (t, u.payload) := by
    rw [List.filterMap_filter]
    congr 1
    funext u
    cases keptType codec.nalType keep_types u with
    | none => rfl
    | some t => rfl
  rw [hsame]
  exact hread

/-! ### The parameter sets -/

/-- The NALs that go into csd-0. -/
def Codec.parameterTypes : Codec → List UInt8
  | .h264 => [7, 8]
  | .hevc => [32, 33, 34]

theorem csd0_eq (c : SessionConfig) (bytes : List UInt8) :
    c.csd0 bytes = extractNals c.codec.splitNals bytes c.codec.parameterTypes := by
  rw [SessionConfig.csd0]
  cases c.codec with
  | h264 => rfl
  | hevc => rfl

/-- The NAL `y` stands in csd-0 for the NAL `x` of the encoder. -/
def StandsFor (codec : Codec) (x y : UInt8 × List UInt8) : Prop :=
  y.1 = x.1 ∧ (x.1 ≠ codec.spsType → Trimmed x.2 y.2) ∧
    (x.1 = codec.spsType → ∃ body, LowLatencyOf codec (rbspUnescape (x.2.drop codec.headerLen)) body ∧
      Trimmed (x.2.take codec.headerLen ++ rbspEscape body) y.2)

variable [BuildProfile]

/-- Of NALs with whole headers none stops the patcher. -/
theorem NalsPatched.whole {codec : Codec} {xs ys : List (UInt8 × List UInt8)} (h : NalsPatched codec xs ys)
    (hwhole : ∀ x ∈ xs, codec.headerLen ≤ x.2.length) :
    List.Forall₂ (fun x y => y.1 = x.1 ∧ (x.1 ≠ codec.spsType → y.2 = x.2) ∧
      (x.1 = codec.spsType → SpsRewritten codec x.2 y.2)) xs ys := by
  induction h with
  | nil => exact .nil
  | stop hshort => exact absurd (hwhole _ List.mem_cons_self) (Nat.not_le.2 hshort)
  | pass hlen ht h ih =>
      refine .cons ⟨rfl, fun _ => rfl, fun hsps => absurd hsps ht⟩ (ih fun x hx => ?_)
      exact hwhole x (List.mem_cons_of_mem _ hx)
  | sps hlen ht hpayload h ih =>
      refine .cons ⟨rfl, fun hne => absurd ht hne, fun _ => hpayload⟩ (ih fun x hx => ?_)
      exact hwhole x (List.mem_cons_of_mem _ hx)

theorem SpsRewritten.standsFor {codec : Codec} {payload payload' : List UInt8}
    (h : SpsRewritten codec payload payload') :
    ∃ body, LowLatencyOf codec (rbspUnescape (payload.drop codec.headerLen)) body ∧
      Trimmed (payload.take codec.headerLen ++ rbspEscape body) payload' := by
  obtain ⟨body, z, hbody, hz, hpayload⟩ := h
  refine ⟨body, patchSpsRbsp_lowLatencyOf hbody, ?_⟩
  rcases hz with rfl | rfl
  · exact ⟨0, hpayload⟩
  · exact ⟨1, hpayload⟩

omit [BuildProfile] in
theorem forall₂_trans {α β γ : Type*} {R : α → β → Prop} {S : β → γ → Prop} {T : α → γ → Prop}
    (h : ∀ x y z, R x y → S y z → T x z) {xs : List α} {ys : List β} {zs : List γ} (hxy : List.Forall₂ R xs ys)
    (hyz : List.Forall₂ S ys zs) : List.Forall₂ T xs zs := by
  induction hxy generalizing zs with
  | nil =>
      cases hyz
      exact .nil
  | cons hx _ ih =>
      cases hyz with
      | cons hz hrest => exact .cons (h _ _ _ hx hz) (ih hrest)

/-- **The parameter sets of a patched packet** stand for those of the packet, one for one and in order. -/
theorem csd0_patched {c : SessionConfig} {bytes out : List UInt8}
    (h : patchPacketForLowLatencyDpb c.codec bytes = .ok out)
    (hwhole : ∀ x ∈ reportedNals c.codec.splitNals bytes, c.codec.headerLen ≤ x.2.length) :
    List.Forall₂ (StandsFor c.codec)
      ((reportedNals c.codec.splitNals bytes).filter fun x => x.1 ∈ c.codec.parameterTypes)
      (reportedNals c.codec.splitNals (c.csd0 out)) := by
  have hzero : 0 ∉ c.codec.parameterTypes := by
    cases c.codec with
    | h264 => decide
    | hevc => decide
  have hpatched := (patchPacket_nalsPatched h).1.whole hwhole
  have hkept := List.rel_filter (p := fun x => x.1 ∈ c.codec.parameterTypes)
    (q := fun x => x.1 ∈ c.codec.parameterTypes) (fun x y hxy => by simp [hxy.1]) hpatched
  rw [csd0_eq]
  refine forall₂_trans ?_ hkept (reportedNals_extract c.codec hzero out)
  intro x y z hxy hyz
  refine ⟨hyz.1.trans hxy.1, fun hne => ?_, fun hsps => ?_⟩
  · have hsame := hyz.2
    rw [hxy.2.1 hne] at hsame
    exact hsame
  · obtain ⟨body, hbody, htrimmed⟩ := (hxy.2.2 hsps).standsFor
    exact ⟨body, hbody, htrimmed.trans hyz.2⟩

end Penflow
