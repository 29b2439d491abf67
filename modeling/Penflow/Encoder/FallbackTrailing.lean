import Penflow.Encoder.Idempotent

/-!
# How the fallback ends

The fallback sets every decoded picture buffer triplet to zero and copies the bits behind them, the
trailing bits of the input among them; it writes none of its own.  Zero triplets are shorter, so the
copied stop bit comes to stand at another place in its byte, and zeros fill the last byte up.

`patchHevcSpsDpbOnly_bits` gives the output bit by bit.  Whether it ends in trailing bits again is a
sum: the zeros that ended the copied bits and the bits saved, modulo eight, have to fit into one byte.
-/

namespace Penflow

open BitString BitSyntax SyntaxReader

/-- The bytes end in a stop bit and fewer than eight zeros. -/
def EndsInTrailingBits (bytes : List UInt8) : Prop :=
  ∃ pre s, bytesBits bytes = pre ++ s ∧ IsRbspTrailingBits s

/-- The code of a triplet. -/
def HevcDpb.bits (d : HevcDpb) : List Bool :=
  ueBits d.sps_max_dec_pic_buffering_minus1 ++
    (ueBits d.sps_max_num_reorder_pics ++ ueBits d.sps_max_latency_increase_plus1)

/-- The triplet the patchers put in the place of another. -/
def zeroDpb : HevcDpb := ⟨0, 0, 0⟩

/-- How many bits shorter the zero triplets are. -/
def savedBits (dpb : List HevcDpb) : ℕ := (dpb.map fun d => d.bits.length - zeroDpb.bits.length).sum

/-- **What the fallback is for.**  The prefix walked with every triplet zero, the remaining bits, zeros
up to whole bytes, and trailing bits at the end again. -/
def FallbackWellFormed (rbsp out : List UInt8) : Prop :=
  ∃ pre head rest, ∃ k < 8, Rbsp.hevcSpsHead.parse (bytesBits rbsp) = .ok (head, rest) ∧
    bytesBits rbsp = pre ++ (head.dpb.flatMap HevcDpb.bits ++ rest) ∧
    bytesBits out =
      pre ++ (head.dpb.flatMap (fun _ => zeroDpb.bits) ++ (rest ++ List.replicate k false)) ∧
    EndsInTrailingBits out

/-- The zeros behind the triplets and those that come to fill up the last byte are fewer than eight. -/
def TrailingFits (rbsp : List UInt8) : Prop :=
  ∀ head rest, Rbsp.hevcSpsHead.parse (bytesBits rbsp) = .ok (head, rest) →
    trailingZeros rest + savedBits head.dpb % 8 < 8

/-! ### What the head walk takes -/

/-- A verbatim walk keeps what its syntax reads. -/
theorem Verbatim.keeps {α β : Type} {p : Walk α} {q : Rbsp β} {g : β → α}
    {W : β → List Bool → Prop} (hp : Verbatim p) (h : Walks p q g W) {s s' : List Bool} {b : β}
    {ts : List Token} (hq : q.run s = .ok (b, ts, s')) : Keeps p (tokenBits ts) (g b) := by
  intro r w s'' hrest
  have hrun := h r w
  rw [hrest, q.stable hq s''] at hrun
  obtain ⟨cs, -, hx⟩ := hrun
  obtain ⟨bs, s₁, hbs, hkeeps⟩ := hp r w _ hx
  have hkept := hkeeps r w s₁ hbs
  rw [hx] at hkept
  -- both say how far the cursor went
  have hlen : (tokenBits ts).length = bs.length := by
    have hpos := congrArg (fun x => x.2.1.bit_pos) (Except.ok.inj hkept)
    simpa using hpos
  rw [hrest] at hbs
  obtain rfl := (List.append_inj hbs hlen).1
  rw [hx, hkept]

theorem hevcDpb_run {s s' : List Bool} {d : HevcDpb} {ts : List Token}
    (h : Rbsp.hevcDpb.run s = .ok (d, ts, s')) :
    ts = [.ue d.sps_max_dec_pic_buffering_minus1, .ue d.sps_max_num_reorder_pics,
      .ue d.sps_max_latency_increase_plus1] := by
  obtain ⟨a, ts₁, s₁, us, ha, h₁, rfl⟩ := run_bind_eq_ok.1 h
  obtain ⟨b, ts₂, s₂, vs, hb, h₂, rfl⟩ := run_bind_eq_ok.1 h₁
  obtain ⟨c, ts₃, s₃, ws, hc, h₃, rfl⟩ := run_bind_eq_ok.1 h₂
  cases h₃
  rw [ue_tokens ha, ue_tokens hb, ue_tokens hc]
  rfl

variable [BuildProfile]

theorem takes_clearHevcDpb {s s' : List Bool} {d : HevcDpb} {ts : List Token}
    (h : Rbsp.hevcDpb.run s = .ok (d, ts, s')) :
    Takes Walk.clearHevcDpb d.bits () zeroDpb.bits := by
  have hfits := Rbsp.hevcDpb.fits h
  rw [hevcDpb_run h] at hfits
  simp only [List.mem_cons, List.not_mem_nil, or_false, forall_eq_or_imp, forall_eq] at hfits
  obtain ⟨hbuffering, hreorder, hlatency⟩ := hfits
  have hclear : ∀ {v p bs cs}, Token.Fits (.ue v) → Takes p bs () cs →
      Takes (Walk.readUe >>= fun _ => Walk.writeUe 0 >>= fun _ => p) (ueBits v ++ bs) ()
        (ueBits 0 ++ cs) :=
    fun hv h => (reads_ue.takes (spells_ue hv)).bind ((takes_writeUe (by decide)).bind h)
  have htakes := hclear hbuffering (hclear hreorder (hclear hlatency (takes_pure ())))
  rwa [List.append_nil, List.append_nil] at htakes

theorem takes_clearHevcDpbs {dpb : List HevcDpb}
    (h : ∀ d ∈ dpb, ∃ s ts s', Rbsp.hevcDpb.run s = .ok (d, ts, s')) :
    Takes (Walk.times dpb.length Walk.clearHevcDpb) (dpb.flatMap HevcDpb.bits) ()
      (dpb.flatMap fun _ => zeroDpb.bits) := by
  induction dpb with
  | nil => exact takes_pure ()
  | cons d dpb ih =>
      obtain ⟨s, ts, s', hd⟩ := h d List.mem_cons_self
      exact (takes_clearHevcDpb hd).bind (ih fun e he => h e (List.mem_cons_of_mem d he))

/-- **The head walk.**  It keeps everything up to the triplets and clears those; there is at least
one. -/
theorem hevcSpsHead_takes {s rest : List Bool} {head : HevcSpsHead} {ts : List Token}
    (h : Rbsp.hevcSpsHead.run s = .ok (head, ts, rest)) :
    ∃ pre, tokenBits ts = pre ++ head.dpb.flatMap HevcDpb.bits ∧ head.dpb ≠ [] ∧
      Takes Walk.walkHevcSpsThroughDpb (tokenBits ts) ()
        (pre ++ head.dpb.flatMap fun _ => zeroDpb.bits) := by
  obtain ⟨lead, ts₁, s₁, us₁, hlead, h₁, rfl⟩ := run_bind_eq_ok.1 h
  obtain ⟨flag, ts₂, s₂, us₂, hflag, h₂, rfl⟩ := run_bind_eq_ok.1 h₁
  obtain ⟨dpb, ts₃, s₃, us₃, hdpb, h₃, rfl⟩ := run_bind_eq_ok.1 h₂
  cases h₃
  obtain ⟨hcount, rfl, hall⟩ := times_run (fun hd => hevcDpb_run hd) hdpb
  have hcode : tokenBits (dpb.flatMap fun d => [.ue d.sps_max_dec_pic_buffering_minus1,
      .ue d.sps_max_num_reorder_pics, .ue d.sps_max_latency_increase_plus1]) =
      dpb.flatMap HevcDpb.bits := by
    clear hcount hall hdpb h₂ h₁ h
    induction dpb with
    | nil => rfl
    | cons d dpb ih =>
        rw [List.flatMap_cons, tokenBits_append, ih, List.flatMap_cons]
        simp [HevcDpb.bits, Token.bits]
  refine ⟨tokenBits ts₁ ++ tokenBits ts₂, ?_, ?_, ?_⟩
  · simp only [tokenBits_append, hcode, List.append_nil, List.append_assoc]
  · rintro rfl
    rw [List.length_nil] at hcount
    split at hcount <;> omega
  · have hlead' := verbatim_copyHevcSpsLead.keeps rewrites_hevcSpsLead hlead
    have hflag' := (verbatim_copyBits (by decide)).keeps (rewrites_bits (by decide)) hflag
    have hdpb' := takes_clearHevcDpbs hall
    rw [hcount] at hdpb'
    have htakes : Takes Walk.walkHevcSpsThroughDpb
        (tokenBits ts₁ ++ (tokenBits ts₂ ++ dpb.flatMap HevcDpb.bits)) ()
        (tokenBits ts₁ ++ (tokenBits ts₂ ++ dpb.flatMap fun _ => zeroDpb.bits)) :=
      hlead'.bind (hflag'.bind hdpb')
    simpa only [tokenBits_append, hcode, List.append_nil, List.append_assoc] using htakes

/-! ### The output, bit by bit -/

omit [BuildProfile] in
theorem three_le_bits_length (d : HevcDpb) : 3 ≤ d.bits.length := by
  have hpos : ∀ v, 1 ≤ (ueBits v).length := by
    intro v
    rw [ueBits, List.length_append, List.length_cons]
    omega
  have h₁ := hpos d.sps_max_dec_pic_buffering_minus1
  have h₂ := hpos d.sps_max_num_reorder_pics
  have h₃ := hpos d.sps_max_latency_increase_plus1
  rw [HevcDpb.bits, List.length_append, List.length_append]
  omega

omit [BuildProfile] in
/-- What the triplets took and what they take now. -/
theorem bits_length_eq (dpb : List HevcDpb) :
    (dpb.flatMap HevcDpb.bits).length =
      (dpb.flatMap fun _ => zeroDpb.bits).length + savedBits dpb := by
  induction dpb with
  | nil => rfl
  | cons d dpb ih =>
      have hthree : zeroDpb.bits.length = 3 := by decide
      have hlen := three_le_bits_length d
      have hsaved : savedBits (d :: dpb) = d.bits.length - zeroDpb.bits.length + savedBits dpb :=
        List.sum_cons
      rw [List.flatMap_cons, List.flatMap_cons, List.length_append, List.length_append, ih, hsaved]
      omega

/-- **The output of the fallback.** -/
theorem patchHevcSpsDpbOnly_bits {rbsp out : List UInt8} (h : patchHevcSpsDpbOnly rbsp = .ok out) :
    ∃ pre head rest, Rbsp.hevcSpsHead.parse (bytesBits rbsp) = .ok (head, rest) ∧ head.dpb ≠ [] ∧
      bytesBits rbsp = pre ++ (head.dpb.flatMap HevcDpb.bits ++ rest) ∧
      bytesBits out = pre ++ (head.dpb.flatMap (fun _ => zeroDpb.bits) ++
        (rest ++ List.replicate (savedBits head.dpb % 8) false)) := by
  obtain ⟨x, hx, -⟩ := Outcome.bind_eq_ok.1 h
  obtain ⟨y, hy, -⟩ := Outcome.bind_eq_ok.1 hx
  obtain ⟨head, ts, rest, bs, hread, -, -, -, -⟩ := rewrites_hevcSpsHead.of_run hy
  obtain ⟨pre, hts, hne, htakes⟩ := hevcSpsHead_takes hread
  have hrbsp := Rbsp.hevcSpsHead.consumes hread
  rw [BitReader.rest_new] at hread hrbsp
  rw [patchHevcSpsDpbOnly_of_takes htakes hrbsp] at h
  obtain rfl := Except.ok.inj h
  refine ⟨pre, head, rest, parse_of_run hread, hne, ?_, ?_⟩
  · rw [hrbsp, hts, List.append_assoc]
  · have hin := congrArg List.length hrbsp
    rw [bytesBits_length, hts, List.length_append, List.length_append, bits_length_eq] at hin
    have hpad : padding (BitWriter.new.push ((pre ++ head.dpb.flatMap fun _ => zeroDpb.bits) ++
        rest)).bit_pos = savedBits head.dpb % 8 := by
      rw [BitWriter.bit_pos_push, List.length_append, List.length_append, padding]
      show (8 - (0 + _) % 8) % 8 = _
      omega
    rw [BitWriter.bytesBits_bytes, hpad, BitWriter.bits_push, BitWriter.bits_new, List.nil_append,
      List.append_assoc, List.append_assoc]

omit [BuildProfile] in
/-- A bit string whose last one is known ends in trailing bits when few zeros follow it. -/
theorem endsInTrailingBits_iff {bytes : List UInt8} {y : List Bool} {k : ℕ}
    (h : bytesBits bytes = y ++ true :: List.replicate k false) : EndsInTrailingBits bytes ↔ k < 8 := by
  constructor
  · rintro ⟨pre, s, hbits, j, hj, rfl⟩
    have hzeros := congrArg trailingZeros (h.symm.trans hbits)
    rw [trailingZeros_append_true, trailingZeros_append_true] at hzeros
    omega
  · intro hk
    exact ⟨y, _, h, k, hk, rfl⟩

/-- **When the fallback ends in trailing bits.**  The output is always the walked prefix with zero
triplets, the remaining bits and zeros; it ends in trailing bits again if and only if the zeros that
ended the remaining bits and those that fill up the last byte are fewer than eight. -/
theorem patchHevcSpsDpbOnly_trailing_iff {rbsp out : List UInt8}
    (h : patchHevcSpsDpbOnly rbsp = .ok out) : FallbackWellFormed rbsp out ↔ TrailingFits rbsp := by
  obtain ⟨pre, head, rest, hparse, hne, hin, hout⟩ := patchHevcSpsDpbOnly_bits h
  -- a triplet that is cleared ends in a one
  obtain ⟨dpb, d, hdpb⟩ := List.eq_nil_or_concat head.dpb |>.resolve_left hne
  have hone : pre ++ head.dpb.flatMap (fun _ => zeroDpb.bits) =
      (pre ++ dpb.flatMap (fun _ => zeroDpb.bits) ++ [true, true]) ++ [true] := by
    have hzero : zeroDpb.bits = [true, true, true] := by decide
    rw [hdpb, List.concat_eq_append, List.flatMap_append, hzero]
    simp
  obtain ⟨y, hy⟩ := trailingZeros_append_of_true
    (pre ++ dpb.flatMap (fun _ => zeroDpb.bits) ++ [true, true]) rest
  have hend : bytesBits out =
      y ++ true :: List.replicate (trailingZeros rest + savedBits head.dpb % 8) false := by
    rw [hout, ← List.append_assoc, ← List.append_assoc, hone, hy, List.append_assoc,
      List.cons_append, List.replicate_append_replicate]
  have hfits : TrailingFits rbsp ↔ trailingZeros rest + savedBits head.dpb % 8 < 8 := by
    constructor
    · intro hfits
      exact hfits head rest hparse
    · intro hlt head' rest' hparse'
      rw [hparse] at hparse'
      cases hparse'
      exact hlt
  rw [hfits, ← endsInTrailingBits_iff hend]
  constructor
  · rintro ⟨_, _, _, _, _, _, _, _, htrailing⟩
    exact htrailing
  · intro htrailing
    exact ⟨pre, head, rest, _, Nat.mod_lt _ (by decide), hparse, hin, hout, htrailing⟩

omit [BuildProfile] in
/-- A 4:4:4 SPS with a range extension: one zero at its end, four bits saved. -/
theorem patchHevcSpsDpbOnly_trailing_iff_main :
    letI : BuildProfile := ⟨true⟩
    let rbsp : List UInt8 := [1, 4, 8, 0, 0, 0, 0, 0, 0, 0, 0, 0, 93, 144, 4, 16, 32, 178, 201, 242, 109,
      108, 0, 2]
    let out : List UInt8 := [1, 4, 8, 0, 0, 0, 0, 0, 0, 0, 0, 0, 93, 144, 4, 16, 32, 178, 255, 38, 214,
      192, 0, 32]
    patchHevcSpsDpbOnly rbsp = .ok out ∧ FallbackWellFormed rbsp out := by
  let _ : BuildProfile := ⟨true⟩
  intro rbsp out
  have hfits : (Rbsp.hevcSpsHead.parse (bytesBits rbsp)).map
      (fun x => trailingZeros x.2 + savedBits x.1.dpb % 8) = .ok 5 := by decide +kernel
  have hpatch : patchHevcSpsDpbOnly rbsp = .ok out := by decide +kernel
  refine ⟨hpatch, (patchHevcSpsDpbOnly_trailing_iff hpatch).2 fun head rest hparse => ?_⟩
  rw [hparse] at hfits
  have hfive : trailingZeros rest + savedBits head.dpb % 8 = 5 := Except.ok.inj hfits
  omega

omit [BuildProfile] in
/-- **A zero byte at the end.**  A 4:4:4 SPS with a range extension, which the full walk refuses; its
triplet is shortened by four bits, and eleven zeros end the output. -/
theorem patchHevcSpsDpbOnly_zero_end :
    letI : BuildProfile := ⟨true⟩
    let rbsp : List UInt8 := [1, 4, 8, 0, 0, 0, 0, 0, 0, 0, 0, 0, 93, 144, 4, 16, 32, 178, 201, 212, 155,
      91, 0, 0, 128]
    let out : List UInt8 := [1, 4, 8, 0, 0, 0, 0, 0, 0, 0, 0, 0, 93, 144, 4, 16, 32, 178, 253, 73, 181,
      176, 0, 8, 0]
    EndsInTrailingBits rbsp ∧ patchHevcSpsDpbOnly rbsp = .ok out ∧ ¬ FallbackWellFormed rbsp out := by
  let _ : BuildProfile := ⟨true⟩
  intro rbsp out
  have hin : bytesBits rbsp = (bytesBits rbsp).take 192 ++ true :: List.replicate 7 false := by
    decide +kernel
  have hout : bytesBits out = (bytesBits out).take 188 ++ true :: List.replicate 11 false := by
    decide +kernel
  refine ⟨(endsInTrailingBits_iff hin).2 (by decide), by decide +kernel, ?_⟩
  rintro ⟨_, _, _, _, _, _, _, _, htrailing⟩
  exact absurd ((endsInTrailingBits_iff hout).1 htrailing) (by decide)

end Penflow
