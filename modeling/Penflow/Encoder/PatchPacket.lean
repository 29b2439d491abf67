import Penflow.Encoder.Emulation
import Penflow.Encoder.H264Sps
import Penflow.Encoder.HevcFallback
import Penflow.Protocol.Nal

/-!
# Patching a packet

`patchPacketForLowLatencyDpb` scans a coded packet for start codes, rewrites the SPS NALs and copies
everything else.  `patchUnits` is the same on the units of a tight decomposition, and
`patchPacket_join` the connection; the theorems about packets are proved on units.
-/

namespace Penflow

open AnnexB

/-! ### The patcher -/

inductive Codec where
  | h264
  | hevc
  deriving DecidableEq, Repr

namespace Codec

/-- The length of a NAL header. -/
def headerLen : Codec → ℕ
  | h264 => 1
  | hevc => 2

/-- The NAL type in the first header byte. -/
def nalType : Codec → UInt8 → UInt8
  | h264, b => b &&& 0x1F
  | hevc, b => (b >>> 1) &&& 0x3F

/-- The type of an SPS. -/
def spsType : Codec → UInt8
  | h264 => 7
  | hevc => 33

/-- The splitter of the protocol for this codec. -/
def splitNals : Codec → List UInt8 → List (ℕ × ℕ × UInt8)
  | h264 => splitH264Nals
  | hevc => splitHevcNals

end Codec

/-- One encoded packet as it leaves the encoder. -/
structure EncodedPacket where
  bytes : List UInt8
  pts_ns : Int64
  is_keyframe : Bool
  encode_us : Option UInt32
  deriving DecidableEq, Repr

/-- `scan_start_code`: the length of the first start code at or after `i` and the offset behind it. -/
def scanStartCodeFrom (bytes : List UInt8) : ℕ → ℕ → Option (ℕ × ℕ)
  | 0, _ => none
  | fuel + 1, i =>
    if i + 3 ≤ bytes.length then
      if [0, 0, 0, 1] <+: bytes.drop i then some (4, i + 4)
      else if [0, 0, 1] <+: bytes.drop i then some (3, i + 3)
      else scanStartCodeFrom bytes fuel (i + 1)
    else
      none

def scanStartCode (bytes : List UInt8) (i : ℕ) : Option (ℕ × ℕ) :=
  scanStartCodeFrom bytes bytes.length i

/-- The inner loop of the patcher: where the NAL whose payload begins at `j` ends. -/
def nalEndFrom (bytes : List UInt8) : ℕ → ℕ → ℕ
  | 0, _ => bytes.length
  | fuel + 1, j =>
    if j + 3 > bytes.length then bytes.length
    else if [0, 0, 0, 1] <+: bytes.drop j ∨ [0, 0, 1] <+: bytes.drop j then j
    else nalEndFrom bytes fuel (j + 1)

def nalEnd (bytes : List UInt8) (payload_off : ℕ) : ℕ := nalEndFrom bytes bytes.length payload_off

variable [BuildProfile]

/-- The SPS rewriter of a codec. -/
def patchSpsRbsp : Codec → List UInt8 → Outcome (List UInt8)
  | .h264, rbsp => patchH264SpsRbsp rbsp
  | .hevc, rbsp => patchHevcSpsRbsp rbsp

/-- The outer loop of the patcher, at offset `i` with `out` written so far.  Every turn passes a start
code, so `bytes.len()` turns are enough. -/
def patchLoop (codec : Codec) (bytes : List UInt8) : ℕ → ℕ → List UInt8 → Outcome (List UInt8)
  | 0, _, out => .ok out
  | fuel + 1, i, out =>
    if i < bytes.length then
      match scanStartCode bytes i with
      | none => .ok (out ++ bytes.drop i)
      | some (_, payload_off) =>
        let nal_end := nalEnd bytes payload_off
        if payload_off + codec.headerLen > nal_end then
          .ok (out ++ bytes.drop i)
        else do
          let b ← index bytes payload_off
          if codec.nalType b ≠ codec.spsType then
            let nal ← slice bytes i nal_end
            patchLoop codec bytes fuel nal_end (out ++ nal)
          else
            let header_end := payload_off + codec.headerLen
            let escaped ← slice bytes header_end nal_end
            let patched_rbsp ← patchSpsRbsp codec (rbspUnescape escaped)
            let header ← slice bytes i header_end
            patchLoop codec bytes fuel nal_end (out ++ header ++ rbspEscape patched_rbsp)
    else
      .ok out

def patchPacketForLowLatencyDpb (codec : Codec) (bytes : List UInt8) : Outcome (List UInt8) :=
  patchLoop codec bytes bytes.length 0 []

/-! ### On units -/

/-- The payload the patcher puts in the place of a payload with a whole header. -/
def patchPayload (codec : Codec) (payload : List UInt8) : Outcome (List UInt8) :=
  if (payload.head?.map codec.nalType) ≠ some codec.spsType then
    .ok payload
  else do
    let patched_rbsp ← patchSpsRbsp codec (rbspUnescape (payload.drop codec.headerLen))
    pure (payload.take codec.headerLen ++ rbspEscape patched_rbsp)

/-- The patcher on the units of a stream. -/
def patchUnits (codec : Codec) : List Nal → Outcome (List Nal)
  | [] => .ok []
  | u :: us =>
    if u.payload.length < codec.headerLen then
      .ok (u :: us)
    else do
      let payload ← patchPayload codec u.payload
      let rest ← patchUnits codec us
      pure (⟨u.long, payload⟩ :: rest)

omit [BuildProfile]

/-! ### Scanning a decomposition -/

/-- Past one more byte the stream is the rest of the decomposition. -/
theorem join_step (a p : List UInt8) (b : UInt8) (us : List Nal) :
    a ++ join (b :: p) us = (a ++ [b]) ++ join p us ∧ (a ++ [b]).length = a.length + 1 := by
  rw [List.append_assoc, List.length_append]
  exact ⟨rfl, rfl⟩

theorem scanStartCodeFrom_join (fuel : ℕ) (a p : List UInt8) (us : List Nal) (h : Tight p us)
    (hfuel : (join p us).length ≤ fuel) :
    scanStartCodeFrom (a ++ join p us) fuel a.length =
      us.head?.map fun u => (u.code.length, a.length + p.length + u.code.length) := by
  induction fuel generalizing a p with
  | zero =>
      cases us with
      | nil => rfl
      | cons u us =>
          have := three_le_join_length p u us
          omega
  | succ fuel ih =>
      rw [scanStartCodeFrom, List.drop_left]
      cases p with
      | nil =>
          cases us with
          | nil => simp
          | cons u us =>
              have hlen := three_le_join_length [] u us
              rw [if_pos (by rw [List.length_append]; omega), join_cons, List.nil_append]
              exact scan_code u (join u.payload us) (fun k => some (k, a.length + k)) _
      | cons b p =>
          obtain ⟨hstep, hone⟩ := join_step a p b us
          have hshort : (join p us).length ≤ fuel := by
            rw [join_pre_cons, List.length_cons] at hfuel
            omega
          have hnext := ih (a ++ [b]) p h.tail hshort
          rw [← hstep, hone] at hnext
          by_cases hroom : a.length + 3 ≤ (a ++ join (b :: p) us).length
          · rw [if_pos hroom, join_pre_cons, scan_free h, ← join_pre_cons, hnext, List.length_cons]
            congr 1
            funext u
            congr 1
            omega
          · rw [if_neg hroom]
            cases us with
            | nil => rfl
            | cons u us =>
                have := three_le_join_length (b :: p) u us
                rw [List.length_append] at hroom
                omega

theorem nalEndFrom_join (fuel : ℕ) (a p : List UInt8) (us : List Nal) (h : Tight p us)
    (hfuel : (join p us).length ≤ fuel) :
    nalEndFrom (a ++ join p us) fuel a.length = a.length + p.length := by
  induction fuel generalizing a p with
  | zero =>
      cases us with
      | nil => simp [nalEndFrom]
      | cons u us =>
          have := three_le_join_length p u us
          omega
  | succ fuel ih =>
      rw [nalEndFrom, List.drop_left]
      by_cases hroom : a.length + 3 > (a ++ join p us).length
      · rw [if_pos hroom]
        cases us with
        | nil => simp
        | cons u us =>
            have := three_le_join_length p u us
            rw [List.length_append] at hroom
            omega
      · rw [if_neg hroom]
        cases p with
        | nil =>
            cases us with
            | nil => simp at hroom
            | cons u us =>
                have hb : [0, 0, 0, 1] <+: join [] (u :: us) ∨ [0, 0, 1] <+: join [] (u :: us) := by
                  rw [join_cons, List.nil_append]
                  exact begins_code u _
                rw [if_pos hb]
                rfl
        | cons b p =>
            obtain ⟨hstep, hone⟩ := join_step a p b us
            have hshort : (join p us).length ≤ fuel := by
              rw [join_pre_cons, List.length_cons] at hfuel
              omega
            have hnext := ih (a ++ [b]) p h.tail hshort
            rw [← hstep, hone] at hnext
            have hno : ¬ ([0, 0, 0, 1] <+: join (b :: p) us ∨ [0, 0, 1] <+: join (b :: p) us) :=
              h.not_begins
            rw [if_neg hno, hnext, List.length_cons]
            omega

theorem scanStartCode_join (a p : List UInt8) (us : List Nal) (h : Tight p us) :
    scanStartCode (a ++ join p us) a.length =
      us.head?.map fun u => (u.code.length, a.length + p.length + u.code.length) :=
  scanStartCodeFrom_join _ a p us h (by simp)

theorem nalEnd_join (a p : List UInt8) (us : List Nal) (h : Tight p us) :
    nalEnd (a ++ join p us) a.length = a.length + p.length :=
  nalEndFrom_join _ a p us h (by simp)

/-- Where no start code begins the scanner finds none, from any offset. -/
theorem scanStartCode_of_free {p : List UInt8} (h : Free [] p) (i : ℕ) : scanStartCode p i = none := by
  rcases Nat.lt_or_ge p.length i with hlt | hle
  · rw [scanStartCode]
    cases p.length with
    | zero => rfl
    | succ fuel =>
        rw [scanStartCodeFrom, if_neg (by omega)]
  · have htight : Tight p [] := h
    have hscan := scanStartCode_join (p.take i) (p.drop i) [] (htight.drop i)
    rw [join_nil, List.take_append_drop, List.length_take_of_le hle] at hscan
    exact hscan

/-- **Emulation prevention.**  Whatever the bytes, unescaping undoes escaping; what was escaped has no three
bytes `00 00 b` with `b` at most 2, so neither start code, and the scanner finds none from any offset. -/
theorem emulation_prevention (x : List UInt8) :
    rbspUnescape (rbspEscape x) = x ∧
      (∀ b ≤ 2, ¬ [0, 0, b] <:+: rbspEscape x) ∧
      (¬ shortCode <:+: rbspEscape x ∧ ¬ longCode <:+: rbspEscape x) ∧
      ∀ i, scanStartCode (rbspEscape x) i = none := by
  have hfree := rbspEscape_emulationFree x
  refine ⟨rbspUnescape_escape x, emulationFree_iff.1 hfree, hfree.not_code, ?_⟩
  intro i
  exact scanStartCode_of_free hfree.free i

/-! ### The patcher on a decomposition -/

variable [BuildProfile]

/-- **One turn of the loop.**  With `x` up to the end of the start code, `payload` up to the next one
and `rest` behind it, the turn stops at a short header and goes on past any other payload. -/
theorem patchLoop_turn (codec : Codec) (fuel : ℕ) (a x payload rest out : List UInt8) {sc_len : ℕ}
    (hx : x ≠ [])
    (hscan : scanStartCode (a ++ (x ++ (payload ++ rest))) a.length =
      some (sc_len, a.length + x.length))
    (hend : nalEnd (a ++ (x ++ (payload ++ rest))) (a.length + x.length) =
      a.length + x.length + payload.length) :
    patchLoop codec (a ++ (x ++ (payload ++ rest))) (fuel + 1) a.length out =
      if payload.length < codec.headerLen then .ok (out ++ (x ++ (payload ++ rest)))
      else patchPayload codec payload >>= fun payload' =>
        patchLoop codec (a ++ (x ++ (payload ++ rest))) fuel (a.length + x.length + payload.length)
          (out ++ (x ++ payload')) := by
  have hpos : 0 < x.length := List.length_pos_iff.2 hx
  have hroom : a.length < (a ++ (x ++ (payload ++ rest))).length := by
    simp only [List.length_append]
    omega
  rw [patchLoop, if_pos hroom, hscan]
  simp only [hend, List.drop_left]
  by_cases hshort : payload.length < codec.headerLen
  · rw [if_pos hshort, if_pos (by omega)]
  · have hheader : 0 < codec.headerLen := by cases codec <;> decide
    rw [if_neg hshort, if_neg (by omega)]
    -- the header, the rest of the payload, and what is behind it
    have hlen : (payload.take codec.headerLen).length = codec.headerLen :=
      List.length_take_of_le (by omega)
    have hsplit : a ++ (x ++ payload.take codec.headerLen) ++ (payload.drop codec.headerLen ++ rest) =
        a ++ (x ++ (payload ++ rest)) := by
      conv_rhs => rw [← List.take_append_drop codec.headerLen payload]
      simp only [List.append_assoc]
    have hescaped : slice (a ++ (x ++ (payload ++ rest))) (a.length + x.length + codec.headerLen)
        (a.length + x.length + payload.length) = .ok (payload.drop codec.headerLen) := by
      have hslice := slice_append (a ++ (x ++ payload.take codec.headerLen))
        (payload.drop codec.headerLen) rest
      rw [hsplit] at hslice
      convert hslice using 2 <;> simp only [List.length_append, hlen, List.length_drop] <;> omega
    have hhead : slice (a ++ (x ++ (payload ++ rest))) a.length
        (a.length + x.length + codec.headerLen) = .ok (x ++ payload.take codec.headerLen) := by
      have hslice := slice_append a (x ++ payload.take codec.headerLen)
        (payload.drop codec.headerLen ++ rest)
      rw [← List.append_assoc a, hsplit] at hslice
      convert hslice using 2
      rw [List.length_append, hlen, Nat.add_assoc]
    cases payload with
    | nil => exact absurd hheader (by simpa using hshort)
    | cons b t =>
        have hindex : index (a ++ (x ++ (b :: t ++ rest))) (a.length + x.length) = .ok b := by
          rw [← List.append_assoc, ← List.length_append]
          exact index_append (a ++ x) b (t ++ rest)
        have hnal : slice (a ++ (x ++ (b :: t ++ rest))) a.length
            (a.length + x.length + (b :: t).length) = .ok (x ++ b :: t) := by
          have := slice_append a (x ++ b :: t) rest
          rwa [List.append_assoc, List.length_append, ← Nat.add_assoc] at this
        rw [hindex]
        by_cases hsps : codec.nalType b ≠ codec.spsType
        · have hpatch : patchPayload codec (b :: t) = .ok (b :: t) := if_pos (by simpa using hsps)
          rw [hpatch]
          simp only [bind, Except.bind, if_pos hsps, hnal]
        · have hpatch : patchPayload codec (b :: t) = _ := if_neg (by simpa using hsps)
          rw [hpatch]
          simp only [bind, Except.bind, if_neg hsps, hescaped, hhead]
          cases patchSpsRbsp codec (rbspUnescape ((b :: t).drop codec.headerLen)) with
          | error e => rfl
          | ok body => simp [pure, Except.pure]

/-- **The patcher on a decomposition.** -/
theorem patchLoop_join (codec : Codec) (fuel : ℕ) (a p out : List UInt8) (us : List Nal)
    (h : Tight p us) (hfuel : (join p us).length ≤ fuel) :
    patchLoop codec (a ++ join p us) fuel a.length out =
      (patchUnits codec us).map fun us' => out ++ join p us' := by
  induction us generalizing fuel a p out with
  | nil =>
      rw [join_nil] at hfuel ⊢
      cases fuel with
      | zero =>
          obtain rfl : p = [] := List.eq_nil_of_length_eq_zero (Nat.le_zero.1 hfuel)
          simp [patchLoop, patchUnits, Except.map]
      | succ fuel =>
          have hscan := scanStartCode_join a p [] h
          rw [join_nil] at hscan
          rw [patchLoop, hscan]
          by_cases hroom : a.length < (a ++ p).length
          · rw [if_pos hroom]
            simp [patchUnits, Except.map]
          · obtain rfl : p = [] := by
              rw [List.length_append] at hroom
              exact List.eq_nil_of_length_eq_zero (by omega)
            rw [if_neg hroom]
            simp [patchUnits, Except.map]
  | cons u us ih =>
      have hlen := three_le_join_length p u us
      obtain ⟨fuel, rfl⟩ : ∃ k, fuel = k + 1 := ⟨fuel - 1, by omega⟩
      have hjoin : ∀ (v : Nal) (vs : List Nal), v.code = u.code →
          join p (v :: vs) = (p ++ u.code) ++ (v.payload ++ join [] vs) := by
        intro v vs hcode
        rw [join_cons, hcode, ← List.append_nil v.payload, join_append]
        simp
      have hx : p ++ u.code ≠ [] := by
        have := three_le_code_length u
        intro hnil
        rw [List.append_eq_nil_iff] at hnil
        simp [hnil.2] at this
      have hscan := scanStartCode_join a p (u :: us) h
      have hend := nalEnd_join (a ++ (p ++ u.code)) u.payload us h.2
      rw [hjoin u us rfl] at hscan hfuel ⊢
      rw [List.append_assoc, show u.payload = u.payload ++ [] from (List.append_nil _).symm,
        join_append, List.append_nil, List.length_append] at hend
      rw [List.head?_cons, Option.map_some, Nat.add_assoc, ← List.length_append] at hscan
      rw [patchLoop_turn codec fuel a (p ++ u.code) u.payload (join [] us) out hx hscan hend,
        patchUnits]
      by_cases hshort : u.payload.length < codec.headerLen
      · rw [if_pos hshort, if_pos hshort, Except.map, hjoin u us rfl]
      · rw [if_neg hshort, if_neg hshort]
        cases patchPayload codec u.payload with
        | error e => rfl
        | ok payload =>
            have hnext := ih fuel (a ++ ((p ++ u.code) ++ u.payload)) []
              (out ++ ((p ++ u.code) ++ payload)) h.2.nil (by
                simp only [List.length_append] at hfuel
                have := three_le_code_length u
                omega)
            have hbytes : (a ++ ((p ++ u.code) ++ u.payload)) ++ join [] us =
                a ++ ((p ++ u.code) ++ (u.payload ++ join [] us)) := by
              simp only [List.append_assoc]
            rw [hbytes, List.length_append, List.length_append, ← Nat.add_assoc] at hnext
            refine hnext.trans ?_
            cases patchUnits codec us with
            | error e => rfl
            | ok rest =>
                have hnew := hjoin ⟨u.long, payload⟩ rest rfl
                show Except.ok (out ++ ((p ++ u.code) ++ payload) ++ join [] rest) =
                  Except.ok (out ++ join p (⟨u.long, payload⟩ :: rest))
                rw [hnew]
                simp only [List.append_assoc]

/-- The patcher is `patchUnits` on the units of the packet. -/
theorem patchPacket_join (codec : Codec) {p : List UInt8} {us : List Nal} (h : Tight p us) :
    patchPacketForLowLatencyDpb codec (join p us) = (patchUnits codec us).map (join p) :=
  patchLoop_join codec _ [] p [] us h (Nat.le_refl _)

/-! ### The new payloads -/

omit [BuildProfile] in
/-- The first header byte of an SPS is not zero. -/
theorem spsByte_ne_zero {codec : Codec} {b : UInt8} (h : codec.nalType b = codec.spsType) :
    b ≠ 0 := by
  rintro rfl
  cases codec <;> revert h <;> decide

omit [BuildProfile] in
/-- An RBSP that keeps the first two bytes of the old one does not complete a start code with the
header in front of it, where the old one did not. -/
theorem not_begins_escape {b : UInt8} {escaped body : List UInt8}
    (hold : ¬ Begins (b :: escaped)) (hlen : 2 ≤ (rbspUnescape escaped).length)
    (htake : body.take 2 = (rbspUnescape escaped).take 2) : ¬ Begins (b :: rbspEscape body) := by
  have hfront : (rbspEscape body).take 2 = escaped.take 2 := by
    rw [rbspEscape_take_two, htake, rbspUnescape_take_two]
  have hfree := rbspEscape_emulationFree body
  intro hb
  rcases hx : rbspEscape body with _ | ⟨b₀, _ | ⟨b₁, t⟩⟩
  · simp [hx, Begins, longCode, shortCode, List.cons_prefix_cons] at hb
  · simp [hx, Begins, longCode, shortCode, List.cons_prefix_cons] at hb
  · rw [hx] at hfront hfree hb
    obtain ⟨rfl, rfl, h1 | ⟨rfl, hhead⟩⟩ := (begins_iff b b₀ b₁ t).1 hb
    · -- `00 | 00 01` was there before
      subst h1
      rcases escaped with _ | ⟨c₀, _ | ⟨c₁, u⟩⟩
      · cases hfront
      · cases hfront
      · obtain ⟨h0, htail⟩ := List.cons.inj hfront
        obtain ⟨h1, -⟩ := List.cons.inj htail
        exact hold ((begins_iff ..).2 ⟨rfl, h0.symm, .inl h1.symm⟩)
    · -- `00 | 00 00 01` does not come out of escaping
      rcases t with _ | ⟨d, u⟩
      · cases hhead
      · obtain rfl : d = 1 := by simpa using hhead
        exact hfree.1 (by decide)

/-- **No start code in a new payload.** -/
theorem patchPayload_free {codec : Codec} {payload q : List UInt8} (hfree : Free [] payload)
    (hlen : codec.headerLen ≤ payload.length) (h : patchPayload codec payload = .ok q) :
    Free [] q := by
  rw [patchPayload] at h
  by_cases hsps : payload.head?.map codec.nalType ≠ some codec.spsType
  · rw [if_pos hsps] at h
    cases h
    exact hfree
  · rw [if_neg hsps, not_not] at *
    obtain ⟨body, hbody, hret⟩ := Outcome.bind_eq_ok.1 h
    cases hret
    have hescape := (rbspEscape_emulationFree body).free
    match codec, payload, hsps, hlen, hfree, hbody with
    | .h264, b :: t, hsps, _, _, _ =>
        have hne : b ≠ 0 := spsByte_ne_zero (Option.some.inj hsps)
        exact ⟨fun hb => hne hb.head, hescape⟩
    | .hevc, b :: c :: t, hsps, _, hfree, hbody =>
        have hne : b ≠ 0 := spsByte_ne_zero (Option.some.inj hsps)
        obtain ⟨hlen₂, htake⟩ := patchHevcSpsRbsp_take_two hbody
        have hold := hfree.2.1
        rw [List.append_nil] at hold
        refine ⟨fun hb => hne hb.head, ?_, hescape⟩
        simpa using not_begins_escape hold hlen₂ htake
    | .hevc, [_], _, hlen, _, _ => exact absurd hlen (by simp [Codec.headerLen])
    | .h264, [], hsps, _, _, _ => cases hsps
    | .hevc, [], hsps, _, _, _ => cases hsps

theorem patchPayload_head {codec : Codec} {payload q : List UInt8}
    (hlen : codec.headerLen ≤ payload.length) (h : patchPayload codec payload = .ok q) :
    q.head? = payload.head? := by
  rw [patchPayload] at h
  split at h
  · cases h
    rfl
  · obtain ⟨body, -, hret⟩ := Outcome.bind_eq_ok.1 h
    cases hret
    match codec, payload, hlen with
    | .h264, b :: t, _ => rfl
    | .hevc, b :: c :: t, _ => rfl

theorem patchUnits_free {codec : Codec} {us us' : List Nal} (h : patchUnits codec us = .ok us')
    (hus : ∀ u ∈ us, Free [] u.payload) : ∀ u ∈ us', Free [] u.payload := by
  induction us generalizing us' with
  | nil =>
      cases h
      exact hus
  | cons u us ih =>
      rw [patchUnits] at h
      split at h
      · cases h
        exact hus
      · rename_i hlen
        obtain ⟨payload, hpayload, h⟩ := Outcome.bind_eq_ok.1 h
        obtain ⟨rest, hrest, hret⟩ := Outcome.bind_eq_ok.1 h
        cases hret
        have hfree := patchPayload_free (hus u List.mem_cons_self) (Nat.not_lt.1 hlen) hpayload
        have htail := ih hrest fun v hv => hus v (List.mem_cons_of_mem u hv)
        intro v hv
        rcases List.mem_cons.1 hv with rfl | hv
        · exact hfree
        · exact htail v hv

end Penflow
