import Penflow.Client.Protocol

/-!
# The two ends of the wire agree

What one side writes the other side reads: a sequence of frames comes out of the stream as it was put in,
however the stream is cut into chunks, and every typed payload is decoded to the fields it was encoded
from.
-/

namespace Penflow.Client

open Chunks

/-! ### Frames -/

/-- The signed test of the client and the unsigned one of the PC refuse the same lengths. -/
theorem length_accepted_iff (word : UInt32) :
    (0 ≤ word.toInt32 ∧ word.toInt32 ≤ 64 * 1024 * 1024) ↔ word.toNat ≤ maxPayloadLen := by
  have hint : word.toInt32.toInt = if 2 * word.toNat < 2 ^ 32 then (word.toNat : ℤ)
      else (word.toNat : ℤ) - (2 ^ 32 : ℕ) := BitVec.toInt_eq_toNat_cond word.toBitVec
  have hzero : (0 : Int32).toInt = 0 := by decide
  have hlimit : (64 * 1024 * 1024 : Int32).toInt = 64 * 1024 * 1024 := by decide
  have hlt := word.toNat_lt
  rw [Int32.le_iff_toInt_le, Int32.le_iff_toInt_le, hint, hzero, hlimit, maxPayloadLen]
  split <;> omega

theorem toNatClampNeg_of_accepted {word : UInt32} (h : word.toNat ≤ maxPayloadLen) :
    word.toInt32.toNatClampNeg = word.toNat :=
  (Int32.toNat_toUInt32_of_le ((length_accepted_iff word).2 h).1).symm

theorem sendMsg_flatten (f : Frame) :
    (sendMsg f.msg_id f.payload).flatten = encodeFrame f.msg_id f.payload := by
  rw [sendMsg, encodeFrame, List.flatten_cons, List.flatten_cons, List.flatten_singleton,
    List.append_assoc]

/-- **One message off the stream of the client.** -/
theorem recvMsg_encodeFrame {f : Frame} (hf : f.payload.length ≤ maxPayloadLen) {rest : List UInt8}
    {input : List (List UInt8)} (h : input.flatten = encodeFrame f.msg_id f.payload ++ rest) :
    ∃ input', recvMsg input = (.ok f, input') ∧ input'.flatten = rest := by
  rw [encodeFrame, List.append_assoc, List.append_assoc] at h
  obtain ⟨s₁, htype, h₁⟩ := readExact_flatten (n := 1) rfl h
  obtain ⟨s₂, hword, h₂⟩ := readExact_flatten (u32BE_length _) h₁
  obtain ⟨s₃, hpayload, h₃⟩ := readExact_flatten rfl h₂
  have hlen := toNat_payload_length hf
  have haccepted : (UInt32.ofNat f.payload.length).toNat ≤ maxPayloadLen := by
    rw [hlen]
    exact hf
  refine ⟨s₃, ?_, h₃⟩
  rw [recvMsg, htype]
  simp only [hword, u32OfBE_u32BE]
  rw [if_pos ((length_accepted_iff _).2 haccepted), toNatClampNeg_of_accepted haccepted, hlen, hpayload]
  rfl

theorem recvMsg_tooLarge {type : UInt8} {word : UInt32} (hword : maxPayloadLen < word.toNat)
    {rest : List UInt8} {input : List (List UInt8)}
    (h : input.flatten = [type] ++ (u32BE word ++ rest)) :
    ∃ input', recvMsg input = (.error (.illegalArgument
        ("absurd message length: " ++ toString word.toInt32)), input') ∧ input'.flatten = rest := by
  obtain ⟨s₁, htype, h₁⟩ := readExact_flatten (n := 1) rfl h
  obtain ⟨s₂, hlen, h₂⟩ := readExact_flatten (u32BE_length _) h₁
  refine ⟨s₂, ?_, h₂⟩
  rw [recvMsg, htype]
  simp only [hlen, u32OfBE_u32BE]
  rw [if_neg fun h => absurd ((length_accepted_iff word).1 h) (by omega)]

/-- A message that has not arrived in full. -/
theorem recvMsg_short {f : Frame} (hf : f.payload.length ≤ maxPayloadLen) {n : ℕ}
    (hn : n < (encodeFrame f.msg_id f.payload).length) :
    ∃ input', recvMsg [(encodeFrame f.msg_id f.payload).take n] = (.error .endOfFile, input') := by
  have hlength : ∀ m (bs : List UInt8), bs.length < m → readExact m [bs] = none := by
    intro m bs hlt
    apply readExact_eq_none
    rw [List.flatten_singleton]
    exact hlt
  rw [encodeFrame_length] at hn
  rw [encodeFrame, List.append_assoc]
  cases n with
  | zero =>
      refine ⟨[], ?_⟩
      rw [recvMsg, hlength 1 _ (by simp)]
  | succ n =>
      have hflat : [([f.msg_id] ++ (u32BE (UInt32.ofNat f.payload.length) ++ f.payload)).take (n + 1)].flatten =
          [f.msg_id] ++ (u32BE (UInt32.ofNat f.payload.length) ++ f.payload).take n := by
        simp
      obtain ⟨s₁, htype, h₁⟩ := readExact_flatten (n := 1) rfl hflat
      rw [recvMsg, htype]
      by_cases hword : n < 4
      · refine ⟨[], ?_⟩
        have hnone : readExact 4 s₁ = none := by
          apply readExact_eq_none
          rw [h₁, List.length_take]
          omega
        simp only [hnone]
      · have hsplit : (u32BE (UInt32.ofNat f.payload.length) ++ f.payload).take n =
            u32BE (UInt32.ofNat f.payload.length) ++ f.payload.take (n - 4) := by
          rw [List.take_append, u32BE_length, List.take_of_length_le (by rw [u32BE_length]; omega)]
        rw [hsplit] at h₁
        obtain ⟨s₂, hlen, h₂⟩ := readExact_flatten (u32BE_length _) h₁
        have hlen' := toNat_payload_length hf
        have haccepted : (UInt32.ofNat f.payload.length).toNat ≤ maxPayloadLen := by
          rw [hlen']
          exact hf
        have hnone : readExact f.payload.length s₂ = none := by
          apply readExact_eq_none
          rw [h₂, List.length_take]
          omega
        refine ⟨[], ?_⟩
        simp only [hlen, u32OfBE_u32BE]
        rw [if_pos ((length_accepted_iff _).2 haccepted), toNatClampNeg_of_accepted haccepted, hlen', hnone]

/-- The three ways to put a frame on the wire. -/
inductive Sender where
  | encodeFrame
  | writeFrame
  | sendMsg

def Sender.bytes : Sender → Frame → List UInt8
  | encodeFrame, f => Penflow.encodeFrame f.msg_id f.payload
  | writeFrame, f => Penflow.writeFrame f.msg_id f.payload
  | sendMsg, f => (Client.sendMsg f.msg_id f.payload).flatten

theorem Sender.bytes_eq (s : Sender) (f : Frame) :
    s.bytes f = Penflow.encodeFrame f.msg_id f.payload := by
  cases s with
  | encodeFrame => rfl
  | writeFrame => rfl
  | sendMsg => exact sendMsg_flatten f

/-- At most `n` frames off a stream, up to the first error. -/
def readAll {ε : Type} (read : List (List UInt8) → Except ε Frame × List (List UInt8)) :
    ℕ → List (List UInt8) → List Frame × List (List UInt8)
  | 0, stream => ([], stream)
  | n + 1, stream =>
    match read stream with
    | (.error _, stream) => ([], stream)
    | (.ok f, stream) =>
      let r := readAll read n stream
      (f :: r.1, r.2)

/-- A reader that takes one frame off the stream takes any number of them. -/
theorem readAll_of_read {ε : Type} {read : List (List UInt8) → Except ε Frame × List (List UInt8)}
    (hread : ∀ {f : Frame}, f.payload.length ≤ maxPayloadLen → ∀ {rest stream},
      stream.flatten = encodeFrame f.msg_id f.payload ++ rest →
        ∃ stream', read stream = (.ok f, stream') ∧ stream'.flatten = rest)
    (hend : ∀ {stream : List (List UInt8)}, stream.flatten = [] → ∃ e, read stream = (.error e, []))
    {frames : List Frame} (hframes : ∀ f ∈ frames, f.payload.length ≤ maxPayloadLen) {n : ℕ}
    (hn : frames.length ≤ n) {stream : List (List UInt8)}
    (h : stream.flatten = frames.flatMap fun f => encodeFrame f.msg_id f.payload) :
    (readAll read n stream).1 = frames ∧ (readAll read n stream).2.flatten = [] := by
  induction frames generalizing n stream with
  | nil =>
      cases n with
      | zero => exact ⟨rfl, h⟩
      | succ n =>
          obtain ⟨e, he⟩ := hend h
          rw [readAll, he]
          exact ⟨rfl, rfl⟩
  | cons f frames ih =>
      cases n with
      | zero => cases hn
      | succ n =>
          obtain ⟨stream', hstream, hrest⟩ := hread (hframes f List.mem_cons_self) h
          obtain ⟨hmore, hleft⟩ := ih (fun g hg => hframes g (List.mem_cons_of_mem f hg))
            (Nat.le_of_succ_le_succ hn) hrest
          rw [readAll, hstream]
          exact ⟨congrArg (f :: ·) hmore, hleft⟩

theorem readFrame_end {stream : List (List UInt8)} (h : stream.flatten = []) :
    ∃ e, readFrame stream = (.error e, []) := by
  have hnone : readExact 1 stream = none := readExact_eq_none (by rw [h]; exact Nat.zero_lt_one)
  exact ⟨.io, by rw [readFrame, hnone]⟩

theorem recvMsg_end {input : List (List UInt8)} (h : input.flatten = []) :
    ∃ e, recvMsg input = (.error e, []) := by
  have hnone : readExact 1 input = none := readExact_eq_none (by rw [h]; exact Nat.zero_lt_one)
  exact ⟨.endOfFile, by rw [recvMsg, hnone]⟩

/-- **The frames of a stream.**  Both receivers read back exactly the frames that were sent, however each
was sent and however the stream is cut; and a length above the limit both refuse before they read any of
the payload. -/
theorem frames_round_trip :
    (∀ (sent : List (Sender × Frame)) (stream : List (List UInt8)) (n : ℕ),
      (∀ s ∈ sent, s.2.payload.length ≤ maxPayloadLen) →
      stream.flatten = (sent.flatMap fun s => s.1.bytes s.2) → sent.length ≤ n →
        ((readAll readFrame n stream).1 = sent.map Prod.snd ∧
          (readAll readFrame n stream).2.flatten = []) ∧
        (readAll recvMsg n stream).1 = sent.map Prod.snd ∧ (readAll recvMsg n stream).2.flatten = []) ∧
    ∀ (msg_id : UInt8) (word : UInt32) (rest : List UInt8) (stream : List (List UInt8)),
      maxPayloadLen < word.toNat → stream.flatten = [msg_id] ++ (u32BE word ++ rest) →
        (∃ left, readFrame stream = (.error (.payloadTooLarge word.toNat), left) ∧
          left.flatten = rest) ∧
        ∃ left, recvMsg stream = (.error (.illegalArgument
          ("absurd message length: " ++ toString word.toInt32)), left) ∧ left.flatten = rest := by
  constructor
  · intro sent stream n hsent hstream hn
    have hframes : ∀ f ∈ sent.map Prod.snd, f.payload.length ≤ maxPayloadLen := by
      intro f hf
      obtain ⟨s, hs, rfl⟩ := List.mem_map.1 hf
      exact hsent s hs
    have hbytes : stream.flatten =
        (sent.map Prod.snd).flatMap fun f => encodeFrame f.msg_id f.payload := by
      rw [hstream, List.flatMap_map]
      simp only [Sender.bytes_eq]
    have hlen : (sent.map Prod.snd).length ≤ n := by
      rw [List.length_map]
      exact hn
    exact ⟨readAll_of_read readFrame_encodeFrame readFrame_end hframes hlen hbytes,
      readAll_of_read recvMsg_encodeFrame recvMsg_end hframes hlen hbytes⟩
  · intro msg_id word rest stream hword hstream
    exact ⟨readFrame_tooLarge hword hstream, recvMsg_tooLarge hword hstream⟩

/-- Two frames in three chunks. -/
theorem frames_round_trip_chunks :
    (readAll readFrame 3 [[0x7F, 0, 0], [0, 0, 0x07, 0, 0, 0, 4, 0, 0], [0, 2]]).1 =
      [⟨msgPcGoodbye, []⟩, ⟨msgClientConfig, [0, 0, 0, 2]⟩] :=
  (frames_round_trip.1 [(.writeFrame, ⟨msgPcGoodbye, []⟩), (.sendMsg, ⟨msgClientConfig, [0, 0, 0, 2]⟩)]
    [[0x7F, 0, 0], [0, 0, 0x07, 0, 0, 0, 4, 0, 0], [0, 2]] 3 (by decide) (by decide) (by decide)).1.1

/-! ### Payloads of the PC -/

/-- What `decodeX` starts from: the buffer read from its front. -/
theorem run'_eq {α : Type} (m : ByteBuffer α) (buf : List UInt8) :
    StateT.run' m buf = (m buf).map Prod.fst := rfl

theorem decodeHelloPc_encode (m : Penflow.HelloPc) :
    decodeHelloPc m.encode = .ok ⟨ubyte m.protocol_version, ushort m.width, ushort m.height, m.codec,
      m.bitrate_bps.toInt32, ubyte m.fps⟩ := by
  have hencode : m.encode = m.protocol_version :: (u16BE m.width ++ (u16BE m.height ++
      (m.codec :: (u32BE m.bitrate_bps ++ [m.fps])))) := by
    simp [HelloPc.encode]
  rw [decodeHelloPc, hencode, run'_eq, bind_of_ok (getByte_cons _ _), bind_of_ok (getShort_append _ _),
    bind_of_ok (getShort_append _ _), bind_of_ok (getByte_cons _ _), bind_of_ok (getInt_append _ _),
    bind_of_ok (getByte_cons _ _)]
  rfl

theorem decodeClientConfig_encode (m : Penflow.ClientConfig) :
    decodeClientConfig m.encode = .ok ⟨m.flags.toInt32⟩ := by
  have hencode : m.encode = u32BE m.flags ++ [] := (List.append_nil _).symm
  have hlen : 4 ≤ m.encode.length := (u32BE_length _).ge
  rw [decodeClientConfig, run'_eq, bind_of_ok (require_of hlen _ _), hencode,
    bind_of_ok (getInt_append _ _)]
  rfl

theorem extended_ubyte (flags : UInt8) :
    (ubyte flags &&& ubyte frameFlagExtended != 0) = (flags &&& frameFlagExtended != 0) := by
  have hall : ∀ b : BitVec 8, (ubyte ⟨b⟩ &&& ubyte frameFlagExtended != 0) =
      (⟨b⟩ &&& frameFlagExtended != 0) := by
    decide +kernel
  exact hall flags.toBitVec

theorem decodeVideoFrame_encode (m : Penflow.VideoFrame) :
    decodeVideoFrame m.encode = .ok ⟨m.pts_ns, ubyte m.flags,
      if m.extended then some (m.capture_us.getD 0).toInt32 else none,
      if m.extended then some (m.encode_us.getD 0).toInt32 else none, m.coded⟩ := by
  have hflags : (ubyte m.flags &&& ubyte frameFlagExtended != 0) = m.extended := extended_ubyte m.flags
  cases hext : m.extended with
  | true =>
      have hencode : m.encode = i64BE m.pts_ns ++ (m.flags :: (u32BE (m.capture_us.getD 0) ++
          (u32BE (m.encode_us.getD 0) ++ (m.coded ++ [])))) := by
        simp [VideoFrame.encode, hext]
      have hlen : m.encode.length = 17 + m.coded.length := by
        rw [hencode]
        simp
        omega
      rw [hext] at hflags
      rw [decodeVideoFrame, run'_eq, bind_of_ok (require_of (by omega) _ _), hencode,
        bind_of_ok (getLong_append _ _), bind_of_ok (getByte_cons _ _)]
      simp only [hflags, if_true]
      rw [← hencode, bind_of_ok (require_of (by omega) _ _), bind_of_ok (getInt_append _ _),
        bind_of_ok (getInt_append _ _), bind_of_ok (getBytes_append (by omega))]
      rfl
  | false =>
      have hencode : m.encode = i64BE m.pts_ns ++ (m.flags :: (m.coded ++ [])) := by
        simp [VideoFrame.encode, hext]
      have hlen : m.encode.length = 9 + m.coded.length := by
        rw [hencode]
        simp
        omega
      rw [hext] at hflags
      rw [decodeVideoFrame, run'_eq, bind_of_ok (require_of (by omega) _ _), hencode,
        bind_of_ok (getLong_append _ _), bind_of_ok (getByte_cons _ _)]
      simp only [hflags, Bool.false_eq_true, if_false]
      rw [← hencode, bind_of_ok (getBytes_append (by omega))]
      rfl

theorem decodeTelemetry_encode (m : Penflow.Telemetry) :
    decodeTelemetry m.encode = .ok ⟨m.frames.toInt32, m.dropped.toInt32, m.capture_us_avg.toInt32,
      m.encode_us_avg.toInt32, m.encode_us_p99.toInt32, ubyte m.queue_depth⟩ := by
  have hencode : m.encode = u32BE m.frames ++ (u32BE m.dropped ++ (u32BE m.capture_us_avg ++
      (u32BE m.encode_us_avg ++ (u32BE m.encode_us_p99 ++ [m.queue_depth])))) := by
    simp [Telemetry.encode]
  have hlen : m.encode.length = 21 := by
    rw [hencode]
    simp
  rw [decodeTelemetry, run'_eq, bind_of_ok (require_of hlen _ _), hencode,
    bind_of_ok (getInt_append _ _), bind_of_ok (getInt_append _ _), bind_of_ok (getInt_append _ _),
    bind_of_ok (getInt_append _ _), bind_of_ok (getInt_append _ _), bind_of_ok (getByte_cons _ _)]
  rfl

theorem decodeTimeSyncResp_encode (m : Penflow.TimeSyncResp) :
    decodeTimeSyncResp m.encode = .ok ⟨m.android_t1_ns, m.pc_t2_ns, m.pc_t3_ns⟩ := by
  have hencode : m.encode = i64BE m.android_t1_ns ++ (i64BE m.pc_t2_ns ++ (i64BE m.pc_t3_ns ++ [])) := by
    simp [TimeSyncResp.encode]
  have hlen : m.encode.length = 24 := by
    rw [hencode]
    simp
  rw [decodeTimeSyncResp, run'_eq, bind_of_ok (require_of hlen _ _), hencode,
    bind_of_ok (getLong_append _ _), bind_of_ok (getLong_append _ _), bind_of_ok (getLong_append _ _)]
  rfl

/-! ### Payloads of the tablet -/

theorem decode_encodeHelloAndroid (m : HelloAndroid) :
    HelloAndroid.decode (encodeHelloAndroid (ubyte m.protocol_version) (ushort m.display_width)
      (ushort m.display_height) (ushort m.pen_max_pressure) m.pen_tilt_min_deg.toInt32
      m.pen_tilt_max_deg.toInt32 (ubyte m.pen_buttons_count) (ubyte m.codec_caps)) = .ok m := by
  have hencode : encodeHelloAndroid (ubyte m.protocol_version) (ushort m.display_width)
      (ushort m.display_height) (ushort m.pen_max_pressure) m.pen_tilt_min_deg.toInt32
      m.pen_tilt_max_deg.toInt32 (ubyte m.pen_buttons_count) (ubyte m.codec_caps) = m.encode := by
    rw [encodeHelloAndroid, HelloAndroid.encode, toByte_ubyte, toByte_ubyte, toByte_ubyte,
      toShort_ushort, toShort_ushort, toShort_ushort, toShort_toInt32, toShort_toInt32]
    rfl
  rw [hencode, HelloAndroid.decode_encode]

theorem decode_encodePenEvent (m : PenEventBits) :
    PenEventBits.decode (encodePenEvent m.ts_ns (ubyte m.phase) m.x_norm m.y_norm m.pressure m.tilt_x
      m.tilt_y (ubyte m.buttons) (ubyte m.tool)) = .ok m := by
  have hencode : encodePenEvent m.ts_ns (ubyte m.phase) m.x_norm m.y_norm m.pressure m.tilt_x
      m.tilt_y (ubyte m.buttons) (ubyte m.tool) = m.encode := by
    rw [encodePenEvent, PenEventBits.encode, toByte_ubyte, toByte_ubyte, toByte_ubyte]
  rw [hencode, PenEventBits.decode_encode]

/-- The contact on the client. -/
def ofBits (c : TouchContactBits) : TouchContact := ⟨ubyte c.pointer_id, c.x_norm, c.y_norm, c.pressure⟩

theorem coerceIn_ubyte (b : UInt8) : coerceIn (ubyte b) 0 255 = ubyte b := by
  have hall : ∀ b : BitVec 8, coerceIn (ubyte ⟨b⟩) 0 255 = ubyte ⟨b⟩ := by decide +kernel
  exact hall b.toBitVec

theorem encode_ofBits (c : TouchContactBits) : (ofBits c).encode = c.encode := by
  rw [TouchContact.encode, TouchContactBits.encode, ofBits]
  simp only [coerceIn_ubyte, toByte_ubyte]

theorem decode_encodeTouchEvent (m : TouchEventBits) :
    TouchEventBits.decode (encodeTouchEvent m.ts_ns (m.contacts.map ofBits)) =
      .ok ⟨m.ts_ns, m.contacts.take 255⟩ := by
  have hcontacts : ∀ contacts : List TouchContactBits,
      (contacts.map ofBits).flatMap TouchContact.encode = contacts.flatMap TouchContactBits.encode := by
    intro contacts
    rw [List.flatMap_map]
    simp only [encode_ofBits]
  have hencode : encodeTouchEvent m.ts_ns (m.contacts.map ofBits) = m.encode := by
    rw [encodeTouchEvent, TouchEventBits.encode, List.length_map]
    simp only [← List.map_take, hcontacts]
  rw [hencode, TouchEventBits.decode_encode]

theorem decode_encodeTimeSyncReq (m : TimeSyncReq) :
    TimeSyncReq.decode (encodeTimeSyncReq m.android_t1_ns) = .ok m := by
  have hfield : field (i64BE m.android_t1_ns) 0 8 = i64BE m.android_t1_ns :=
    field_all (i64BE_length _)
  rw [TimeSyncReq.decode, encodeTimeSyncReq, if_neg (not_not.2 (i64BE_length _)), hfield,
    i64OfBE_i64BE]

/-- **The payloads agree.**  Each side decodes what the other encodes; a touch list arrives cut to 255
contacts, and the costs that an extended frame leaves out arrive as zero.  Of the messages that the crate
both decodes and encodes, it encodes what it decoded to the same bytes. -/
theorem payloads_agree :
    (∀ m : HelloAndroid, HelloAndroid.decode (encodeHelloAndroid (ubyte m.protocol_version)
      (ushort m.display_width) (ushort m.display_height) (ushort m.pen_max_pressure)
      m.pen_tilt_min_deg.toInt32 m.pen_tilt_max_deg.toInt32 (ubyte m.pen_buttons_count)
      (ubyte m.codec_caps)) = .ok m) ∧
    (∀ m : PenEventBits, PenEventBits.decode (encodePenEvent m.ts_ns (ubyte m.phase) m.x_norm m.y_norm
      m.pressure m.tilt_x m.tilt_y (ubyte m.buttons) (ubyte m.tool)) = .ok m) ∧
    (∀ m : TouchEventBits, TouchEventBits.decode (encodeTouchEvent m.ts_ns (m.contacts.map ofBits)) =
      .ok ⟨m.ts_ns, m.contacts.take 255⟩) ∧
    (∀ m : TimeSyncReq, TimeSyncReq.decode (encodeTimeSyncReq m.android_t1_ns) = .ok m) ∧
    (∀ m : Penflow.HelloPc, decodeHelloPc m.encode = .ok ⟨ubyte m.protocol_version, ushort m.width,
      ushort m.height, m.codec, m.bitrate_bps.toInt32, ubyte m.fps⟩) ∧
    (∀ m : Penflow.ClientConfig, decodeClientConfig m.encode = .ok ⟨m.flags.toInt32⟩) ∧
    (∀ m : Penflow.VideoFrame, decodeVideoFrame m.encode = .ok ⟨m.pts_ns, ubyte m.flags,
      if m.extended then some (m.capture_us.getD 0).toInt32 else none,
      if m.extended then some (m.encode_us.getD 0).toInt32 else none, m.coded⟩) ∧
    (∀ m : Penflow.Telemetry, decodeTelemetry m.encode = .ok ⟨m.frames.toInt32, m.dropped.toInt32,
      m.capture_us_avg.toInt32, m.encode_us_avg.toInt32, m.encode_us_p99.toInt32,
      ubyte m.queue_depth⟩) ∧
    (∀ m : Penflow.TimeSyncResp, decodeTimeSyncResp m.encode =
      .ok ⟨m.android_t1_ns, m.pc_t2_ns, m.pc_t3_ns⟩) ∧
    (∀ p m, Penflow.HelloPc.decode p = .ok m → m.encode = p) ∧
    (∀ p m, HelloAndroid.decode p = .ok m → m.encode = p) ∧
    (∀ p m, PenEventBits.decode p = .ok m → m.encode = p) ∧
    (∀ p m, TouchEventBits.decode p = .ok m → m.encode = p) ∧
    (∀ p m, Penflow.VideoFrame.decode p = .ok m → m.encode = p) := by
  refine ⟨decode_encodeHelloAndroid, decode_encodePenEvent, decode_encodeTouchEvent,
    decode_encodeTimeSyncReq, decodeHelloPc_encode, decodeClientConfig_encode,
    decodeVideoFrame_encode, decodeTelemetry_encode, decodeTimeSyncResp_encode, ?_, ?_, ?_, ?_, ?_⟩
  · intro p m h
    exact HelloPc.encode_decode h
  · intro p m h
    exact HelloAndroid.encode_decode h
  · intro p m h
    exact PenEventBits.encode_decode h
  · intro p m h
    exact TouchEventBits.encode_decode h
  · intro p m h
    exact VideoFrame.encode_decode h

end Penflow.Client
