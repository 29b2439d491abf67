import Penflow.Protocol.Messages

/-!
# Typed payloads

The payloads as the crate encodes and decodes them.  A float on the wire is its bit pattern, so the
messages with floats stand here with their bits, and `PenEvent` and `TouchEvent` are what those bits
denote.  Every decoder that fixes the length of its payload is inverted by its encoder.
-/

namespace Penflow

open BigEndian

/-! ### Fields -/

theorem field_append_field (p : List UInt8) (a n m : ℕ) :
    field p a n ++ field p (a + n) m = field p a (n + m) := by
  rw [field, field, field, List.take_add, List.drop_drop]

theorem field_append_drop (p : List UInt8) (a n : ℕ) :
    field p a n ++ p.drop (a + n) = p.drop a := by
  rw [field, ← List.drop_drop, List.take_append_drop]

theorem field_all {p : List UInt8} {n : ℕ} (h : p.length = n) : field p 0 n = p :=
  List.take_of_length_le h.le

theorem field_length {p : List UInt8} {a n : ℕ} (h : a + n ≤ p.length) : (field p a n).length = n := by
  rw [field, List.length_take, List.length_drop]
  omega

theorem getD_eq_field {p : List UInt8} {i : ℕ} (h : i < p.length) : [p.getD i 0] = field p i 1 := by
  rw [List.getD_eq_getElem?_getD, List.getElem?_eq_getElem h, Option.getD_some, field,
    List.drop_eq_getElem_cons h, List.take_succ_cons, List.take_zero]

theorem field_append_right (pre bs : List UInt8) (a n : ℕ) :
    field (pre ++ bs) (pre.length + a) n = field bs a n := by
  rw [field, field, ← List.drop_drop, List.drop_left]

@[simp]
theorem u16BE_drop (x : UInt16) {n : ℕ} (h : 2 ≤ n) : (u16BE x).drop n = [] :=
  List.drop_eq_nil_of_le (by rwa [u16BE_length])

@[simp]
theorem u32BE_drop (x : UInt32) {n : ℕ} (h : 4 ≤ n) : (u32BE x).drop n = [] :=
  List.drop_eq_nil_of_le (by rwa [u32BE_length])

@[simp]
theorem i64BE_drop (x : Int64) {n : ℕ} (h : 8 ≤ n) : (i64BE x).drop n = [] :=
  List.drop_eq_nil_of_le (by rwa [i64BE_length])

/-- `i16::from_be_bytes` -/
def i16OfBE (bs : List UInt8) : Int16 := (u16OfBE bs).toInt16

def i16BE (x : Int16) : List UInt8 := u16BE x.toUInt16

theorem i16BE_i16OfBE {bs : List UInt8} (h : bs.length = 2) : i16BE (i16OfBE bs) = bs :=
  u16BE_u16OfBE h

/-! ### Handshake -/

structure HelloPc where
  protocol_version : UInt8
  width : UInt16
  height : UInt16
  codec : UInt8
  bitrate_bps : UInt32
  fps : UInt8
  deriving DecidableEq, Repr

def HelloPc.encode (m : HelloPc) : List UInt8 :=
  [m.protocol_version] ++ u16BE m.width ++ u16BE m.height ++ [m.codec] ++ u32BE m.bitrate_bps ++ [m.fps]

def HelloPc.decode (payload : List UInt8) : Except ProtocolError HelloPc :=
  if payload.length ≠ 11 then .error (.malformed msgHelloPc "HELLO_PC must be 11 bytes")
  else .ok {
    protocol_version := payload.getD 0 0
    width := u16OfBE (field payload 1 2)
    height := u16OfBE (field payload 3 2)
    codec := payload.getD 5 0
    bitrate_bps := u32OfBE (field payload 6 4)
    fps := payload.getD 10 0 }

theorem HelloPc.decode_encode (m : HelloPc) : decode m.encode = .ok m := by
  simp [decode, encode, field, List.drop_append]

theorem HelloPc.encode_decode {p : List UInt8} {m : HelloPc} (h : decode p = .ok m) : m.encode = p := by
  rw [decode] at h
  split at h
  case isTrue => cases h
  case isFalse hlen =>
    have hlen : p.length = 11 := not_not.1 hlen
    cases h
    rw [encode, u16BE_u16OfBE (field_length (by omega)), u16BE_u16OfBE (field_length (by omega)),
      u32BE_u32OfBE (field_length (by omega)), getD_eq_field (by omega), getD_eq_field (by omega),
      getD_eq_field (by omega)]
    rw [field_append_field, field_append_field, field_append_field, field_append_field,
      field_append_field]
    exact field_all hlen

structure HelloAndroid where
  protocol_version : UInt8
  display_width : UInt16
  display_height : UInt16
  pen_max_pressure : UInt16
  pen_tilt_min_deg : Int16
  pen_tilt_max_deg : Int16
  pen_buttons_count : UInt8
  codec_caps : UInt8
  deriving DecidableEq, Repr

def HelloAndroid.encode (m : HelloAndroid) : List UInt8 :=
  [m.protocol_version] ++ u16BE m.display_width ++ u16BE m.display_height ++ u16BE m.pen_max_pressure ++
    i16BE m.pen_tilt_min_deg ++ i16BE m.pen_tilt_max_deg ++ [m.pen_buttons_count] ++ [m.codec_caps]

def HelloAndroid.decode (payload : List UInt8) : Except ProtocolError HelloAndroid :=
  if payload.length ≠ 13 then .error (.malformed msgHelloAndroid "HELLO_ANDROID must be 13 bytes")
  else .ok {
    protocol_version := payload.getD 0 0
    display_width := u16OfBE (field payload 1 2)
    display_height := u16OfBE (field payload 3 2)
    pen_max_pressure := u16OfBE (field payload 5 2)
    pen_tilt_min_deg := i16OfBE (field payload 7 2)
    pen_tilt_max_deg := i16OfBE (field payload 9 2)
    pen_buttons_count := payload.getD 11 0
    codec_caps := payload.getD 12 0 }

theorem HelloAndroid.decode_encode (m : HelloAndroid) : decode m.encode = .ok m := by
  simp [decode, encode, field, List.drop_append, i16BE, i16OfBE]

theorem HelloAndroid.encode_decode {p : List UInt8} {m : HelloAndroid} (h : decode p = .ok m) :
    m.encode = p := by
  rw [decode] at h
  split at h
  case isTrue => cases h
  case isFalse hlen =>
    have hlen : p.length = 13 := not_not.1 hlen
    cases h
    rw [encode, u16BE_u16OfBE (field_length (by omega)), u16BE_u16OfBE (field_length (by omega)),
      u16BE_u16OfBE (field_length (by omega)), i16BE_i16OfBE (field_length (by omega)),
      i16BE_i16OfBE (field_length (by omega)), getD_eq_field (by omega), getD_eq_field (by omega),
      getD_eq_field (by omega)]
    rw [field_append_field, field_append_field, field_append_field, field_append_field,
      field_append_field, field_append_field, field_append_field]
    exact field_all hlen

def clientCfgFlagHud : UInt32 := (1 : UInt32) <<< 0
def clientCfgFlagScreenOff : UInt32 := (1 : UInt32) <<< 1

structure ClientConfig where
  flags : UInt32
  deriving DecidableEq, Repr

def ClientConfig.encode (m : ClientConfig) : List UInt8 := u32BE m.flags

/-! ### Video -/

def frameFlagKeyframe : UInt8 := 0x01
def frameFlagExtended : UInt8 := 0x80

structure VideoFrame where
  pts_ns : Int64
  flags : UInt8
  capture_us : Option UInt32
  encode_us : Option UInt32
  coded : List UInt8
  deriving DecidableEq, Repr

def VideoFrame.extended (m : VideoFrame) : Bool := m.flags &&& frameFlagExtended != 0

def VideoFrame.encode (m : VideoFrame) : List UInt8 :=
  i64BE m.pts_ns ++ [m.flags] ++
    (if m.extended then u32BE (m.capture_us.getD 0) ++ u32BE (m.encode_us.getD 0) else []) ++ m.coded

def VideoFrame.decode (payload : List UInt8) : Except ProtocolError VideoFrame :=
  if payload.length < 9 then .error (.malformed msgVideoFrame "VIDEO_FRAME header truncated")
  else
    let pts_ns := i64OfBE (field payload 0 8)
    let flags := payload.getD 8 0
    if flags &&& frameFlagExtended != 0 then
      if payload.length < 17 then
        .error (.malformed msgVideoFrame "VIDEO_FRAME extended header truncated")
      else .ok {
        pts_ns := pts_ns
        flags := flags
        capture_us := some (u32OfBE (field payload 9 4))
        encode_us := some (u32OfBE (field payload 13 4))
        coded := payload.drop 17 }
    else .ok {
      pts_ns := pts_ns
      flags := flags
      capture_us := none
      encode_us := none
      coded := payload.drop 9 }

theorem VideoFrame.encode_decode {p : List UInt8} {m : VideoFrame} (h : decode p = .ok m) :
    m.encode = p := by
  rw [decode] at h
  split at h
  case isTrue => cases h
  case isFalse hlen =>
    have hheader : i64BE (i64OfBE (field p 0 8)) ++ [p.getD 8 0] = field p 0 9 := by
      rw [i64BE_i64OfBE (field_length (by omega)), getD_eq_field (by omega), field_append_field]
    simp only at h
    split at h
    case isTrue hext =>
      split at h
      case isTrue => cases h
      case isFalse hlen' =>
        cases h
        rw [encode, extended]
        simp only [hext, if_true, Option.getD_some]
        rw [hheader, u32BE_u32OfBE (field_length (by omega)), u32BE_u32OfBE (field_length (by omega)),
          field_append_field, field_append_field, field_append_drop]
        rfl
    case isFalse hext =>
      cases h
      rw [encode, extended]
      rw [if_neg hext, List.append_nil, hheader, field_append_drop]
      rfl

structure Telemetry where
  frames : UInt32
  dropped : UInt32
  capture_us_avg : UInt32
  encode_us_avg : UInt32
  encode_us_p99 : UInt32
  queue_depth : UInt8
  deriving DecidableEq, Repr

def Telemetry.encode (m : Telemetry) : List UInt8 :=
  u32BE m.frames ++ u32BE m.dropped ++ u32BE m.capture_us_avg ++ u32BE m.encode_us_avg ++
    u32BE m.encode_us_p99 ++ [m.queue_depth]

structure TimeSyncResp where
  android_t1_ns : Int64
  pc_t2_ns : Int64
  pc_t3_ns : Int64
  deriving DecidableEq, Repr

def TimeSyncResp.encode (m : TimeSyncResp) : List UInt8 :=
  i64BE m.android_t1_ns ++ i64BE m.pc_t2_ns ++ i64BE m.pc_t3_ns

/-! ### Pen and touch -/

/-- A `PenEvent`, its floats as bit patterns. -/
structure PenEventBits where
  ts_ns : Int64
  phase : UInt8
  x_norm : UInt32
  y_norm : UInt32
  pressure : UInt32
  tilt_x : UInt32
  tilt_y : UInt32
  buttons : UInt8
  tool : UInt8
  deriving DecidableEq, Repr

def PenEventBits.encode (m : PenEventBits) : List UInt8 :=
  i64BE m.ts_ns ++ [m.phase] ++ u32BE m.x_norm ++ u32BE m.y_norm ++ u32BE m.pressure ++
    u32BE m.tilt_x ++ u32BE m.tilt_y ++ [m.buttons] ++ [m.tool]

def PenEventBits.decode (payload : List UInt8) : Except ProtocolError PenEventBits :=
  if payload.length ≠ 31 then .error (.malformed msgPenEvent "PEN_EVENT must be 31 bytes")
  else .ok {
    ts_ns := i64OfBE (field payload 0 8)
    phase := payload.getD 8 0
    x_norm := u32OfBE (field payload 9 4)
    y_norm := u32OfBE (field payload 13 4)
    pressure := u32OfBE (field payload 17 4)
    tilt_x := u32OfBE (field payload 21 4)
    tilt_y := u32OfBE (field payload 25 4)
    buttons := payload.getD 29 0
    tool := payload.getD 30 0 }

/-- The event that the bits denote. -/
def PenEventBits.toEvent (m : PenEventBits) : PenEvent where
  ts_ns := m.ts_ns
  phase := m.phase
  x_norm := Float32.ofBits m.x_norm
  y_norm := Float32.ofBits m.y_norm
  pressure := Float32.ofBits m.pressure
  tilt_x := Float32.ofBits m.tilt_x
  tilt_y := Float32.ofBits m.tilt_y
  buttons := m.buttons
  tool := m.tool

theorem PenEvent.decode_eq (p : List UInt8) :
    PenEvent.decode p = (PenEventBits.decode p).map PenEventBits.toEvent := by
  rw [decode, PenEventBits.decode]
  split <;> rfl

theorem PenEventBits.decode_encode (m : PenEventBits) : decode m.encode = .ok m := by
  simp [decode, encode, field, List.drop_append]

theorem PenEventBits.encode_decode {p : List UInt8} {m : PenEventBits} (h : decode p = .ok m) :
    m.encode = p := by
  rw [decode] at h
  split at h
  case isTrue => cases h
  case isFalse hlen =>
    have hlen : p.length = 31 := not_not.1 hlen
    cases h
    rw [encode, i64BE_i64OfBE (field_length (by omega)), u32BE_u32OfBE (field_length (by omega)),
      u32BE_u32OfBE (field_length (by omega)), u32BE_u32OfBE (field_length (by omega)),
      u32BE_u32OfBE (field_length (by omega)), u32BE_u32OfBE (field_length (by omega)),
      getD_eq_field (by omega), getD_eq_field (by omega), getD_eq_field (by omega)]
    rw [field_append_field, field_append_field, field_append_field, field_append_field,
      field_append_field, field_append_field, field_append_field, field_append_field]
    exact field_all hlen

/-- A `TouchContact`, its floats as bit patterns. -/
structure TouchContactBits where
  pointer_id : UInt8
  x_norm : UInt32
  y_norm : UInt32
  pressure : UInt32
  deriving DecidableEq, Repr

def TouchContactBits.encode (c : TouchContactBits) : List UInt8 :=
  [c.pointer_id] ++ u32BE c.x_norm ++ u32BE c.y_norm ++ u32BE c.pressure

/-- The contact at `off`. -/
def TouchContactBits.read (payload : List UInt8) (off : ℕ) : TouchContactBits where
  pointer_id := payload.getD off 0
  x_norm := u32OfBE (field payload (off + 1) 4)
  y_norm := u32OfBE (field payload (off + 5) 4)
  pressure := u32OfBE (field payload (off + 9) 4)

def TouchContactBits.toContact (c : TouchContactBits) : TouchContact where
  pointer_id := c.pointer_id
  x_norm := Float32.ofBits c.x_norm
  y_norm := Float32.ofBits c.y_norm
  pressure := Float32.ofBits c.pressure

structure TouchEventBits where
  ts_ns : Int64
  contacts : List TouchContactBits
  deriving DecidableEq, Repr

def TouchEventBits.encode (m : TouchEventBits) : List UInt8 :=
  let n := min m.contacts.length 255
  i64BE m.ts_ns ++ [UInt8.ofNat n] ++ (m.contacts.take n).flatMap TouchContactBits.encode

def TouchEventBits.decode (payload : List UInt8) : Except ProtocolError TouchEventBits :=
  if payload.length < 9 then .error (.malformed msgTouchEvent "TOUCH_EVENT header truncated")
  else
    let count := (payload.getD 8 0).toNat
    if payload.length ≠ 9 + count * TouchContact.size then
      .error (.malformed msgTouchEvent "TOUCH_EVENT contact count mismatch")
    else .ok {
      ts_ns := i64OfBE (field payload 0 8)
      contacts := (List.range count).map fun i => .read payload (9 + i * TouchContact.size) }

/-- The event that the bits denote. -/
def TouchEventBits.toEvent (m : TouchEventBits) : TouchEvent where
  ts_ns := m.ts_ns
  contacts := m.contacts.map TouchContactBits.toContact

theorem TouchEvent.decode_eq (p : List UInt8) :
    TouchEvent.decode p = (TouchEventBits.decode p).map TouchEventBits.toEvent := by
  rw [decode, TouchEventBits.decode]
  split
  · rfl
  · simp only
    split
    · rfl
    · rw [Except.map, TouchEventBits.toEvent, List.map_map]
      rfl

theorem TouchContactBits.encode_length (c : TouchContactBits) : c.encode.length = TouchContact.size := by
  simp only [encode, List.length_append, List.length_singleton, u32BE_length]
  rfl

theorem TouchContactBits.encode_read {p : List UInt8} {off : ℕ}
    (h : off + TouchContact.size ≤ p.length) : (read p off).encode = field p off TouchContact.size := by
  rw [TouchContact.size] at h
  rw [encode, read, u32BE_u32OfBE (field_length (by omega)), u32BE_u32OfBE (field_length (by omega)),
    u32BE_u32OfBE (field_length (by omega)), getD_eq_field (by omega), field_append_field]
  rw [field_append_field, field_append_field]
  rfl

/-- The contacts of a payload, written again. -/
theorem TouchContactBits.encode_reads {p : List UInt8} {off count : ℕ}
    (h : off + count * TouchContact.size ≤ p.length) :
    ((List.range count).map fun i => read p (off + i * TouchContact.size)).flatMap encode =
      field p off (count * TouchContact.size) := by
  induction count with
  | zero => rw [Nat.zero_mul]; rfl
  | succ count ih =>
      rw [Nat.succ_mul] at h ⊢
      rw [List.range_succ, List.map_append, List.flatMap_append, ih (by omega), ← field_append_field]
      congr 1
      rw [List.map_singleton, List.flatMap_singleton]
      exact encode_read (by omega)

theorem TouchContactBits.read_append (c : TouchContactBits) (pre post : List UInt8) :
    read (pre ++ (c.encode ++ post)) pre.length = c := by
  rw [read, field_append_right, field_append_right, field_append_right]
  simp [encode, field, List.drop_append]

/-- The contacts behind `pre`, read again. -/
theorem TouchContactBits.read_encodes (pre : List UInt8) (contacts : List TouchContactBits) :
    (List.range contacts.length).map (fun i =>
      read (pre ++ contacts.flatMap encode) (pre.length + i * TouchContact.size)) = contacts := by
  induction contacts generalizing pre with
  | nil => rfl
  | cons c contacts ih =>
      have hrest := ih (pre ++ c.encode)
      rw [List.length_append, c.encode_length, List.append_assoc] at hrest
      rw [List.length_cons, List.range_succ_eq_map, List.map_cons, List.map_map, Nat.zero_mul,
        Nat.add_zero, List.flatMap_cons, read_append]
      congr 1
      refine Eq.trans (List.map_congr_left fun i hi => ?_) hrest
      show read _ (pre.length + (i + 1) * TouchContact.size) = _
      rw [Nat.succ_mul, Nat.add_comm (i * _), Nat.add_assoc]

theorem TouchContactBits.encodes_length (contacts : List TouchContactBits) :
    (contacts.flatMap encode).length = contacts.length * TouchContact.size := by
  induction contacts with
  | nil => rw [List.length_nil, Nat.zero_mul]; rfl
  | cons c contacts ih =>
      rw [List.flatMap_cons, List.length_append, c.encode_length, ih, List.length_cons, Nat.succ_mul,
        Nat.add_comm]

theorem TouchEventBits.encode_decode {p : List UInt8} {m : TouchEventBits} (h : decode p = .ok m) :
    m.encode = p := by
  rw [decode] at h
  split at h
  case isTrue => cases h
  case isFalse hheader =>
    simp only at h
    split at h
    case isTrue => cases h
    case isFalse hlen =>
      have hlen := not_not.1 hlen
      have hcount : (p.getD 8 0).toNat ≤ 255 := by
        have := (p.getD 8 0).toNat_lt
        omega
      cases h
      rw [encode]
      simp only [List.length_map, List.length_range, Nat.min_eq_left hcount]
      rw [List.take_of_length_le (by rw [List.length_map, List.length_range]),
        TouchContactBits.encode_reads hlen.ge, UInt8.ofNat_toNat, i64BE_i64OfBE (field_length (by omega)),
        getD_eq_field (by omega), field_append_field, field_append_field]
      exact field_all hlen

theorem TouchEventBits.encode_eq (m : TouchEventBits) :
    m.encode = i64BE m.ts_ns ++ [UInt8.ofNat (m.contacts.take 255).length] ++
      (m.contacts.take 255).flatMap TouchContactBits.encode := by
  have htake : m.contacts.take (min m.contacts.length 255) = m.contacts.take 255 := by
    rw [Nat.min_comm, ← List.take_eq_take_min]
  rw [encode, List.length_take, Nat.min_comm, Nat.min_comm 255 m.contacts.length]
  simp only [htake]

/-- **What the touch decoder makes of an encoded event**: its first 255 contacts. -/
theorem TouchEventBits.decode_encode (m : TouchEventBits) :
    decode m.encode = .ok ⟨m.ts_ns, m.contacts.take 255⟩ := by
  have hle : (m.contacts.take 255).length ≤ 255 := List.length_take_le 255 _
  rw [encode_eq]
  generalize m.contacts.take 255 = contacts at hle
  generalize hheader : i64BE m.ts_ns ++ [UInt8.ofNat contacts.length] = header
  have hlen : header.length = 9 := by
    rw [← hheader]
    simp
  have hcount : (header ++ contacts.flatMap TouchContactBits.encode).getD 8 0 =
      UInt8.ofNat contacts.length := by
    rw [← hheader]
    simp
  have hts : field (header ++ contacts.flatMap TouchContactBits.encode) 0 8 = i64BE m.ts_ns := by
    rw [← hheader]
    simp [field]
  have hn : (UInt8.ofNat contacts.length).toNat = contacts.length := by
    rw [UInt8.toNat_ofNat']
    omega
  have hreads := TouchContactBits.read_encodes header contacts
  rw [hlen] at hreads
  rw [decode]
  simp only [hcount, hn, hts, hreads, i64OfBE_i64BE]
  rw [List.length_append, hlen, TouchContactBits.encodes_length, if_neg (by omega),
    if_neg (not_not.2 rfl)]

end Penflow
