import Penflow.Lib.BigEndian

/-!
# Messages

The ids and the payloads of the messages the modelled code reads or writes, with the checks its decoders
make.  All integers are big-endian.
-/

namespace Penflow

open BigEndian

def msgHelloPc : UInt8 := 0x01
def msgVideoConfig : UInt8 := 0x02
def msgVideoFrame : UInt8 := 0x03
def msgTelemetry : UInt8 := 0x05
def msgTimeSyncResp : UInt8 := 0x06
def msgClientConfig : UInt8 := 0x07
def msgPcGoodbye : UInt8 := 0x7F
def msgHelloAndroid : UInt8 := 0x81
def msgPenEvent : UInt8 := 0x82
def msgTouchEvent : UInt8 := 0x83
def msgTimeSyncReq : UInt8 := 0x84
def msgRequestIdr : UInt8 := 0x85
def msgAndroidGoodbye : UInt8 := 0xFF

/-- `MAX_PAYLOAD_LEN` -/
def maxPayloadLen : ℕ := 64 * 1024 * 1024

inductive ProtocolError where
  | io
  | payloadTooLarge (len : ℕ)
  | malformed (msg : UInt8) (detail : String)
  deriving DecidableEq, Repr

/-- The `len` bytes of a payload at `off`. -/
def field (payload : List UInt8) (off len : ℕ) : List UInt8 := (payload.drop off).take len

/-- `u16::from_be_bytes` -/
def u16OfBE (bs : List UInt8) : UInt16 := UInt16.ofNat (beNat bs)

/-- `u32::from_be_bytes` -/
def u32OfBE (bs : List UInt8) : UInt32 := UInt32.ofNat (beNat bs)

/-- `i64::from_be_bytes` -/
def i64OfBE (bs : List UInt8) : Int64 := (UInt64.ofNat (beNat bs)).toInt64

/-- `f32::from_be_bytes` -/
def f32OfBE (bs : List UInt8) : Float32 := Float32.ofBits (u32OfBE bs)

def u16BE (x : UInt16) : List UInt8 := beBytes 2 x.toNat

def u32BE (x : UInt32) : List UInt8 := beBytes 4 x.toNat

def i64BE (x : Int64) : List UInt8 := beBytes 8 x.toUInt64.toNat

@[simp]
theorem u16BE_length (x : UInt16) : (u16BE x).length = 2 := beBytes_length 2 _

@[simp]
theorem u32BE_length (x : UInt32) : (u32BE x).length = 4 := beBytes_length 4 _

@[simp]
theorem i64BE_length (x : Int64) : (i64BE x).length = 8 := beBytes_length 8 _

@[simp]
theorem u16OfBE_u16BE (x : UInt16) : u16OfBE (u16BE x) = x := by
  have h : x.toNat < 256 ^ 2 := x.toNat_lt
  rw [u16OfBE, u16BE, beNat_beBytes_of_lt h]
  exact UInt16.ofNat_toNat

@[simp]
theorem u32OfBE_u32BE (x : UInt32) : u32OfBE (u32BE x) = x := by
  have h : x.toNat < 256 ^ 4 := x.toNat_lt
  rw [u32OfBE, u32BE, beNat_beBytes_of_lt h]
  exact UInt32.ofNat_toNat

@[simp]
theorem i64OfBE_i64BE (x : Int64) : i64OfBE (i64BE x) = x := by
  have h : x.toUInt64.toNat < 256 ^ 8 := x.toUInt64.toNat_lt
  rw [i64OfBE, i64BE, beNat_beBytes_of_lt h, UInt64.ofNat_toNat]
  rfl

theorem u16BE_u16OfBE {bs : List UInt8} (h : bs.length = 2) : u16BE (u16OfBE bs) = bs := by
  have hlt := beNat_lt bs
  rw [h] at hlt
  rw [u16BE, u16OfBE, UInt16.toNat_ofNat_of_lt' hlt, ← h, beBytes_beNat]

theorem u32BE_u32OfBE {bs : List UInt8} (h : bs.length = 4) : u32BE (u32OfBE bs) = bs := by
  have hlt := beNat_lt bs
  rw [h] at hlt
  rw [u32BE, u32OfBE, UInt32.toNat_ofNat_of_lt' hlt, ← h, beBytes_beNat]

theorem i64BE_i64OfBE {bs : List UInt8} (h : bs.length = 8) : i64BE (i64OfBE bs) = bs := by
  have hlt := beNat_lt bs
  rw [h] at hlt
  have hbits : (UInt64.ofNat (beNat bs)).toInt64.toUInt64 = UInt64.ofNat (beNat bs) := rfl
  rw [i64BE, i64OfBE, hbits, UInt64.toNat_ofNat_of_lt' hlt, ← h, beBytes_beNat]

/-! ### Client to server -/

structure PenEvent where
  ts_ns : Int64
  phase : UInt8
  x_norm : Float32
  y_norm : Float32
  pressure : Float32
  tilt_x : Float32
  tilt_y : Float32
  buttons : UInt8
  tool : UInt8

def PenEvent.decode (payload : List UInt8) : Except ProtocolError PenEvent :=
  if payload.length ≠ 31 then .error (.malformed msgPenEvent "PEN_EVENT must be 31 bytes")
  else .ok {
    ts_ns := i64OfBE (field payload 0 8)
    phase := payload.getD 8 0
    x_norm := f32OfBE (field payload 9 4)
    y_norm := f32OfBE (field payload 13 4)
    pressure := f32OfBE (field payload 17 4)
    tilt_x := f32OfBE (field payload 21 4)
    tilt_y := f32OfBE (field payload 25 4)
    buttons := payload.getD 29 0
    tool := payload.getD 30 0 }

structure TouchContact where
  pointer_id : UInt8
  x_norm : Float32
  y_norm : Float32
  pressure : Float32

/-- `TouchContact::SIZE` -/
def TouchContact.size : ℕ := 13

structure TouchEvent where
  ts_ns : Int64
  contacts : List TouchContact

def TouchEvent.decode (payload : List UInt8) : Except ProtocolError TouchEvent :=
  if payload.length < 9 then .error (.malformed msgTouchEvent "TOUCH_EVENT header truncated")
  else
    let count := (payload.getD 8 0).toNat
    if payload.length ≠ 9 + count * TouchContact.size then
      .error (.malformed msgTouchEvent "TOUCH_EVENT contact count mismatch")
    else .ok {
      ts_ns := i64OfBE (field payload 0 8)
      contacts := (List.range count).map fun i =>
        let off := 9 + i * TouchContact.size
        { pointer_id := payload.getD off 0
          x_norm := f32OfBE (field payload (off + 1) 4)
          y_norm := f32OfBE (field payload (off + 5) 4)
          pressure := f32OfBE (field payload (off + 9) 4) } }

structure TimeSyncReq where
  android_t1_ns : Int64
  deriving DecidableEq

def TimeSyncReq.decode (payload : List UInt8) : Except ProtocolError TimeSyncReq :=
  if payload.length ≠ 8 then .error (.malformed msgTimeSyncReq "TIME_SYNC_REQ must be 8 bytes")
  else .ok ⟨i64OfBE (field payload 0 8)⟩

end Penflow
