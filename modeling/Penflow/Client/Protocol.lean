import Penflow.Protocol.Framing

/-!
# The protocol on the client

The Android side of the protocol: a byte buffer that is read from the front, the decoders of what the PC
sends, the encoders of what the tablet sends, and the two ends of the socket.  A `Byte` stands as its
bit pattern, and so does a `Float`; an `Int` is an `Int32`.
-/

namespace Penflow.Client

open Chunks

/-- What the client throws. -/
inductive Failure where
  | illegalArgument (message : String)
  | bufferUnderflow
  | endOfFile
  deriving DecidableEq, Repr

/-- `toInt() and 0xFF` -/
def ubyte (b : UInt8) : Int32 := b.toUInt32.toInt32

/-- `toInt() and 0xFFFF` -/
def ushort (x : UInt16) : Int32 := x.toUInt32.toInt32

/-- `toByte()` -/
def toByte (x : Int32) : UInt8 := x.toUInt32.toUInt8

/-- `toShort()` -/
def toShort (x : Int32) : UInt16 := x.toUInt32.toUInt16

@[simp]
theorem toByte_ubyte (b : UInt8) : toByte (ubyte b) = b := by
  apply UInt8.toNat_inj.1
  have hlt := b.toNat_lt
  simp [toByte, ubyte]

@[simp]
theorem toShort_ushort (x : UInt16) : toShort (ushort x) = x := by
  apply UInt16.toNat_inj.1
  have hlt := x.toNat_lt
  simp [toShort, ushort]

theorem toShort_toInt32 (x : Int16) : toShort x.toInt32 = x.toUInt16 := by
  apply UInt16.toBitVec_inj.1
  show ((x.toBitVec.signExtend 32).setWidth 16) = x.toBitVec
  ext i hi
  rw [BitVec.getElem_setWidth, BitVec.getLsbD_signExtend, if_pos hi, BitVec.getLsbD_eq_getElem hi]
  simp only [decide_eq_true_eq, Bool.and_eq_right_iff_imp]
  omega

/-! ### Byte buffers -/

/-- A big-endian `ByteBuffer`: the bytes not read yet. -/
abbrev ByteBuffer := StateT (List UInt8) (Except Failure)

def getBytes (n : ℕ) : ByteBuffer (List UInt8) := fun buf =>
  if buf.length < n then .error .bufferUnderflow else .ok (buf.take n, buf.drop n)

def getByte : ByteBuffer UInt8 := do
  let bs ← getBytes 1
  return bs.headD 0

def getShort : ByteBuffer UInt16 := do
  let bs ← getBytes 2
  return u16OfBE bs

def getInt : ByteBuffer Int32 := do
  let bs ← getBytes 4
  return (u32OfBE bs).toInt32

def getLong : ByteBuffer Int64 := do
  let bs ← getBytes 8
  return i64OfBE bs

def require (c : Prop) [Decidable c] (message : String) : ByteBuffer Unit := fun buf =>
  if c then .ok ((), buf) else .error (.illegalArgument message)

@[simp]
theorem getBytes_append {bs rest : List UInt8} {n : ℕ} (h : bs.length = n) :
    getBytes n (bs ++ rest) = .ok (bs, rest) := by
  rw [getBytes, ← h, if_neg (by rw [List.length_append]; omega), List.take_left, List.drop_left]

/-- What is read with the first part goes on with the rest. -/
theorem bind_of_ok {α β : Type} {m : ByteBuffer α} {f : α → ByteBuffer β} {buf rest : List UInt8} {a : α}
    (h : m buf = .ok (a, rest)) : (m >>= f) buf = f a rest := by
  show (m buf).bind _ = _
  rw [h]
  rfl

@[simp]
theorem getByte_cons (b : UInt8) (rest : List UInt8) : getByte (b :: rest) = .ok (b, rest) := by
  have hread : getBytes 1 (b :: rest) = .ok ([b], rest) := by
    exact @getBytes_append [b] rest 1 rfl
  rw [getByte, bind_of_ok hread]
  rfl

@[simp]
theorem getShort_append (x : UInt16) (rest : List UInt8) :
    getShort (u16BE x ++ rest) = .ok (x, rest) := by
  rw [getShort, bind_of_ok (getBytes_append (u16BE_length x)), u16OfBE_u16BE]
  rfl

@[simp]
theorem getInt_append (x : UInt32) (rest : List UInt8) :
    getInt (u32BE x ++ rest) = .ok (x.toInt32, rest) := by
  rw [getInt, bind_of_ok (getBytes_append (u32BE_length x)), u32OfBE_u32BE]
  rfl

@[simp]
theorem getLong_append (x : Int64) (rest : List UInt8) :
    getLong (i64BE x ++ rest) = .ok (x, rest) := by
  rw [getLong, bind_of_ok (getBytes_append (i64BE_length x)), i64OfBE_i64BE]
  rfl

theorem require_of {c : Prop} [Decidable c] (h : c) (message : String) (buf : List UInt8) :
    require c message buf = .ok ((), buf) := if_pos h

/-! ### Decoders -/

structure HelloPc where
  protocolVersion : Int32
  width : Int32
  height : Int32
  codec : UInt8
  bitrate : Int32
  fps : Int32
  deriving DecidableEq, Repr

def decodeHelloPc (payload : List UInt8) : Except Failure HelloPc :=
  StateT.run' (do
    let protocolVersion ← getByte
    let width ← getShort
    let height ← getShort
    let codec ← getByte
    let bitrate ← getInt
    let fps ← getByte
    return ⟨ubyte protocolVersion, ushort width, ushort height, codec, bitrate, ubyte fps⟩) payload

structure ClientConfig where
  flags : Int32
  deriving DecidableEq, Repr

def ClientConfig.screenOff (c : ClientConfig) : Bool :=
  c.flags &&& clientCfgFlagScreenOff.toInt32 != 0

/-- The bytes behind the flags are not looked at. -/
def decodeClientConfig (payload : List UInt8) : Except Failure ClientConfig :=
  StateT.run' (do
    require (4 ≤ payload.length) ("CLIENT_CONFIG length " ++ toString payload.length ++ " < 4")
    let flags ← getInt
    return ⟨flags⟩) payload

structure VideoFrameHeader where
  ptsNs : Int64
  flags : Int32
  captureUs : Option Int32
  encodeUs : Option Int32
  coded : List UInt8
  deriving DecidableEq, Repr

def decodeVideoFrame (payload : List UInt8) : Except Failure VideoFrameHeader :=
  StateT.run' (do
    require (9 ≤ payload.length) ("frame payload too short: " ++ toString payload.length)
    let pts ← getLong
    let flagsByte ← getByte
    let flags := ubyte flagsByte
    if flags &&& ubyte frameFlagExtended != 0 then do
      require (17 ≤ payload.length) ("extended header truncated: " ++ toString payload.length)
      let capture ← getInt
      let encode ← getInt
      let data ← getBytes (payload.length - 17)
      return ⟨pts, flags, some capture, some encode, data⟩
    else do
      let data ← getBytes (payload.length - 9)
      return ⟨pts, flags, none, none, data⟩) payload

structure Telemetry where
  frames : Int32
  dropped : Int32
  captureUsAvg : Int32
  encodeUsAvg : Int32
  encodeUsP99 : Int32
  queueDepth : Int32
  deriving DecidableEq, Repr

def decodeTelemetry (payload : List UInt8) : Except Failure Telemetry :=
  StateT.run' (do
    require (payload.length = 21) ("TELEMETRY length " ++ toString payload.length ++ " != 21")
    let frames ← getInt
    let dropped ← getInt
    let captureUsAvg ← getInt
    let encodeUsAvg ← getInt
    let encodeUsP99 ← getInt
    let queueDepth ← getByte
    return ⟨frames, dropped, captureUsAvg, encodeUsAvg, encodeUsP99, ubyte queueDepth⟩) payload

structure TimeSyncResp where
  androidT1Ns : Int64
  pcT2Ns : Int64
  pcT3Ns : Int64
  deriving DecidableEq, Repr

def decodeTimeSyncResp (payload : List UInt8) : Except Failure TimeSyncResp :=
  StateT.run' (do
    require (payload.length = 24) ("TIME_SYNC_RESP length " ++ toString payload.length ++ " != 24")
    let androidT1Ns ← getLong
    let pcT2Ns ← getLong
    let pcT3Ns ← getLong
    return ⟨androidT1Ns, pcT2Ns, pcT3Ns⟩) payload

/-! ### Encoders -/

def encodeHelloAndroid (protocolVersion displayWidth displayHeight penMaxPressure penTiltMinDeg
    penTiltMaxDeg penButtonsCount codecCaps : Int32) : List UInt8 :=
  [toByte protocolVersion] ++ u16BE (toShort displayWidth) ++ u16BE (toShort displayHeight) ++
    u16BE (toShort penMaxPressure) ++ u16BE (toShort penTiltMinDeg) ++ u16BE (toShort penTiltMaxDeg) ++
    [toByte penButtonsCount] ++ [toByte codecCaps]

def encodePenEvent (tsNs : Int64) (phase : Int32) (x y pressure tiltX tiltY : UInt32)
    (buttonsBitmask tool : Int32) : List UInt8 :=
  i64BE tsNs ++ [toByte phase] ++ u32BE x ++ u32BE y ++ u32BE pressure ++ u32BE tiltX ++ u32BE tiltY ++
    [toByte buttonsBitmask] ++ [toByte tool]

structure TouchContact where
  pointerId : Int32
  xNorm : UInt32
  yNorm : UInt32
  pressure : UInt32
  deriving DecidableEq, Repr

/-- `coerceIn(lo, hi)` -/
def coerceIn (x lo hi : Int32) : Int32 := if x < lo then lo else if hi < x then hi else x

def TouchContact.encode (c : TouchContact) : List UInt8 :=
  [toByte (coerceIn c.pointerId 0 255)] ++ u32BE c.xNorm ++ u32BE c.yNorm ++ u32BE c.pressure

def encodeTouchEvent (tsNs : Int64) (contacts : List TouchContact) : List UInt8 :=
  let n := min contacts.length 255
  i64BE tsNs ++ [UInt8.ofNat n] ++ (contacts.take n).flatMap TouchContact.encode

def encodeTimeSyncReq (androidT1Ns : Int64) : List UInt8 := i64BE androidT1Ns

/-! ### The socket -/

/-- The three writes of `sendMsg`. -/
def sendMsg (type : UInt8) (payload : List UInt8) : List (List UInt8) :=
  [[type], u32BE (UInt32.ofNat payload.length), payload]

/-- The message received, or what it throws, with what is left of the stream. -/
def recvMsg (input : List (List UInt8)) : Except Failure Frame × List (List UInt8) :=
  match readExact 1 input with
  | none => (.error .endOfFile, [])
  | some (type, input) =>
    match readExact 4 input with
    | none => (.error .endOfFile, [])
    | some (word, input) =>
      let len := (u32OfBE word).toInt32
      if 0 ≤ len ∧ len ≤ 64 * 1024 * 1024 then
        match readExact len.toNatClampNeg input with
        | none => (.error .endOfFile, [])
        | some (payload, input) => (.ok ⟨type.headD 0, payload⟩, input)
      else (.error (.illegalArgument ("absurd message length: " ++ toString len)), input)

end Penflow.Client
