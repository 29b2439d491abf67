import Penflow.Client.Protocol

/-!
# A session of the client

`handshakeAndPump` waits for the hello of the PC, then for the parameter sets or for a configuration
without a screen, starts the decoder, and hands the video to it until the PC says goodbye.  The client
moves with the messages it receives, and once with the surface the decoder needs.
-/

namespace Penflow.Client

/-- What a `VideoDecoder` is made with, and what it has been fed. -/
structure Decoder where
  width : Int32
  height : Int32
  fps : Int32
  codec : UInt8
  csd0 : List UInt8
  fed : List (Int64 × List UInt8 × Bool)
  deriving DecidableEq, Repr

/-- What `readLoop` feeds of a frame. -/
def VideoFrameHeader.feed (header : VideoFrameHeader) : Int64 × List UInt8 × Bool :=
  (header.ptsNs, header.coded, header.flags &&& ubyte frameFlagKeyframe != 0)

def Decoder.feed (dec : Decoder) (header : VideoFrameHeader) : Decoder :=
  { dec with fed := dec.fed ++ [header.feed] }

/-- Where `handshakeAndPump` is. -/
inductive Phase where
  /-- waits for `HELLO_PC` -/
  | hello
  /-- in the loop that waits for `VIDEO_CONFIG` -/
  | handshake (hello : HelloPc)
  /-- `waitForSurface` -/
  | surface (hello : HelloPc) (csd0 : List UInt8)
  /-- `readLoop`, with its decoder -/
  | reading (dec : Option Decoder)
  /-- the PC has said goodbye -/
  | ended (dec : Option Decoder)
  | failed
  deriving DecidableEq, Repr

/-- The client with the messages its handshake loop has dropped. -/
structure ClientSession where
  phase : Phase
  dropped : List Frame
  deriving DecidableEq, Repr

namespace ClientSession

def start : ClientSession := ⟨.hello, []⟩

def fail (s : ClientSession) : ClientSession := { s with phase := .failed }

/-- `HELLO_PC` -/
def receiveHello (s : ClientSession) (f : Frame) : ClientSession :=
  if f.msg_id = msgHelloPc then
    match decodeHelloPc f.payload with
    | .ok hello => { s with phase := .handshake hello }
    | .error _ => s.fail
  else s.fail

/-- A turn of the loop that waits for `VIDEO_CONFIG`. -/
def receiveConfig (s : ClientSession) (hello : HelloPc) (f : Frame) : ClientSession :=
  if f.msg_id = msgVideoConfig then { s with phase := .surface hello f.payload }
  else if f.msg_id = msgClientConfig then
    match decodeClientConfig f.payload with
    | .ok cfg => if cfg.screenOff then { s with phase := .reading none } else s
    | .error _ => s
  else { s with dropped := s.dropped ++ [f] }

/-- A turn of `readLoop`.  The telemetry is decoded for the head-up display. -/
def receiveFrame (hud : Bool) (s : ClientSession) (dec : Option Decoder) (f : Frame) : ClientSession :=
  if f.msg_id = msgVideoFrame then
    match dec with
    | none => s
    | some dec =>
      match decodeVideoFrame f.payload with
      | .ok header => { s with phase := .reading (some (dec.feed header)) }
      | .error _ => s.fail
  else if f.msg_id = msgTelemetry then
    if hud then
      match decodeTelemetry f.payload with
      | .ok _ => s
      | .error _ => s.fail
    else s
  else if f.msg_id = msgTimeSyncResp then
    match decodeTimeSyncResp f.payload with
    | .ok _ => s
    | .error _ => s.fail
  else if f.msg_id = msgPcGoodbye then { s with phase := .ended dec }
  -- a configuration only reaches its callback, whose exceptions are caught
  else s

/-- What `recvMsg` returned, where the client has called it. -/
def receive (hud : Bool) (s : ClientSession) (r : Except Failure Frame) : ClientSession :=
  match s.phase, r with
  | .surface _ _, _ => s
  | .ended _, _ => s
  | .failed, _ => s
  | _, .error _ => s.fail
  | .hello, .ok f => s.receiveHello f
  | .handshake hello, .ok f => s.receiveConfig hello f
  | .reading dec, .ok f => s.receiveFrame hud dec f

/-- The surface is there, and the decoder starts. -/
def surfaceReady (s : ClientSession) : ClientSession :=
  match s.phase with
  | .surface hello csd0 =>
    { s with
      phase := .reading (some {
        width := hello.width
        height := hello.height
        fps := hello.fps
        codec := hello.codec
        csd0 := csd0
        fed := [] }) }
  | _ => s

/-- The client is waiting for a message. -/
def listening (s : ClientSession) : Bool :=
  match s.phase with
  | .hello => true
  | .handshake _ => true
  | .reading _ => true
  | _ => false

/-- It has not left the handshake loop. -/
def inHandshake (s : ClientSession) : Bool :=
  match s.phase with
  | .hello => true
  | .handshake _ => true
  | _ => false

/-- The decoder of the session. -/
def decoder (s : ClientSession) : Option Decoder :=
  match s.phase with
  | .reading dec => dec
  | .ended dec => dec
  | _ => none

end ClientSession

end Penflow.Client
