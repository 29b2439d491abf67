import Penflow.Core.QueueLaw
import Penflow.Encoder.PatchPacket
import Penflow.Protocol.Framing
import Penflow.Server.ReadLoop

/-!
# A session

`Session::run` starts the handshake, the two pumps and the read loop, and ends them; the four tasks share
the packet queue, the stop notification and the writer.  A step of the session is one event of one task,
or of the blocking pop, the encoder or the outside; an event that cannot happen in a state leaves the
state as it is, so a run is any list of events.

A write puts as many bytes on the wire as the socket takes, so a frame may stand there in part; a write
that fails means that the connection is gone, and nothing more is taken.
-/

namespace Penflow

/-- An IDR slice behind its SPS. -/
def EncodedPacket.idr (pts_ns : Int64) : EncodedPacket where
  bytes := [0, 0, 1, 0x67, 0x42, 0, 0, 1, 0x65, 0x88]
  pts_ns := pts_ns
  is_keyframe := true
  encode_us := none

/-- A slice that depends on the packet before it. -/
def EncodedPacket.delta (pts_ns : Int64) : EncodedPacket where
  bytes := [0, 0, 1, 0x41, 0x9A]
  pts_ns := pts_ns
  is_keyframe := false
  encode_us := none

/-- What the session reads of its configuration, and of the monitor it captures. -/
structure SessionConfig where
  codec : Codec
  bitrate_bps : UInt32
  fps : UInt32
  width : UInt32
  height : UInt32
  hud_enabled : Bool
  screen_off : Bool
  queue_capacity : ℕ
  read : ReadConfig

/-- A 1080p monitor. -/
def SessionConfig.fullHd (screen_off : Bool) (queue_capacity : ℕ) : SessionConfig where
  codec := .h264
  bitrate_bps := 20000000
  fps := 60
  width := 1920
  height := 1080
  hud_enabled := false
  screen_off := screen_off
  queue_capacity := queue_capacity
  read := { coords := ⟨1920, 0, 0, 1080, 0, 0⟩, vscreen_w := 1920, vscreen_h := 1080, disable_touch := false }

/-! ### The frames of a session -/

def extractNals (split : List UInt8 → List (ℕ × ℕ × UInt8)) (annex_b keep_types : List UInt8) :
    List UInt8 :=
  (split annex_b).flatMap fun (start_off, end_off, nal_type) =>
    if nal_type ∈ keep_types then (annex_b.take end_off).drop start_off else []

def extractH264Nals : List UInt8 → List UInt8 → List UInt8 := extractNals splitH264Nals

def extractHevcNals : List UInt8 → List UInt8 → List UInt8 := extractNals splitHevcNals

namespace SessionConfig

/-- `CODEC_H264`, `CODEC_HEVC` -/
def codecWireId (c : SessionConfig) : UInt8 :=
  match c.codec with
  | .h264 => 1
  | .hevc => 2

/-- The parameter sets of the first keyframe. -/
def csd0 (c : SessionConfig) (bytes : List UInt8) : List UInt8 :=
  match c.codec with
  | .h264 => extractH264Nals bytes [7, 8]
  | .hevc => extractHevcNals bytes [32, 33, 34]

def helloPc (c : SessionConfig) : HelloPc where
  protocol_version := 0
  width := (min c.width 65535).toUInt16
  height := (min c.height 65535).toUInt16
  codec := c.codecWireId
  bitrate_bps := c.bitrate_bps
  fps := (min c.fps 255).toUInt8

def clientConfig (c : SessionConfig) : ClientConfig where
  flags := (if c.screen_off then clientCfgFlagScreenOff else 0) |||
    (if c.hud_enabled then clientCfgFlagHud else 0)

end SessionConfig

def SessionConfig.helloFrame (c : SessionConfig) : Frame := ⟨msgHelloPc, c.helloPc.encode⟩

def SessionConfig.configFrame (c : SessionConfig) : Frame := ⟨msgClientConfig, c.clientConfig.encode⟩

def SessionConfig.csd0Frame (c : SessionConfig) (first : EncodedPacket) : Frame :=
  ⟨msgVideoConfig, c.csd0 first.bytes⟩

/-- The first `VIDEO_FRAME`, which the handshake sends. -/
def firstFrame (first : EncodedPacket) : Frame where
  msg_id := msgVideoFrame
  payload := ({
    pts_ns := first.pts_ns
    flags := frameFlagKeyframe
    capture_us := none
    encode_us := none
    coded := first.bytes } : VideoFrame).encode

/-- A `VIDEO_FRAME` of `frame_pump`. -/
def pumpFrame (pkt : EncodedPacket) : Frame where
  msg_id := msgVideoFrame
  payload := ({
    pts_ns := pkt.pts_ns
    flags := (if pkt.is_keyframe then frameFlagKeyframe else 0) |||
      (if pkt.encode_us.isSome then frameFlagExtended else 0)
    capture_us := none
    encode_us := pkt.encode_us
    coded := pkt.bytes } : VideoFrame).encode

def telemetryFrame (t : Telemetry) : Frame := ⟨msgTelemetry, t.encode⟩

def respFrame (resp : TimeSyncResp) : Frame := ⟨msgTimeSyncResp, resp.encode⟩

def goodbyeFrame : Frame := ⟨msgPcGoodbye, []⟩

/-! ### Counters -/

/-- The counters that the pumps share. -/
structure Stats where
  frames : UInt32
  encode_us_ring : List UInt32
  deriving DecidableEq, Repr

namespace Stats

/-- `ENCODE_RING_CAPACITY` -/
def encodeRingCapacity : ℕ := 256

def recordEncodeUs (s : Stats) (us : UInt32) : Stats :=
  { s with
    encode_us_ring := (if s.encode_us_ring.length = encodeRingCapacity then s.encode_us_ring.tail
      else s.encode_us_ring) ++ [us] }

/-- The index of the 99th percentile, `((len - 1) as f64 * 0.99) as usize`; up to the ring's capacity the
float product is cut to the same integer. -/
def p99Index (len : ℕ) : ℕ := (len - 1) * 99 / 100

def encodeUsSummary (s : Stats) : UInt32 × UInt32 :=
  let ring := s.encode_us_ring
  if ring.isEmpty then (0, 0)
  else
    (UInt32.ofNat ((ring.map UInt32.toNat).sum / ring.length),
      (ring.mergeSort (· ≤ ·)).getD (p99Index ring.length) 0)

/-- `frame_pump` counts a frame it has sent. -/
def count (s : Stats) (pkt : EncodedPacket) : Stats :=
  let s := { s with frames := s.frames + 1 }
  match pkt.encode_us with
  | none => s
  | some us => s.recordEncodeUs us

end Stats

/-! ### The tasks -/

inductive Task where
  | run
  | framePump
  | telemetryPump
  | readLoop
  deriving DecidableEq, Repr

/-- Where `Session::run` is. -/
inductive RunPhase where
  /-- `wait_for_keyframe` -/
  | awaitKeyframe
  /-- the handshake is being written -/
  | greeting
  /-- the `select!` loop -/
  | serving
  /-- past the loop, before `notify_waiters` -/
  | notifying
  | joiningFrame
  | joiningTelemetry
  | lockingGoodbye
  | goodbye
  /-- before `engine.stop` -/
  | stopping
  | done
  | failed
  deriving DecidableEq, Repr

/-- Where a pump is, with what it has to send.  Its `select!` holds a `Notified` future from its start on,
and `notified` says that `notify_waiters` found it there. -/
inductive Pump (α : Type) where
  | unspawned
  /-- at the head of its loop, with no `Notified` future -/
  | head
  | selecting (notified : Bool)
  /-- waiting for the writer -/
  | locking (a : α)
  | sending (a : α)
  | returned
  deriving DecidableEq, Repr

/-- `notify_waiters` for one pump. -/
def Pump.notify {α : Type} : Pump α → Pump α
  | .selecting _ => .selecting true
  | p => p

inductive ReadLoop where
  | unspawned
  | reading
  | locking (resp : TimeSyncResp)
  | sending (resp : TimeSyncResp)
  | returned
  deriving DecidableEq, Repr

/-- The blocking task that pops the queue. -/
inductive PopTask where
  | idle
  | running
  | done (pkt : Option EncodedPacket)
  | panicked
  deriving DecidableEq, Repr

/-- What the holder of the writer does: it writes `f`, of which `written` bytes are out, and then the
`next` ones, and at last flushes. -/
inductive Writing where
  | frame (f : Frame) (written : ℕ) (next : List Frame)
  | flush
  deriving DecidableEq, Repr

/-- A frame of which the first `written` bytes are on the wire. -/
structure Sent where
  frame : Frame
  written : ℕ
  deriving DecidableEq, Repr

def Sent.bytes (s : Sent) : List UInt8 := s.frame.encode.take s.written

/-- How a packet left the queue. -/
inductive Departure where
  /-- dropped by a push into the full queue -/
  | overflowed
  /-- popped before the first keyframe, and not one -/
  | skipped
  /-- popped to be sent -/
  | taken
  deriving DecidableEq, Repr

structure Session where
  queue : PacketQueue EncodedPacket
  pop : PopTask
  run : RunPhase
  frame_pump : Pump EncodedPacket
  telemetry_pump : Pump Telemetry
  read_loop : ReadLoop
  /-- `dispatch.abort()` was called -/
  aborted : Bool
  /-- `notify_waiters` was called -/
  stopped : Bool
  stats : Stats
  /-- the guard of the writer -/
  writer : Option (Task × Writing)
  /-- a write has failed -/
  broken : Bool
  wire : List Sent
  /-- the packets that have left the queue, in order -/
  departed : List (EncodedPacket × Departure)
  deriving DecidableEq, Repr

inductive Event where
  /-- the encoder pushes a packet -/
  | push (pkt : EncodedPacket)
  /-- a turn of the blocking pop -/
  | popTurn (expired : Bool)
  | popPanics
  /-- `wait_for_keyframe` takes the result of its pop -/
  | keyframe (expired : Bool)
  /-- a pump goes from the head of its loop into its `select!` -/
  | enterSelect (t : Task)
  /-- its `select!` ends with the notification -/
  | selectStop (t : Task)
  /-- that of `frame_pump` ends with the pop -/
  | selectPop
  /-- that of `telemetry_pump` ends with the tick -/
  | selectTick
  | receive (msg_id : UInt8) (payload : List UInt8) (pc_t2_ns pc_t3_ns : Int64)
  /-- the connection is closed, or a read fails -/
  | readEnds
  /-- a task gets the writer -/
  | lock (t : Task)
  /-- the holder writes `n` bytes -/
  | write (n : ℕ)
  | writeFails
  | flush (ok : Bool)
  /-- the abort of the read loop takes effect -/
  | cancel
  /-- the read loop has returned -/
  | readLoopEnded
  | finish
  | notify
  /-- a join of a pump ends -/
  | joined (timed_out : Bool)
  | engineStop
  deriving DecidableEq, Repr

namespace Session

variable (c : SessionConfig)

/-! ### The handshake -/

/-- The queue of a running engine; without an engine nothing is pushed. -/
def start : Session where
  queue := .new c.queue_capacity
  pop := if c.screen_off then .idle else .running
  run := if c.screen_off then .greeting else .awaitKeyframe
  frame_pump := .unspawned
  telemetry_pump := .unspawned
  read_loop := .unspawned
  aborted := false
  stopped := false
  stats := ⟨0, []⟩
  writer := if c.screen_off then some (.run, .frame c.helloFrame 0 [c.configFrame]) else none
  broken := false
  wire := []
  departed := []

/-- `run` returns an error, and drops the engine and the writer. -/
def failRun (s : Session) : Session :=
  { s with run := .failed, queue := s.queue.close, writer := none }

/-- The first keyframe is there. -/
def greet (s : Session) (first : EncodedPacket) : Session :=
  if (c.csd0 first.bytes).isEmpty then s.failRun
  else
    { s with
      pop := .idle
      run := .greeting
      writer := some (.run,
        .frame c.helloFrame 0 [c.configFrame, c.csd0Frame first, firstFrame first]) }

/-- A turn of the loop of `wait_for_keyframe`, behind its pop. -/
def waitForKeyframe (s : Session) (expired : Bool) : Session :=
  match s.run, s.pop with
  | .awaitKeyframe, .done (some pkt) =>
    if pkt.is_keyframe then greet c s pkt
    else if expired then s.failRun
    else { s with pop := .running }
  | .awaitKeyframe, .done none => if expired then s.failRun else { s with pop := .running }
  | .awaitKeyframe, .panicked => s.failRun
  | _, _ => s

/-- The tasks are spawned. -/
def spawn (s : Session) : Session :=
  { s with
    run := .serving
    frame_pump := if c.screen_off then .unspawned else .head
    telemetry_pump := if c.screen_off then .unspawned else .head
    read_loop := .reading
    writer := none }

/-! ### The queue -/

def push (s : Session) (pkt : EncodedPacket) : Session :=
  if c.screen_off then s
  else
    { s with
      queue := s.queue.push pkt
      departed := s.departed ++ s.queue.evicted.toList.map (·, .overflowed) }

def popTurn (s : Session) (expired : Bool) : Session :=
  match s.pop with
  | .running =>
    match s.queue.popTimeout expired with
    | none => s
    | some none => { s with pop := .done none }
    | some (some pkt) =>
      { s with
        pop := .done (some pkt)
        queue := s.queue.popFront
        departed := s.departed ++ [(pkt,
          if s.run = .awaitKeyframe ∧ pkt.is_keyframe = false then .skipped else .taken)] }
  | _ => s

def popPanics (s : Session) : Session :=
  match s.pop with
  | .running => { s with pop := .panicked }
  | _ => s

/-! ### The pumps -/

def enterSelect (s : Session) : Task → Session
  | .framePump =>
    match s.frame_pump with
    | .head => { s with frame_pump := .selecting false, pop := .running }
    | _ => s
  | .telemetryPump =>
    match s.telemetry_pump with
    | .head => { s with telemetry_pump := .selecting false }
    | _ => s
  | _ => s

def selectStop (s : Session) : Task → Session
  | .framePump =>
    match s.frame_pump with
    | .selecting true => { s with frame_pump := .returned }
    | _ => s
  | .telemetryPump =>
    match s.telemetry_pump with
    | .selecting true => { s with telemetry_pump := .returned }
    | _ => s
  | _ => s

def selectPop (s : Session) : Session :=
  match s.frame_pump, s.pop with
  | .selecting _, .done (some pkt) => { s with frame_pump := .locking pkt, pop := .idle }
  | .selecting _, .done none => { s with frame_pump := .head, pop := .idle }
  | .selecting _, .panicked => { s with frame_pump := .returned, pop := .idle }
  | _, _ => s

/-- What `telemetry_pump` reads at a tick. -/
def sample (s : Session) : Telemetry where
  frames := s.stats.frames
  dropped := UInt32.ofNat s.queue.dropped_overflow
  capture_us_avg := 0
  encode_us_avg := s.stats.encodeUsSummary.1
  encode_us_p99 := s.stats.encodeUsSummary.2
  queue_depth := UInt8.ofNat (min s.queue.deque.length 255)

def selectTick (s : Session) : Session :=
  match s.telemetry_pump with
  | .selecting _ =>
    { s with
      telemetry_pump := .locking s.sample
      stats := { s.stats with frames := 0 } }
  | _ => s

/-! ### The read loop -/

def receive (s : Session) (msg_id : UInt8) (payload : List UInt8) (pc_t2_ns pc_t3_ns : Int64) :
    Session :=
  match s.read_loop with
  | .reading =>
    match (c.read.handleMessage msg_id payload true).2 with
    | some _ => { s with read_loop := .returned }
    | none =>
      if msg_id = msgTimeSyncReq then
        match TimeSyncReq.decode payload with
        | .ok req => { s with read_loop := .locking ⟨req.android_t1_ns, pc_t2_ns, pc_t3_ns⟩ }
        | .error _ => s
      else s
  | _ => s

def readEnds (s : Session) : Session :=
  match s.read_loop with
  | .reading => { s with read_loop := .returned }
  | _ => s

/-- The read loop is dropped, and with it the guard it may hold. -/
def dropReadLoop (s : Session) : Session :=
  { s with
    read_loop := .returned
    writer := match s.writer with
      | some (.readLoop, _) => none
      | writer => writer }

/-! ### The writer -/

def lock (s : Session) (t : Task) : Session :=
  match s.writer with
  | some _ => s
  | none =>
    match t with
    | .run =>
      if s.run = .lockingGoodbye then
        { s with run := .goodbye, writer := some (.run, .frame goodbyeFrame 0 []) }
      else s
    | .framePump =>
      match s.frame_pump with
      | .locking pkt =>
        { s with frame_pump := .sending pkt, writer := some (t, .frame (pumpFrame pkt) 0 []) }
      | _ => s
    | .telemetryPump =>
      match s.telemetry_pump with
      | .locking tel =>
        { s with telemetry_pump := .sending tel, writer := some (t, .frame (telemetryFrame tel) 0 []) }
      | _ => s
    | .readLoop =>
      match s.read_loop with
      | .locking resp =>
        { s with read_loop := .sending resp, writer := some (t, .frame (respFrame resp) 0 []) }
      | _ => s

/-- `n` more bytes of a frame are on the wire. -/
def put (wire : List Sent) (f : Frame) (written n : ℕ) : List Sent :=
  if written = 0 then wire ++ [⟨f, n⟩] else wire.dropLast ++ [⟨f, written + n⟩]

/-- The frame is out. -/
def nextWriting : List Frame → Writing
  | [] => .flush
  | f :: next => .frame f 0 next

def write (s : Session) (n : ℕ) : Session :=
  match s.writer with
  | some (t, .frame f written next) =>
    let len := f.encode.length
    if s.broken = false ∧ 0 < n ∧ written + n ≤ len then
      { s with
        wire := put s.wire f written n
        writer := some (t,
          if written + n < len then .frame f (written + n) next else nextWriting next) }
    else s
  | _ => s

/-- The holder of the writer goes on behind a send that went well. -/
def sent (s : Session) : Task → Session
  | .run =>
    if s.run = .greeting then spawn c s
    else { s with run := if c.screen_off then .done else .stopping, writer := none }
  | .framePump =>
    match s.frame_pump with
    | .sending pkt => { s with frame_pump := .head, stats := s.stats.count pkt, writer := none }
    | _ => s
  | .telemetryPump => { s with telemetry_pump := .head, writer := none }
  | .readLoop => { s with read_loop := .reading, writer := none }

/-- It goes on behind a write or a flush that failed.  A goodbye that cannot be written is still
flushed, and a flush that fails ends neither the goodbye nor the read loop. -/
def sendFailed (s : Session) (flushing : Bool) : Task → Session
  | .run =>
    if s.run = .greeting then s.failRun
    else if flushing then sent c s .run
    else { s with writer := some (.run, .flush) }
  | .framePump => { s with frame_pump := .returned, writer := none }
  | .telemetryPump => { s with telemetry_pump := .returned, writer := none }
  | .readLoop =>
    if flushing then sent c s .readLoop
    else { s with read_loop := .returned, writer := none }

def writeFails (s : Session) : Session :=
  match s.writer with
  | some (t, .frame _ _ _) => sendFailed c { s with broken := true } false t
  | _ => s

def flush (s : Session) (ok : Bool) : Session :=
  match s.writer with
  | some (t, .flush) => if ok then sent c s t else sendFailed c s true t
  | _ => s

/-! ### The end -/

/-- `run` leaves its `select!` loop. -/
def leave (s : Session) : Session :=
  { s with run := if c.screen_off then .lockingGoodbye else .notifying }

def readLoopEnded (s : Session) : Session :=
  if s.run = .serving ∧ s.read_loop = .returned then leave c s else s

/-- With a screen the read loop is a task, which is aborted; without one it is a branch of the `select!`,
which drops it at once. -/
def finish (s : Session) : Session :=
  if s.run = .serving then
    if c.screen_off then leave c s.dropReadLoop else leave c { s with aborted := true }
  else s

def cancel (s : Session) : Session := if s.aborted then s.dropReadLoop else s

def notify (s : Session) : Session :=
  if s.run = .notifying then
    { s with
      run := .joiningFrame
      stopped := true
      frame_pump := s.frame_pump.notify
      telemetry_pump := s.telemetry_pump.notify }
  else s

def joined (s : Session) (timed_out : Bool) : Session :=
  match s.run with
  | .joiningFrame =>
    if timed_out ∨ s.frame_pump = .returned then { s with run := .joiningTelemetry } else s
  | .joiningTelemetry =>
    if timed_out ∨ s.telemetry_pump = .returned then { s with run := .lockingGoodbye } else s
  | _ => s

def engineStop (s : Session) : Session :=
  if s.run = .stopping then { s with run := .done, queue := s.queue.close } else s

def step (s : Session) : Event → Session
  | .push pkt => push c s pkt
  | .popTurn expired => s.popTurn expired
  | .popPanics => s.popPanics
  | .keyframe expired => waitForKeyframe c s expired
  | .enterSelect t => s.enterSelect t
  | .selectStop t => s.selectStop t
  | .selectPop => s.selectPop
  | .selectTick => s.selectTick
  | .receive msg_id payload t2 t3 => receive c s msg_id payload t2 t3
  | .readEnds => s.readEnds
  | .lock t => s.lock t
  | .write n => s.write n
  | .writeFails => writeFails c s
  | .flush ok => flush c s ok
  | .cancel => s.cancel
  | .readLoopEnded => readLoopEnded c s
  | .finish => finish c s
  | .notify => s.notify
  | .joined timed_out => s.joined timed_out
  | .engineStop => s.engineStop

/-- The session behind the events `es`. -/
def after (es : List Event) : Session := es.foldl (step c) (start c)

end Session

end Penflow
