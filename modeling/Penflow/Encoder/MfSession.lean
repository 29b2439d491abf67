import Mathlib.Data.List.TakeDrop
import Penflow.Encoder.PatchPacket
import Penflow.Lib.Run

/-!
# The Media Foundation encoder session

The transform is asynchronous: it grants an input with a `METransformNeedInput` event and offers an
output with a `METransformHaveOutput` event, and the session reads both kinds from one event queue, in
the blocking loop of `wait_for_need_input` and in the non-blocking one of `drain_events_nowait`.  A step
of the machine below is an event that arrives, a call of the session, or a turn of the call that runs;
the answers of the transform come with the turn.
-/

namespace Penflow

/-! ### The transform -/

/-- An event of the transform: `METransformNeedInput`, `METransformHaveOutput`, or another. -/
inductive MediaEvent where
  | needInput
  | haveOutput
  | other
  deriving DecidableEq, Repr

/-- A sample the transform puts out. -/
structure OutputSample where
  bytes : List UInt8
  /-- `GetSampleTime`, in units of 100 ns -/
  sample_time : Option Int64
  deriving DecidableEq, Repr

/-- A sample the transform takes in, and whether a key frame was asked for before it. -/
structure InputSample where
  sample_time : Int64
  sample_duration : Int64
  force_key_frame : Bool
  deriving DecidableEq, Repr

/-- The answers to the calls of `collect_output_packet`. -/
structure OutputAnswers where
  /-- `GetOutputStreamInfo`: whether the transform provides the samples, and `cbSize` -/
  stream_info : Option (Bool × UInt32)
  /-- `MFCreateSample`, `MFCreateMemoryBuffer`, `AddBuffer` -/
  alloc : Bool
  /-- `ProcessOutput`, and the sample it leaves behind -/
  process_output : Option (Option OutputSample)
  /-- `read_sample_bytes` -/
  read : Bool
  /-- `Instant::now()` behind `ProcessOutput` -/
  finished_at : ℕ
  deriving DecidableEq, Repr

/-- The answers to the calls of one turn. -/
structure Answers extends OutputAnswers where
  get_event : Bool
  get_type : Bool
  /-- `MFCreateDXGISurfaceBuffer`, `MFCreateSample`, `AddBuffer`, `SetSampleTime`, `SetSampleDuration` -/
  make_sample : Bool
  process_input : Bool
  /-- `Instant::now()` behind `ProcessInput` -/
  submitted_at : ℕ
  deriving DecidableEq, Repr

/-! ### Keyframes -/

namespace Codec

def isVcl : Codec → UInt8 → Bool
  | h264, t => 1 ≤ t && t ≤ 5
  | hevc, t => t < 32

def isIdr : Codec → UInt8 → Bool
  | h264, t => t == 5
  | hevc, t => 19 ≤ t && t ≤ 21

end Codec

/-- The offset behind a start code at `i`. -/
def startCodeEnd (bytes : List UInt8) (i : ℕ) : Option ℕ :=
  if [0, 0, 0, 1] <+: bytes.drop i then some (i + 4)
  else if [0, 0, 1] <+: bytes.drop i then some (i + 3)
  else none

/-- The loop of `first_nal_is_idr` at offset `i`. -/
def firstNalIsIdrFrom (codec : Codec) (bytes : List UInt8) : ℕ → ℕ → Bool
  | 0, _ => false
  | fuel + 1, i =>
    if i + 3 < bytes.length then
      match startCodeEnd bytes i with
      | none => firstNalIsIdrFrom codec bytes fuel (i + 1)
      | some off =>
        match bytes[off]? with
        | none => false
        | some b =>
          if codec.isVcl (codec.nalType b) then codec.isIdr (codec.nalType b)
          else firstNalIsIdrFrom codec bytes fuel (off + codec.headerLen)
    else
      false

def firstNalIsIdr (bytes : List UInt8) (codec : Codec) : Bool :=
  firstNalIsIdrFrom codec bytes bytes.length 0

/-! ### The session -/

/-- What the session reads of its configuration. -/
structure EncodeConfig where
  codec : Codec
  width : UInt32
  height : UInt32
  fps : UInt32
  deriving DecidableEq, Repr

structure MfSession where
  cfg : EncodeConfig
  sequence_header : List UInt8
  have_need_input_credit : Bool
  output_queue : List EncodedPacket
  /-- `(pts_ns, submit_instant)` of the frames in the transform -/
  pending_input_meta : List (Int64 × ℕ)
  deriving DecidableEq, Repr

namespace MfSession

def new (cfg : EncodeConfig) : MfSession where
  cfg := cfg
  sequence_header := []
  have_need_input_credit := false
  output_queue := []
  pending_input_meta := []

/-- The sample of a frame. -/
def inputSample (s : MfSession) (pts_ns : Int64) (force_idr : Bool) : InputSample where
  sample_time := pts_ns / 100
  sample_duration :=
    if 0 < s.cfg.fps then 10000000 / Int64.ofNat s.cfg.fps.toNat else 166667
  force_key_frame := force_idr

/-- The microseconds from the submit to the finished sample, capped at `u32::MAX`. -/
def encodeUs (submit_instant finished_at : ℕ) : UInt32 :=
  UInt32.ofNat (min ((finished_at - submit_instant) / 1000) (2 ^ 32 - 1))

variable [BuildProfile]

/-- The size of the buffer for a sample that the transform does not provide. -/
def bufferSize (s : MfSession) (cb_size : UInt32) : Outcome ℕ := do
  let area ← mulU32 s.cfg.width.toNat s.cfg.height.toNat
  let frame ← mulU32 area 2
  pure (max cb_size.toNat frame)

/-- The bytes of a packet: those of the patcher, or the raw ones where it returns an error. -/
def patchedBytes (codec : Codec) (raw_bytes : List UInt8) : Outcome (List UInt8) :=
  match patchPacketForLowLatencyDpb codec raw_bytes with
  | .ok patched => .ok patched
  | .error (.err _) => .ok raw_bytes
  | .error .panic => .error .panic

/-- `t * 100` on `i64`. -/
def hundredfold (t : Int64) : Outcome Int64 :=
  if -2 ^ 63 ≤ t.toInt * 100 ∧ t.toInt * 100 < 2 ^ 63 then .ok (t * 100) else overflow (t * 100)

/-- The time stamps of a packet: those of the oldest frame in the transform, or else what the sample
says. -/
def stamps (s : MfSession) (sample : OutputSample) (finished_at : ℕ) :
    Outcome (Int64 × Option UInt32) :=
  match s.pending_input_meta with
  | (pts, submit_instant) :: _ => .ok (pts, some (encodeUs submit_instant finished_at))
  | [] =>
    match sample.sample_time with
    | some t => do
      let pts ← hundredfold t
      pure (pts, none)
    | none => .ok (0, none)

/-- A call of Windows that answers with a value. -/
def win32 {α : Type} : Option α → Outcome α
  | some a => .ok a
  | none => .error (.err .win32)

/-- A call of Windows that answers with success or failure. -/
def succeeded (ok : Bool) : Outcome Unit := if ok then .ok () else .error (.err .win32)

/-- `collect_output_packet` behind `ProcessOutput`. -/
def packetOf (s : MfSession) (sample : OutputSample) (a : OutputAnswers) :
    Outcome (EncodedPacket × MfSession) := do
  succeeded a.read
  let bytes ← patchedBytes s.cfg.codec sample.bytes
  let (pts_ns, encode_us) ← s.stamps sample a.finished_at
  let is_keyframe := firstNalIsIdr bytes s.cfg.codec
  pure (⟨bytes, pts_ns, is_keyframe, encode_us⟩,
    { s with
      pending_input_meta := s.pending_input_meta.tail
      sequence_header := if is_keyframe && s.sequence_header.isEmpty then bytes else s.sequence_header })

/-- The sample that `collect_output_packet` makes where the transform does not provide one. -/
def outputBuffer (s : MfSession) (a : OutputAnswers) : Outcome Unit := do
  let (provides, cb_size) ← win32 a.stream_info
  if provides then
    pure ()
  else
    let _needed ← s.bufferSize cb_size
    succeeded a.alloc

def collectOutputPacket (s : MfSession) (a : OutputAnswers) :
    Outcome (Option EncodedPacket × MfSession) := do
  s.outputBuffer a
  match ← win32 a.process_output with
  | none => pure (none, s)
  | some sample => do
    let (pkt, s) ← s.packetOf sample a
    pure (some pkt, s)

end MfSession

/-! ### The machine -/

/-- Where the thread of the session is. -/
inductive EncodePhase where
  /-- in no call -/
  | idle
  /-- `submit_frame` waits for a credit -/
  | initialWait (pts_ns : Int64) (force_idr : Bool)
  /-- `submit_frame` has its credit -/
  | feed (pts_ns : Int64) (force_idr : Bool)
  /-- `submit_frame` waits for the next credit -/
  | prefetchWait
  /-- `try_packet` drains the events -/
  | drain
  /-- a call has panicked -/
  | unwound
  deriving DecidableEq, Repr

/-- A session with its transform, and what has passed between them and the caller. -/
structure Encoding where
  session : MfSession
  phase : EncodePhase
  /-- the event queue of the transform -/
  events : List MediaEvent
  /-- the `METransformNeedInput` events the transform has queued -/
  needInputs : ℕ
  /-- the ones of them that `GetEvent` has taken out -/
  needInputsDequeued : ℕ
  /-- the outputs the transform has offered, one for each `METransformHaveOutput` -/
  outputs : List OutputSample
  /-- the `METransformHaveOutput` events that `GetEvent` has taken out -/
  haveOutputsDequeued : ℕ
  /-- the calls of `ProcessInput` -/
  processInputs : List InputSample
  /-- the `pts_ns` of each `submit_frame` call -/
  calls : List Int64
  /-- `pts_ns` and instant of each frame that `ProcessInput` took -/
  submitted : List (Int64 × ℕ)
  /-- the packets that `try_packet` has returned -/
  returned : List EncodedPacket
  deriving DecidableEq, Repr

inductive EncodeLabel where
  /-- the transform grants an input -/
  | needInput
  /-- the transform offers an output -/
  | haveOutput (sample : OutputSample)
  | otherEvent
  | submitFrame (pts_ns : Int64) (force_idr : Bool)
  | tryPacket
  /-- the running call goes on -/
  | turn (a : Answers)
  deriving DecidableEq, Repr

namespace Encoding

def start (cfg : EncodeConfig) : Encoding where
  session := .new cfg
  phase := .idle
  events := []
  needInputs := 0
  needInputsDequeued := 0
  outputs := []
  haveOutputsDequeued := 0
  processInputs := []
  calls := []
  submitted := []
  returned := []

/-- The packets that were collected, in order. -/
def packets (s : Encoding) : List EncodedPacket := s.returned ++ s.session.output_queue

/-- The head of the event queue is taken out. -/
def dequeue (s : Encoding) (e : MediaEvent) (events : List MediaEvent) : Encoding :=
  { s with
    events := events
    needInputsDequeued := s.needInputsDequeued + if e = .needInput then 1 else 0
    haveOutputsDequeued := s.haveOutputsDequeued + if e = .haveOutput then 1 else 0 }

/-- The call returns an error. -/
def fails (s : Encoding) : Encoding := { s with phase := .idle }

/-- The credit is there: `submit_frame` goes on, or returns. -/
def granted (s : Encoding) : Encoding :=
  match s.phase with
  | .initialWait pts_ns force_idr => { s with phase := .feed pts_ns force_idr }
  | .prefetchWait =>
    { s with phase := .idle, session := { s.session with have_need_input_credit := true } }
  | _ => s

def submitFrame (s : Encoding) (pts_ns : Int64) (force_idr : Bool) : Encoding :=
  match s.phase with
  | .idle =>
    if s.session.have_need_input_credit then
      { s with
        calls := s.calls ++ [pts_ns]
        phase := .feed pts_ns force_idr
        session := { s.session with have_need_input_credit := false } }
    else
      { s with calls := s.calls ++ [pts_ns], phase := .initialWait pts_ns force_idr }
  | _ => s

def tryPacket (s : Encoding) : Encoding :=
  match s.phase with
  | .idle => { s with phase := .drain }
  | _ => s

/-- `submit_frame` behind its credit: the sample, `ProcessInput`, and the entry in the FIFO. -/
def feed (s : Encoding) (pts_ns : Int64) (force_idr : Bool) (a : Answers) : Encoding :=
  if a.make_sample then
    let s := { s with
      processInputs := s.processInputs ++ [s.session.inputSample pts_ns force_idr] }
    if a.process_input then
      { s with
        phase := .prefetchWait
        submitted := s.submitted ++ [(pts_ns, a.submitted_at)]
        session := { s.session with
          pending_input_meta := s.session.pending_input_meta ++ [(pts_ns, a.submitted_at)] } }
    else
      s.fails
  else
    s.fails

/-- `drain_events_nowait` has found no event, and `try_packet` returns. -/
def popPacket (s : Encoding) : Encoding :=
  { s with
    phase := .idle
    returned := s.returned ++ s.session.output_queue.head?.toList
    session := { s.session with output_queue := s.session.output_queue.tail } }

variable [BuildProfile]

/-- An event loop collects the output it was told of. -/
def collect (s : Encoding) (a : OutputAnswers) : Encoding :=
  match s.session.collectOutputPacket a with
  | .ok (some pkt, session) =>
    { s with session := { session with output_queue := session.output_queue ++ [pkt] } }
  | .ok (none, session) => { s with session := session }
  | .error (.err _) => s.fails
  | .error .panic => { s with phase := .unwound }

/-- A turn of the loop of `wait_for_need_input`; without an event `GetEvent` blocks. -/
def waitForNeedInput (s : Encoding) (a : Answers) : Encoding :=
  if a.get_event then
    match s.events with
    | [] => s
    | e :: events =>
      let s := s.dequeue e events
      if a.get_type then
        match e with
        | .needInput => s.granted
        | .haveOutput => s.collect a.toOutputAnswers
        | .other => s
      else
        s.fails
  else
    s.fails

/-- A turn of the loop of `drain_events_nowait`. -/
def drainEventsNowait (s : Encoding) (a : Answers) : Encoding :=
  if a.get_event then
    match s.events with
    | [] => s.popPacket
    | e :: events =>
      let s := s.dequeue e events
      if a.get_type then
        match e with
        | .haveOutput => s.collect a.toOutputAnswers
        | _ => s
      else
        s.fails
  else
    s.fails

def turn (s : Encoding) (a : Answers) : Encoding :=
  match s.phase with
  | .initialWait _ _ => s.waitForNeedInput a
  | .feed pts_ns force_idr => s.feed pts_ns force_idr a
  | .prefetchWait => s.waitForNeedInput a
  | .drain => s.drainEventsNowait a
  | _ => s

def step (s : Encoding) : EncodeLabel → Encoding
  | .needInput => { s with events := s.events ++ [.needInput], needInputs := s.needInputs + 1 }
  | .haveOutput sample =>
    { s with events := s.events ++ [.haveOutput], outputs := s.outputs ++ [sample] }
  | .otherEvent => { s with events := s.events ++ [.other] }
  | .submitFrame pts_ns force_idr => s.submitFrame pts_ns force_idr
  | .tryPacket => s.tryPacket
  | .turn a => s.turn a

end Encoding

/-! ### What a collected output leaves -/

namespace MfSession

variable {s s' : MfSession} {a : OutputAnswers}

variable [BuildProfile]

theorem packetOf_eq_ok {sample : OutputSample} {pkt : EncodedPacket}
    (h : s.packetOf sample a = .ok (pkt, s')) :
    patchedBytes s.cfg.codec sample.bytes = .ok pkt.bytes ∧
      s.stamps sample a.finished_at = .ok (pkt.pts_ns, pkt.encode_us) ∧
      s'.pending_input_meta = s.pending_input_meta.tail ∧ s'.output_queue = s.output_queue ∧
      s'.cfg = s.cfg ∧ s'.have_need_input_credit = s.have_need_input_credit := by
  obtain ⟨-, -, h⟩ := Outcome.bind_eq_ok.1 h
  obtain ⟨bytes, hbytes, h⟩ := Outcome.bind_eq_ok.1 h
  obtain ⟨⟨pts_ns, encode_us⟩, hstamps, h⟩ := Outcome.bind_eq_ok.1 h
  cases h
  exact ⟨hbytes, hstamps, rfl, rfl, rfl, rfl⟩

/-- The packet is the one of the frame at the head of the FIFO. -/
theorem packetOf_head {sample : OutputSample} {pkt : EncodedPacket} {frame : Int64 × ℕ}
    {rest : List (Int64 × ℕ)} (hmetas : s.pending_input_meta = frame :: rest)
    (h : s.packetOf sample a = .ok (pkt, s')) :
    pkt.pts_ns = frame.1 ∧ pkt.encode_us.isSome ∧ s'.pending_input_meta = rest := by
  obtain ⟨-, hstamps, htail, -⟩ := packetOf_eq_ok h
  simp only [stamps, hmetas] at hstamps
  rw [Except.ok.injEq, Prod.mk.injEq] at hstamps
  rw [← hstamps.1, ← hstamps.2, htail, hmetas]
  exact ⟨rfl, rfl, rfl⟩

/-- A call that returns a packet has got its sample from `ProcessOutput`; one that returns none has
changed nothing. -/
theorem collectOutputPacket_eq_ok {pkt : Option EncodedPacket}
    (h : s.collectOutputPacket a = .ok (pkt, s')) :
    (a.process_output = some none ∧ pkt = none ∧ s' = s) ∨
      ∃ sample p, a.process_output = some (some sample) ∧ pkt = some p ∧
        s.packetOf sample a = .ok (p, s') := by
  obtain ⟨-, -, h⟩ := Outcome.bind_eq_ok.1 h
  obtain ⟨left, hleft, h⟩ := Outcome.bind_eq_ok.1 h
  have hout : a.process_output = some left := by
    cases ho : a.process_output with
    | none =>
        rw [ho] at hleft
        cases hleft
    | some left' =>
        rw [ho] at hleft
        cases hleft
        rfl
  cases left with
  | none =>
      cases h
      exact .inl ⟨hout, rfl, rfl⟩
  | some sample =>
      obtain ⟨⟨p, t⟩, hp, h⟩ := Outcome.bind_eq_ok.1 h
      cases h
      exact .inr ⟨sample, p, hout, rfl, hp⟩

theorem unfailing_patchedBytes (codec : Codec) (raw_bytes : List UInt8) :
    (patchedBytes codec raw_bytes).Unfailing := by
  intro e h
  rw [patchedBytes] at h
  split at h <;> cases h

theorem unfailing_stamps (sample : OutputSample) (finished_at : ℕ) :
    (s.stamps sample finished_at).Unfailing := by
  rw [stamps]
  split
  · exact Outcome.unfailing_ok _
  · split
    · apply Outcome.Unfailing.bind
      · rw [hundredfold]
        split
        · exact Outcome.unfailing_ok _
        · exact unfailing_overflow _
      · intro pts _
        exact Outcome.unfailing_ok _
    · exact Outcome.unfailing_ok _

omit [BuildProfile] in
theorem unfailing_succeeded {ok : Bool} (h : ok = true) : (succeeded ok).Unfailing := by
  rw [h]
  exact Outcome.unfailing_ok _

omit [BuildProfile] in
theorem unfailing_win32 {α : Type} {answer : Option α} (h : answer.isSome) :
    (win32 answer).Unfailing := by
  cases answer with
  | none => cases h
  | some x => exact Outcome.unfailing_ok _

/-- Where the calls of the transform succeed, `collect_output_packet` returns no error. -/
theorem unfailing_collectOutputPacket (hinfo : a.stream_info.isSome) (halloc : a.alloc)
    (hout : a.process_output.isSome) (hread : a.read) : (s.collectOutputPacket a).Unfailing := by
  have hbuffer : (s.outputBuffer a).Unfailing := by
    apply Outcome.Unfailing.bind (unfailing_win32 hinfo)
    rintro ⟨provides, cb_size⟩ -
    cases provides with
    | true => exact Outcome.unfailing_ok _
    | false =>
        apply Outcome.Unfailing.bind
        · apply Outcome.Unfailing.bind (unfailing_mulU32 _ _)
          intro area _
          apply Outcome.Unfailing.bind (unfailing_mulU32 _ _)
          intro frame _
          exact Outcome.unfailing_ok _
        · intro needed _
          exact unfailing_succeeded halloc
  apply Outcome.Unfailing.bind hbuffer
  intro _ _
  apply Outcome.Unfailing.bind (unfailing_win32 hout)
  intro left _
  cases left with
  | none => exact Outcome.unfailing_ok _
  | some sample =>
      apply Outcome.Unfailing.bind
      · apply Outcome.Unfailing.bind (unfailing_succeeded hread)
        intro _ _
        apply Outcome.Unfailing.bind (unfailing_patchedBytes _ _)
        intro bytes _
        apply Outcome.Unfailing.bind (unfailing_stamps _ _)
        intro r _
        exact Outcome.unfailing_ok _
      · intro r _
        exact Outcome.unfailing_ok _

end MfSession

/-! ### The pairing -/

/-- The calls of the transform succeed. -/
structure Answers.Succeed (a : Answers) : Prop where
  get_event : a.get_event = true
  get_type : a.get_type = true
  stream_info : a.stream_info.isSome
  alloc : a.alloc = true
  process_output : a.process_output.isSome
  read : a.read = true
  make_sample : a.make_sample = true
  process_input : a.process_input = true

instance (a : Answers) : Decidable a.Succeed :=
  decidable_of_iff (a.get_event = true ∧ a.get_type = true ∧ a.stream_info.isSome ∧ a.alloc = true ∧
      a.process_output.isSome ∧ a.read = true ∧ a.make_sample = true ∧ a.process_input = true)
    ⟨fun ⟨h₁, h₂, h₃, h₄, h₅, h₆, h₇, h₈⟩ => ⟨h₁, h₂, h₃, h₄, h₅, h₆, h₇, h₈⟩,
      fun ⟨h₁, h₂, h₃, h₄, h₅, h₆, h₇, h₈⟩ => ⟨h₁, h₂, h₃, h₄, h₅, h₆, h₇, h₈⟩⟩

/-- The frame of a `submit_frame` call that has not come to `ProcessInput`. -/
def EncodePhase.inHand : EncodePhase → List Int64
  | .initialWait pts_ns _ => [pts_ns]
  | .feed pts_ns _ => [pts_ns]
  | _ => []

namespace Encoding

/-- The transform keeps its promise: one output for an input, in the order of the inputs, and its calls
succeed. -/
def Promised (s : Encoding) : EncodeLabel → Prop
  | .haveOutput _ => s.outputs.length < s.submitted.length
  | .turn a =>
    a.Succeed ∧ ∀ sample ∈ s.outputs[s.haveOutputsDequeued]?, a.process_output = some (some sample)
  | _ => True

instance (s : Encoding) : ∀ l, Decidable (s.Promised l)
  | .haveOutput _ => inferInstanceAs (Decidable (_ < _))
  | .turn a => inferInstanceAs (Decidable (a.Succeed ∧ _))
  | .needInput => inferInstanceAs (Decidable True)
  | .otherEvent => inferInstanceAs (Decidable True)
  | .submitFrame _ _ => inferInstanceAs (Decidable True)
  | .tryPacket => inferInstanceAs (Decidable True)

variable [BuildProfile]

/-- The packets and the FIFO belong to the frames in order. -/
structure Paired (s : Encoding) : Prop where
  offered : s.events.count .haveOutput + s.haveOutputsDequeued = s.outputs.length
  promised : s.outputs.length ≤ s.submitted.length
  collected : s.phase ≠ .unwound → s.haveOutputsDequeued = s.packets.length
  bounded : s.packets.length ≤ s.haveOutputsDequeued
  ordered : s.submitted.map Prod.fst <+: s.calls
  inHand : s.phase ≠ .unwound → s.calls = s.submitted.map Prod.fst ++ s.phase.inHand
  metas : s.session.pending_input_meta = s.submitted.drop s.packets.length
  pts : s.packets.map EncodedPacket.pts_ns = (s.submitted.take s.packets.length).map Prod.fst
  timed : ∀ pkt ∈ s.packets, pkt.encode_us.isSome
  bytes : s.packets.map (fun pkt => Except.ok pkt.bytes) =
    (s.outputs.take s.packets.length).map fun sample =>
      MfSession.patchedBytes s.session.cfg.codec sample.bytes

theorem paired_start (cfg : EncodeConfig) : (start cfg).Paired where
  offered := rfl
  promised := Nat.le_refl _
  collected := fun _ => rfl
  bounded := Nat.le_refl _
  ordered := List.prefix_rfl
  inHand := fun _ => rfl
  metas := rfl
  pts := rfl
  timed := by
    intro pkt h
    cases h
  bytes := rfl

variable {s : Encoding}

theorem Paired.packets_le_outputs (hs : s.Paired) : s.packets.length ≤ s.outputs.length := by
  have hoffered := hs.offered
  have hbounded := hs.bounded
  omega

theorem Paired.packets_le_submitted (hs : s.Paired) : s.packets.length ≤ s.submitted.length :=
  hs.packets_le_outputs.trans hs.promised

/-- The head of the transform's outputs that are not collected goes with the head of the FIFO. -/
theorem Paired.next {events : List MediaEvent} (hs : s.Paired) (hphase : s.phase ≠ .unwound)
    (hevents : s.events = .haveOutput :: events) :
    ∃ sample frame, s.outputs[s.packets.length]? = some sample ∧
      s.submitted[s.packets.length]? = some frame ∧
      s.session.pending_input_meta = frame :: s.submitted.drop (s.packets.length + 1) := by
  have hcount := hs.offered
  rw [hevents, List.count_cons_self, hs.collected hphase] at hcount
  have hout : s.packets.length < s.outputs.length := by omega
  have hsub : s.packets.length < s.submitted.length := Nat.lt_of_lt_of_le hout hs.promised
  refine ⟨_, _, List.getElem?_eq_getElem hout, List.getElem?_eq_getElem hsub, ?_⟩
  rw [hs.metas]
  exact List.drop_eq_getElem_cons hsub

theorem Paired.offered_tail {events : List MediaEvent} (hs : s.Paired)
    (hevents : s.events = .haveOutput :: events) :
    events.count .haveOutput + (s.haveOutputsDequeued + 1) = s.outputs.length := by
  have hoffered := hs.offered
  rw [hevents, List.count_cons_self] at hoffered
  omega

/-- The encoder unwinds behind an event that is out of the queue. -/
theorem paired_unwound {events : List MediaEvent} (hs : s.Paired)
    (hevents : s.events = .haveOutput :: events) :
    Paired { s.dequeue .haveOutput events with phase := .unwound } :=
  { hs with
    offered := hs.offered_tail hevents
    collected := fun h => absurd rfl h
    bounded := Nat.le_succ_of_le hs.bounded
    inHand := fun h => absurd rfl h }

/-- The packet of the next output joins the queue. -/
theorem paired_packet {events : List MediaEvent} {a : OutputAnswers} {sample : OutputSample}
    {p : EncodedPacket} {session : MfSession} (hs : s.Paired) (hphase : s.phase ≠ .unwound)
    (hevents : s.events = .haveOutput :: events)
    (hsample : s.outputs[s.packets.length]? = some sample)
    (hp : s.session.packetOf sample a = .ok (p, session)) :
    Paired { s.dequeue .haveOutput events with
      session := { session with output_queue := session.output_queue ++ [p] } } := by
  obtain ⟨sample', frame, hsample', hframe, hmetas⟩ := hs.next hphase hevents
  rw [hsample] at hsample'
  cases hsample'
  obtain ⟨hbytes, -, -, hqueue, hcfg, -⟩ := MfSession.packetOf_eq_ok hp
  obtain ⟨hpts, htimed, htail⟩ := MfSession.packetOf_head hmetas hp
  have hpackets : packets { s.dequeue .haveOutput events with
      session := { session with output_queue := session.output_queue ++ [p] } } = s.packets ++ [p] := by
    rw [packets, packets, List.append_assoc]
    simp only [hqueue, dequeue]
  have hlength : (packets { s.dequeue .haveOutput events with
      session := { session with output_queue := session.output_queue ++ [p] } }).length =
        s.packets.length + 1 := by
    rw [hpackets, List.length_append, List.length_singleton]
  refine ⟨hs.offered_tail hevents, hs.promised, ?_, ?_, hs.ordered, hs.inHand, ?_, ?_, ?_, ?_⟩
  · intro _
    rw [hlength, ← hs.collected hphase]
    rfl
  · rw [hlength, ← hs.collected hphase]
    exact Nat.le_refl _
  · rw [hlength]
    exact htail
  · rw [hlength, hpackets, List.map_append, hs.pts]
    show _ = ((s.submitted.take (s.packets.length + 1)).map Prod.fst)
    rw [List.take_add_one, hframe, List.map_append, List.map_singleton, hpts]
    rfl
  · rw [hpackets]
    intro pkt hpkt
    rcases List.mem_append.1 hpkt with hpkt | hpkt
    · exact hs.timed pkt hpkt
    · rw [List.mem_singleton.1 hpkt]
      exact htimed
  · rw [hlength, hpackets, List.map_append, hs.bytes]
    show _ = (s.outputs.take (s.packets.length + 1)).map fun sample =>
      MfSession.patchedBytes session.cfg.codec sample.bytes
    rw [List.take_add_one, hsample, List.map_append, hcfg, List.map_singleton, ← hbytes]
    rfl

theorem paired_collect {events : List MediaEvent} {a : OutputAnswers} (hs : s.Paired)
    (hphase : s.phase ≠ .unwound) (hevents : s.events = .haveOutput :: events)
    (ha : (s.session.collectOutputPacket a).Unfailing)
    (hout : ∀ sample ∈ s.outputs[s.haveOutputsDequeued]?, a.process_output = some (some sample)) :
    ((s.dequeue .haveOutput events).collect a).Paired := by
  obtain ⟨sample, -, hsample, -⟩ := hs.next hphase hevents
  have hanswer := hout sample (by rw [hs.collected hphase]; exact hsample)
  cases hr : s.session.collectOutputPacket a with
  | error fault =>
      cases fault with
      | err e => exact absurd hr (ha e)
      | panic =>
          have hstep : (s.dequeue .haveOutput events).collect a =
              { s.dequeue .haveOutput events with phase := .unwound } := by
            simp only [collect, dequeue, hr]
          rw [hstep]
          exact paired_unwound hs hevents
  | ok r =>
      obtain ⟨pkt, session⟩ := r
      obtain ⟨hnone, -, -⟩ | ⟨sample', p, hsome, rfl, hp⟩ :=
        MfSession.collectOutputPacket_eq_ok hr
      · rw [hanswer] at hnone
        cases hnone
      · rw [hanswer] at hsome
        cases hsome
        have hstep : (s.dequeue .haveOutput events).collect a =
            { s.dequeue .haveOutput events with
              session := { session with output_queue := session.output_queue ++ [p] } } := by
          simp only [collect, dequeue, hr]
        rw [hstep]
        exact paired_packet hs hphase hevents hsample hp

/-- A turn of an event loop that takes another event out. -/
theorem paired_dequeue {e : MediaEvent} {events : List MediaEvent} (hs : s.Paired)
    (hevents : s.events = e :: events) (he : e ≠ .haveOutput) : (s.dequeue e events).Paired := by
  have hsame : (s.dequeue e events).haveOutputsDequeued = s.haveOutputsDequeued := by
    simp only [dequeue, if_neg he, Nat.add_zero]
  refine { hs with offered := ?_, collected := ?_, bounded := ?_ }
  · have h := hs.offered
    rw [hevents, List.count_cons_of_ne he] at h
    rw [hsame]
    exact h
  · intro h
    rw [hsame]
    exact hs.collected h
  · rw [hsame]
    exact hs.bounded

theorem paired_granted (hs : s.Paired) : s.granted.Paired := by
  cases hphase : s.phase with
  | initialWait pts_ns force_idr =>
      have hrunning : s.phase ≠ .unwound := hphase.trans_ne nofun
      have hcalls := hs.inHand hrunning
      rw [hphase] at hcalls
      simp only [granted, hphase]
      exact { hs with collected := fun _ => hs.collected hrunning, inHand := fun _ => hcalls }
  | prefetchWait =>
      have hrunning : s.phase ≠ .unwound := hphase.trans_ne nofun
      have hcalls := hs.inHand hrunning
      rw [hphase] at hcalls
      simp only [granted, hphase]
      exact { hs with collected := fun _ => hs.collected hrunning, inHand := fun _ => hcalls }
  | _ =>
      simp only [granted, hphase]
      exact hs

theorem paired_waitForNeedInput {a : Answers} (hs : s.Paired) (hphase : s.phase ≠ .unwound)
    (ha : a.Succeed)
    (hout : ∀ sample ∈ s.outputs[s.haveOutputsDequeued]?, a.process_output = some (some sample)) :
    (s.waitForNeedInput a).Paired := by
  rw [waitForNeedInput, if_pos ha.get_event]
  cases hevents : s.events with
  | nil => exact hs
  | cons e events =>
      simp only [ha.get_type, if_true]
      cases e with
      | needInput => exact paired_granted (paired_dequeue hs hevents (by decide))
      | haveOutput =>
          exact paired_collect hs hphase hevents
            (MfSession.unfailing_collectOutputPacket ha.stream_info ha.alloc ha.process_output ha.read)
            hout
      | other => exact paired_dequeue hs hevents (by decide)

omit [BuildProfile] in
theorem packets_popPacket (s : Encoding) : s.popPacket.packets = s.packets := by
  rw [packets, packets, popPacket, List.append_assoc]
  cases s.session.output_queue with
  | nil => rfl
  | cons pkt pkts => rfl

theorem paired_popPacket (hs : s.Paired) (hphase : s.phase = .drain) : s.popPacket.Paired := by
  have hrunning : s.phase ≠ .unwound := hphase.trans_ne nofun
  have hsame := packets_popPacket s
  refine ⟨hs.offered, hs.promised, ?_, ?_, hs.ordered, ?_, ?_, ?_, ?_, ?_⟩
  · intro _
    rw [hsame]
    exact hs.collected hrunning
  · rw [hsame]
    exact hs.bounded
  · intro _
    have h := hs.inHand hrunning
    rw [hphase] at h
    exact h
  · rw [hsame]
    exact hs.metas
  · rw [hsame]
    exact hs.pts
  · rw [hsame]
    exact hs.timed
  · rw [hsame]
    exact hs.bytes

theorem paired_drainEventsNowait {a : Answers} (hs : s.Paired) (hphase : s.phase = .drain)
    (ha : a.Succeed)
    (hout : ∀ sample ∈ s.outputs[s.haveOutputsDequeued]?, a.process_output = some (some sample)) :
    (s.drainEventsNowait a).Paired := by
  have hrunning : s.phase ≠ .unwound := hphase.trans_ne nofun
  rw [drainEventsNowait, if_pos ha.get_event]
  cases hevents : s.events with
  | nil => exact paired_popPacket hs hphase
  | cons e events =>
      simp only [ha.get_type, if_true]
      cases e with
      | needInput => exact paired_dequeue hs hevents (by decide)
      | haveOutput =>
          exact paired_collect hs hrunning hevents
            (MfSession.unfailing_collectOutputPacket ha.stream_info ha.alloc ha.process_output ha.read)
            hout
      | other => exact paired_dequeue hs hevents (by decide)

theorem paired_feed {a : Answers} {pts_ns : Int64} {force_idr : Bool} (hs : s.Paired)
    (hphase : s.phase = .feed pts_ns force_idr) (ha : a.Succeed) :
    (s.feed pts_ns force_idr a).Paired := by
  have hrunning : s.phase ≠ .unwound := hphase.trans_ne nofun
  have hcalls := hs.inHand hrunning
  rw [hphase] at hcalls
  have hle := hs.packets_le_submitted
  simp only [feed, ha.make_sample, ha.process_input, if_true]
  refine
    { hs with
      promised := ?_
      collected := fun _ => hs.collected hrunning
      ordered := ?_
      inHand := fun _ => ?_
      metas := ?_
      pts := ?_ }
  · rw [List.length_append]
    exact Nat.le_add_right_of_le hs.promised
  · rw [List.map_append, hcalls]
    exact List.prefix_rfl
  · rw [List.map_append, hcalls]
    exact (List.append_nil _).symm
  · show s.session.pending_input_meta ++ _ = (s.submitted ++ _).drop s.packets.length
    rw [hs.metas, List.drop_append_of_le_length hle]
  · show s.packets.map EncodedPacket.pts_ns = ((s.submitted ++ _).take s.packets.length).map Prod.fst
    rw [hs.pts, List.take_append_of_le_length hle]

theorem paired_submitFrame (pts_ns : Int64) (force_idr : Bool) (hs : s.Paired) :
    (s.submitFrame pts_ns force_idr).Paired := by
  rw [submitFrame]
  split
  next hphase =>
    have hrunning : s.phase ≠ .unwound := hphase.trans_ne nofun
    have hcalls := hs.inHand hrunning
    rw [hphase] at hcalls
    have hordered : s.submitted.map Prod.fst <+: s.calls ++ [pts_ns] :=
      hs.ordered.trans (List.prefix_append ..)
    have hinHand : s.calls ++ [pts_ns] = s.submitted.map Prod.fst ++ [pts_ns] := by
      rw [hcalls]
      exact congrArg (· ++ _) (List.append_nil _)
    split
    · exact
        { hs with
          collected := fun _ => hs.collected hrunning
          ordered := hordered
          inHand := fun _ => hinHand }
    · exact
        { hs with
          collected := fun _ => hs.collected hrunning
          ordered := hordered
          inHand := fun _ => hinHand }
  next => exact hs

/-- An event that offers no output. -/
theorem Paired.posted {e : MediaEvent} (hs : s.Paired) (he : e ≠ .haveOutput) :
    (s.events ++ [e]).count .haveOutput + s.haveOutputsDequeued = s.outputs.length := by
  rw [List.count_append, List.count_singleton, beq_false_of_ne he]
  exact hs.offered

theorem paired_step (l : EncodeLabel) (hs : s.Paired) (hl : s.Promised l) : (s.step l).Paired := by
  cases l with
  | needInput => exact { hs with offered := hs.posted (by decide) }
  | haveOutput sample =>
      have hle := hs.packets_le_outputs
      refine { hs with offered := ?_, promised := ?_, bytes := ?_ }
      · show (s.events ++ [MediaEvent.haveOutput]).count MediaEvent.haveOutput + _ = (s.outputs ++ [sample]).length
        rw [List.count_append, List.length_append, ← hs.offered, Nat.add_right_comm]
        rfl
      · show (s.outputs ++ [sample]).length ≤ _
        rw [List.length_append]
        exact hl
      · show s.packets.map _ = ((s.outputs ++ [sample]).take s.packets.length).map _
        rw [List.take_append_of_le_length hle]
        exact hs.bytes
  | otherEvent => exact { hs with offered := hs.posted (by decide) }
  | submitFrame pts_ns force_idr => exact paired_submitFrame pts_ns force_idr hs
  | tryPacket =>
      show s.tryPacket.Paired
      rw [tryPacket]
      split
      next hphase =>
        have hrunning : s.phase ≠ .unwound := hphase.trans_ne nofun
        have hcalls := hs.inHand hrunning
        rw [hphase] at hcalls
        exact { hs with collected := fun _ => hs.collected hrunning, inHand := fun _ => hcalls }
      next => exact hs
  | turn a =>
      obtain ⟨ha, hout⟩ := hl
      show (s.turn a).Paired
      cases hphase : s.phase with
      | initialWait pts_ns force_idr =>
          simp only [turn, hphase]
          exact paired_waitForNeedInput hs (hphase.trans_ne nofun) ha hout
      | feed pts_ns force_idr =>
          simp only [turn, hphase]
          exact paired_feed hs hphase ha
      | prefetchWait =>
          simp only [turn, hphase]
          exact paired_waitForNeedInput hs (hphase.trans_ne nofun) ha hout
      | drain =>
          simp only [turn, hphase]
          exact paired_drainEventsNowait hs hphase ha hout
      | _ =>
          simp only [turn, hphase]
          exact hs

/-- What a caller may rely on: the `k`-th packet that `try_packet` returns has the `pts_ns` of the `k`-th
`submit_frame` call and an `encode_us`; the packets collected so far are those of the first outputs of the
transform, one for each in order, and the other outputs are still in the event queue; and the FIFO holds
the frames whose packets are not collected. -/
structure Pairing (s : Encoding) : Prop where
  pts : s.returned.map EncodedPacket.pts_ns <+: s.calls
  timed : ∀ pkt ∈ s.returned, pkt.encode_us.isSome
  bytes : s.packets.map (fun pkt => Except.ok pkt.bytes) =
    (s.outputs.take s.packets.length).map fun sample =>
      MfSession.patchedBytes s.session.cfg.codec sample.bytes
  kept : s.phase ≠ .unwound → s.packets.length + s.events.count .haveOutput = s.outputs.length
  metas : s.session.pending_input_meta = s.submitted.drop s.packets.length
  metas_length : s.session.pending_input_meta.length = s.submitted.length - s.packets.length

theorem Paired.pairing (hs : s.Paired) : s.Pairing := by
  have hreturned : s.returned <+: s.packets := List.prefix_append ..
  refine ⟨?_, ?_, hs.bytes, ?_, hs.metas, ?_⟩
  · have hpts : s.packets.map EncodedPacket.pts_ns <+: s.submitted.map Prod.fst := by
      rw [hs.pts]
      exact (List.take_prefix ..).map _
    exact ((hreturned.map _).trans hpts).trans hs.ordered
  · intro pkt hpkt
    exact hs.timed pkt (hreturned.mem hpkt)
  · intro hrunning
    have hoffered := hs.offered
    rw [hs.collected hrunning] at hoffered
    omega
  · rw [hs.metas, List.length_drop]

/-- **The packets carry the time stamps of their frames**, in every run in which the transform keeps its
promise. -/
theorem packets_paired {cfg : EncodeConfig} {is : List EncodeLabel}
    (h : Run.Steps step Promised (start cfg) is) : (is.foldl step (start cfg)).Pairing :=
  Paired.pairing (h.invariant (fun _ l hs hl => paired_step l hs hl) (paired_start cfg))

/-- The answers of a turn in which all goes well. -/
def goodAnswers (left : Option OutputSample) (now : ℕ) : Answers where
  stream_info := some (true, 0)
  alloc := true
  process_output := some left
  read := true
  finished_at := now
  get_event := true
  get_type := true
  make_sample := true
  process_input := true
  submitted_at := now

/-- A slice of a picture. -/
def sliceSample : OutputSample := ⟨[0, 0, 0, 1, 0x41, 0x9A], none⟩

/-- Two frames are submitted, the output of the first arrives before the second credit, that of the
second before `try_packet` drains the events. -/
def twoFrames : List EncodeLabel :=
  let a := goodAnswers (some sliceSample) 5000
  [.needInput, .submitFrame 100 true, .turn a, .turn a, .haveOutput sliceSample, .needInput, .turn a,
    .turn a, .submitFrame 200 false, .turn a, .otherEvent, .needInput, .turn a, .turn a,
    .haveOutput sliceSample, .tryPacket, .turn a, .turn a, .tryPacket, .turn a]

omit [BuildProfile] in
theorem packets_paired_two_frames :
    letI : BuildProfile := ⟨true⟩
    (twoFrames.foldl step (start ⟨.h264, 1920, 1080, 60⟩)).Pairing :=
  letI : BuildProfile := ⟨true⟩
  packets_paired (by decide +kernel)

end Encoding

end Penflow
