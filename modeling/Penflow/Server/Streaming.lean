import Penflow.Encoder.NeedInput
import Penflow.Server.Pipeline

/-!
# Frames from the capture to the wire

The encode thread, the transform behind it and the session that consumes the packets in one machine: the
answers that the pipeline gets from the encoder are those of the encoder session, and the key frames it is asked
for are those that come over the channel of the session.  Whatever the order of the steps, a `VIDEO_FRAME` has
the time stamp of its own tick and the bytes of its own picture, and the video on the wire goes forward in time
(`stream_in_time`).
-/

namespace Penflow

/-! ### What a turn of the encoder leaves -/

namespace Encoding

/-- The packet that `try_packet` returns at this turn. -/
def popped (s : Encoding) (a : Answers) : Option EncodedPacket :=
  if s.phase = .drain ∧ a.get_event = true ∧ s.events = [] then s.session.output_queue.head? else none

/-- The sample that `ProcessInput` gets at this turn. -/
def processed (s : Encoding) (a : Answers) : Option InputSample :=
  match s.phase with
  | .feed pts_ns force_idr => if a.make_sample then some (s.session.inputSample pts_ns force_idr) else none
  | _ => none

/-- Where a call is behind a turn. -/
inductive Goes : EncodePhase → EncodePhase → Prop
  | ends (p : EncodePhase) : Goes p .idle
  | unwinds (p : EncodePhase) : Goes p .unwound
  | goesOn (p : EncodePhase) (h : p.waiting = true ∨ p = .drain) : Goes p p
  | granted (pts_ns : Int64) (force_idr : Bool) : Goes (.initialWait pts_ns force_idr) (.feed pts_ns force_idr)
  | fed (pts_ns : Int64) (force_idr : Bool) : Goes (.feed pts_ns force_idr) .prefetchWait

/-- What a turn changes of the record of the calls. -/
structure TurnOf (s s' : Encoding) (popped : Option EncodedPacket) (processed : Option InputSample) : Prop where
  calls : s'.calls = s.calls
  outputs : s'.outputs = s.outputs
  cfg : s'.session.cfg = s.session.cfg
  returned : s'.returned = s.returned ++ popped.toList
  processInputs : s'.processInputs = s.processInputs ++ processed.toList
  phase : Goes s.phase s'.phase
  /-- a frame that is fed has been handed to `ProcessInput` -/
  fed : s'.phase = .prefetchWait → s.phase = .prefetchWait ∨ processed.isSome = true
  /-- only the wait for the next credit brings one -/
  credit : s'.session.have_need_input_credit = true →
    s.session.have_need_input_credit = true ∨ s.phase = .prefetchWait

variable {s : Encoding}

/-- A turn that records nothing. -/
theorem TurnOf.of_phase {s' : Encoding} (hphase : Goes s.phase s'.phase)
    (hfed : s'.phase = .prefetchWait → s.phase = .prefetchWait) (hcalls : s'.calls = s.calls)
    (houtputs : s'.outputs = s.outputs) (hcfg : s'.session.cfg = s.session.cfg)
    (hreturned : s'.returned = s.returned) (hinputs : s'.processInputs = s.processInputs)
    (hcredit : s'.session.have_need_input_credit = s.session.have_need_input_credit) :
    TurnOf s s' none none where
  calls := hcalls
  outputs := houtputs
  cfg := hcfg
  returned := hreturned.trans (List.append_nil _).symm
  processInputs := hinputs.trans (List.append_nil _).symm
  phase := hphase
  fed := fun h => .inl (hfed h)
  credit := fun h => .inl (hcredit.symm.trans h)

variable [BuildProfile]

theorem collect_turnOf (s : Encoding) (e : MediaEvent) (events : List MediaEvent) (a : OutputAnswers)
    (hphase : s.phase.waiting = true ∨ s.phase = .drain) :
    TurnOf s ((s.dequeue e events).collect a) none none := by
  cases hr : (s.dequeue e events).session.collectOutputPacket a with
  | error fault =>
      cases fault with
      | err e =>
          simp only [collect, hr]
          exact .of_phase (.ends _) (by intro hcontra; cases hcontra) rfl rfl rfl rfl rfl rfl
      | panic =>
          simp only [collect, hr]
          exact .of_phase (.unwinds _) (by intro hcontra; cases hcontra) rfl rfl rfl rfl rfl rfl
  | ok r =>
      obtain ⟨pkt, session⟩ := r
      obtain ⟨-, rfl, rfl⟩ | ⟨sample, p, -, rfl, hp⟩ := MfSession.collectOutputPacket_eq_ok hr
      · simp only [collect, hr]
        exact .of_phase (.goesOn _ hphase) id rfl rfl rfl rfl rfl rfl
      · obtain ⟨-, -, -, -, hcfg, hcredit⟩ := MfSession.packetOf_eq_ok hp
        simp only [collect, hr]
        exact .of_phase (.goesOn _ hphase) id rfl rfl hcfg rfl rfl hcredit

omit [BuildProfile] in
theorem granted_turnOf (s : Encoding) (e : MediaEvent) (events : List MediaEvent)
    (hphase : s.phase.waiting = true) : TurnOf s (s.dequeue e events).granted none none := by
  cases hp : s.phase with
  | initialWait pts_ns force_idr =>
      have hgoes : Goes s.phase (.feed pts_ns force_idr) := hp ▸ .granted pts_ns force_idr
      simp only [granted, dequeue, hp]
      exact .of_phase hgoes (by intro hcontra; cases hcontra) rfl rfl rfl rfl rfl rfl
  | prefetchWait =>
      simp only [granted, dequeue, hp]
      exact ⟨rfl, rfl, rfl, (List.append_nil _).symm, (List.append_nil _).symm, .ends _,
        (by intro hcontra; cases hcontra), fun _ => .inr hp⟩
  | _ =>
      rw [hp] at hphase
      cases hphase

theorem waitForNeedInput_turnOf (s : Encoding) (a : Answers) (hphase : s.phase.waiting = true) :
    TurnOf s (s.waitForNeedInput a) none none := by
  rw [waitForNeedInput]
  split
  · split
    · exact .of_phase (.goesOn _ (.inl hphase)) id rfl rfl rfl rfl rfl rfl
    · dsimp only
      split
      · split
        · exact granted_turnOf s _ _ hphase
        · exact collect_turnOf s _ _ _ (.inl hphase)
        · exact .of_phase (.goesOn _ (.inl hphase)) id rfl rfl rfl rfl rfl rfl
      · exact .of_phase (.ends _) (by intro hcontra; cases hcontra) rfl rfl rfl rfl rfl rfl
  · exact .of_phase (.ends _) (by intro hcontra; cases hcontra) rfl rfl rfl rfl rfl rfl

theorem drainEventsNowait_turnOf (s : Encoding) (a : Answers) (hphase : s.phase = .drain) :
    TurnOf s (s.drainEventsNowait a) (s.popped a) none := by
  rw [drainEventsNowait]
  split
  case isTrue hget =>
    split
    case h_1 hevents =>
      have hpopped : s.popped a = s.session.output_queue.head? := if_pos ⟨hphase, hget, hevents⟩
      rw [hpopped]
      exact ⟨rfl, rfl, rfl, rfl, (List.append_nil _).symm, .ends _, (by intro hcontra; cases hcontra), .inl⟩
    case h_2 e events hevents =>
      have hpopped : s.popped a = none := by
        refine if_neg fun h => ?_
        rw [hevents] at h
        exact List.cons_ne_nil _ _ h.2.2
      rw [hpopped]
      dsimp only
      split
      · split
        · exact collect_turnOf s _ _ _ (.inr hphase)
        · exact .of_phase (.goesOn _ (.inr hphase)) id rfl rfl rfl rfl rfl rfl
      · exact .of_phase (.ends _) (by intro hcontra; cases hcontra) rfl rfl rfl rfl rfl rfl
  case isFalse hget =>
    have hpopped : s.popped a = none := if_neg fun h => hget h.2.1
    rw [hpopped]
    exact .of_phase (.ends _) (by intro hcontra; cases hcontra) rfl rfl rfl rfl rfl rfl

/-- **A turn of a running call.** -/
theorem turn_turnOf (s : Encoding) (a : Answers) (hidle : s.phase ≠ .idle) (hrunning : s.phase ≠ .unwound) :
    TurnOf s (s.turn a) (s.popped a) (s.processed a) := by
  have hpopped : s.phase ≠ .drain → s.popped a = none := fun h => if_neg fun hpop => h hpop.1
  cases hphase : s.phase with
  | idle => exact absurd hphase hidle
  | unwound => exact absurd hphase hrunning
  | initialWait pts_ns force_idr =>
      rw [hpopped (by rw [hphase]; intro hcontra; cases hcontra)]
      simp only [turn, processed, hphase]
      exact waitForNeedInput_turnOf s a (by rw [hphase]; rfl)
  | prefetchWait =>
      rw [hpopped (by rw [hphase]; intro hcontra; cases hcontra)]
      simp only [turn, processed, hphase]
      exact waitForNeedInput_turnOf s a (by rw [hphase]; rfl)
  | drain =>
      simp only [turn, processed, hphase]
      exact drainEventsNowait_turnOf s a hphase
  | feed pts_ns force_idr =>
      have hfed : Goes s.phase .prefetchWait := hphase ▸ .fed pts_ns force_idr
      rw [hpopped (by rw [hphase]; intro hcontra; cases hcontra)]
      simp only [turn, processed, hphase, feed]
      cases a.make_sample with
      | false => exact .of_phase (.ends _) (by intro hcontra; cases hcontra) rfl rfl rfl rfl rfl rfl
      | true =>
          cases a.process_input with
          | false =>
              exact ⟨rfl, rfl, rfl, (List.append_nil _).symm, rfl, .ends _, (by intro hcontra; cases hcontra), .inl⟩
          | true => exact ⟨rfl, rfl, rfl, (List.append_nil _).symm, rfl, hfed, fun _ => .inr rfl, .inl⟩

end Encoding

/-! ### The machine -/

/-- What the pipeline, the encoder and the requests for key frames read of the configuration; the durations are
in nanoseconds. -/
structure StreamConfig where
  session : SessionConfig
  encode : EncodeConfig
  idr_interval : Option ℕ
  motion_idr_threshold_bytes : Option ℕ
  motion_idr_min_interval : ℕ

def StreamConfig.fullHd (idr_interval motion_idr_threshold_bytes : Option ℕ) : StreamConfig where
  session := .fullHd false 1
  encode := ⟨.h264, 1920, 1080, 60⟩
  idr_interval := idr_interval
  motion_idr_threshold_bytes := motion_idr_threshold_bytes
  motion_idr_min_interval := 250000000

/-- `idr_channel` counts what waits in the channel of the session, and `idr_sent` what was ever sent;
`acquired_at` are the instants behind `acquire_frame`. -/
structure Streaming where
  pipeline : Pipeline EngineError
  encoding : Encoding
  idr_channel : ℕ
  /-- none stands for the instant that lies the least interval before the start of `frame_pump` -/
  last_motion_idr : Option ℕ
  idr_sent : ℕ
  acquired_at : List ℕ

/-- What the transform does by itself. -/
inductive Offer where
  | needInput
  | haveOutput (sample : OutputSample)
  | other
  deriving DecidableEq, Repr

def Offer.label : Offer → EncodeLabel
  | .needInput => .needInput
  | .haveOutput sample => .haveOutput sample
  | .other => .otherEvent

inductive StreamEvent where
  | testStop
  | acquire (result : Except EngineError (Option (Option PointerPosition))) (now : ℕ)
  | convert (result : Except EngineError Unit)
  | transform (offer : Offer)
  /-- the encode thread goes on in a call of the encoder, or begins one -/
  | encode (a : Answers)
  | storeStop
  /-- a step of the session; `elapsed_at` and `now` are the two instants that `frame_pump` reads -/
  | session (e : Event) (elapsed_at now : ℕ)
  /-- the task of the periodic requests wakes up -/
  | periodicIdr
  /-- the `select!` of the session takes a request out of its channel -/
  | relayIdr

namespace Streaming

variable (c : StreamConfig)

def start (pts_epoch : ℕ) : Streaming where
  pipeline := Pipeline.start c.session pts_epoch
  encoding := .start c.encode
  idr_channel := 0
  last_motion_idr := none
  idr_sent := 0
  acquired_at := []

def acquire (g : Streaming) (result : Except EngineError (Option (Option PointerPosition))) (now : ℕ) :
    Streaming :=
  match g.pipeline.point with
  | .acquiring _ =>
    { g with
      pipeline := g.pipeline.step c.session (.acquire result now)
      acquired_at := g.acquired_at ++ [now] }
  | _ => g

/-- What `submit_frame` returns, with the encoder behind its turn.  It has succeeded where the next credit is
there; a panic ends the thread, which `Pipeline::stop` reports as `NotInitialized`. -/
def submitReturns (encoding : Encoding) : Option (Except EngineError Unit) :=
  match encoding.phase with
  | .idle => some (if encoding.session.have_need_input_credit then .ok () else .error .win32)
  | .unwound => some (.error .notInitialized)
  | _ => none

/-- What `try_packet` returns, with the encoder before and behind its turn: a packet of its queue, once there are
no more events. -/
def tryPacketReturns (before : Encoding) (a : Answers) (encoding : Encoding) :
    Option (Except EngineError (Option EncodedPacket)) :=
  match encoding.phase with
  | .idle =>
    some (if a.get_event = true ∧ before.events = [] then .ok before.session.output_queue.head?
      else .error .win32)
  | .unwound => some (.error .notInitialized)
  | _ => none

variable [BuildProfile]

/-- The encode thread in the calls of the encoder. -/
def encode (g : Streaming) (a : Answers) : Streaming :=
  match g.pipeline.point with
  | .submitting force_idr pts_ns =>
    if g.encoding.phase = .idle then { g with encoding := g.encoding.submitFrame pts_ns force_idr }
    else
      let encoding := g.encoding.turn a
      match submitReturns encoding with
      | none => { g with encoding := encoding }
      | some result =>
        { g with encoding := encoding, pipeline := g.pipeline.step c.session (.submit result) }
  | .polling =>
    if g.encoding.phase = .idle then { g with encoding := g.encoding.tryPacket }
    else
      let encoding := g.encoding.turn a
      match tryPacketReturns g.encoding a encoding with
      | none => { g with encoding := encoding }
      | some result =>
        { g with encoding := encoding, pipeline := g.pipeline.step c.session (.tryPacket result) }
  | _ => g

/-- `read_loop` sends for a message of the client. -/
def readLoopSends (s : Session) : Event → Bool
  | .receive msg_id _ _ _ => s.read_loop == .reading && msg_id == msgRequestIdr
  | _ => false

/-- `frame_pump` has flushed a delta frame of at least the threshold. -/
def flushedLarge (s : Session) (e : Event) : Bool :=
  match e, s.writer, s.frame_pump, c.motion_idr_threshold_bytes with
  | .flush true, some (.framePump, .flush), .sending pkt, some threshold =>
    !pkt.is_keyframe && decide (threshold ≤ pkt.bytes.length)
  | _, _, _, _ => false

/-- `frame_pump` sends behind a large delta frame, unless it has sent of late. -/
def motionSends (g : Streaming) (e : Event) (elapsed_at : ℕ) : Bool :=
  flushedLarge c g.pipeline.session e &&
    g.last_motion_idr.all fun last => decide (c.motion_idr_min_interval ≤ elapsed_at - last)

def send (g : Streaming) (n : ℕ) : Streaming :=
  { g with idr_channel := g.idr_channel + n, idr_sent := g.idr_sent + n }

def sessionStep (g : Streaming) (e : Event) (elapsed_at now : ℕ) : Streaming :=
  let motion := motionSends c g e elapsed_at
  { (g.send ((readLoopSends g.pipeline.session e).toNat + motion.toNat)) with
    pipeline := g.pipeline.step c.session (.session e)
    last_motion_idr := if motion then some now else g.last_motion_idr }

/-- The task lives from the spawn to the abort behind the `select!` loop. -/
def periodicIdr (g : Streaming) : Streaming :=
  if c.session.screen_off = false ∧ (∃ period ∈ c.idr_interval, 0 < period) ∧
      (g.pipeline.session.run = .serving ∨ g.pipeline.session.run = .notifying) then g.send 1
  else g

def relayIdr (g : Streaming) : Streaming :=
  if c.session.screen_off = false ∧ g.pipeline.session.run = .serving ∧ 0 < g.idr_channel then
    { g with idr_channel := g.idr_channel - 1, pipeline := g.pipeline.step c.session .requestIdr }
  else g

def step (g : Streaming) : StreamEvent → Streaming
  | .testStop => { g with pipeline := g.pipeline.step c.session .testStop }
  | .acquire result now => acquire c g result now
  | .convert result => { g with pipeline := g.pipeline.step c.session (.convert result) }
  | .transform offer => { g with encoding := g.encoding.step offer.label }
  | .encode a => encode c g a
  | .storeStop => { g with pipeline := g.pipeline.step c.session .storeStop }
  | .session e elapsed_at now => sessionStep c g e elapsed_at now
  | .periodicIdr => periodicIdr c g
  | .relayIdr => relayIdr c g

/-- The machine behind the events `es`. -/
def after (pts_epoch : ℕ) (es : List StreamEvent) : Streaming := es.foldl (step c) (start c pts_epoch)

/-! ### The pipeline in it -/

/-- A step is steps of the pipeline. -/
theorem step_pipeline (g : Streaming) (e : StreamEvent) :
    ∃ es : List (PipelineEvent EngineError),
      (step c g e).pipeline = es.foldl (Pipeline.step c.session) g.pipeline := by
  cases e with
  | testStop => exact ⟨[.testStop], rfl⟩
  | acquire result now =>
      rw [step, acquire]
      split
      · exact ⟨[.acquire result now], rfl⟩
      · exact ⟨[], rfl⟩
  | convert result => exact ⟨[.convert result], rfl⟩
  | transform offer => exact ⟨[], rfl⟩
  | encode a =>
      rw [step, encode]
      split
      · split
        · exact ⟨[], rfl⟩
        · dsimp only
          split
          · exact ⟨[], rfl⟩
          · exact ⟨[.submit _], rfl⟩
      · split
        · exact ⟨[], rfl⟩
        · dsimp only
          split
          · exact ⟨[], rfl⟩
          · exact ⟨[.tryPacket _], rfl⟩
      · exact ⟨[], rfl⟩
  | storeStop => exact ⟨[.storeStop], rfl⟩
  | session e elapsed_at now => exact ⟨[.session e], rfl⟩
  | periodicIdr =>
      rw [step, periodicIdr]
      split
      · exact ⟨[], rfl⟩
      · exact ⟨[], rfl⟩
  | relayIdr =>
      rw [step, relayIdr]
      split
      · exact ⟨[.requestIdr], rfl⟩
      · exact ⟨[], rfl⟩

/-- **The pipeline is a pipeline, and its session a session.** -/
theorem after_session (pts_epoch : ℕ) (es : List StreamEvent) :
    ∃ events, (after c pts_epoch es).pipeline.session = Session.after c.session events := by
  have hpipeline : ∃ pes, (after c pts_epoch es).pipeline = Pipeline.after c.session pts_epoch pes := by
    induction es using List.reverseRecOn with
    | nil => exact ⟨[], rfl⟩
    | append_singleton es e ih =>
        obtain ⟨pes, hpes⟩ := ih
        obtain ⟨pes', hstep⟩ := step_pipeline c (after c pts_epoch es) e
        refine ⟨pes ++ pes', ?_⟩
        rw [Pipeline.after, List.foldl_append, ← Pipeline.after, ← hpes, ← hstep, after, after, List.foldl_concat]
  obtain ⟨pes, hpes⟩ := hpipeline
  rw [hpes]
  exact Pipeline.after_session c.session pts_epoch pes

/-! ### Where the thread is -/

/-- Where the encoder is, for a thread at this point. -/
def Fits : LoopPoint EngineError → EncodePhase → Prop
  | .returned _, _ => True
  | _, .idle => True
  | .submitting force_idr pts_ns, .initialWait pts_ns' force_idr' => pts_ns' = pts_ns ∧ force_idr' = force_idr
  | .submitting force_idr pts_ns, .feed pts_ns' force_idr' => pts_ns' = pts_ns ∧ force_idr' = force_idr
  | .submitting _ _, .prefetchWait => True
  | .polling, .drain => True
  | _, _ => False

/-- The stamp of a frame. -/
def stamp (pts_epoch now : ℕ) : Int64 := Int64.ofNat (now - pts_epoch)

/-- The stamp of a tick that has not called `submit_frame`. -/
def unsubmitted (pts_epoch : ℕ) : LoopPoint EngineError → EncodePhase → List Int64
  | .converting _ now, _ => [stamp pts_epoch now]
  | .submitting _ pts_ns, .idle => [pts_ns]
  | _, _ => []

/-- What the packets that were returned have of their frames. -/
structure Kept (codec : Codec) (s : Encoding) : Prop where
  offered : s.returned.length ≤ s.outputs.length
  pts : s.returned.map EncodedPacket.pts_ns <+: s.calls
  bytes : s.returned.map (fun pkt => Except.ok pkt.bytes) =
    (s.outputs.take s.returned.length).map fun sample => MfSession.patchedBytes codec sample.bytes

/-- While the thread runs, the packets are paired with the frames; and what it has pushed it has got from the
encoder, in this order. -/
structure Inv (pts_epoch : ℕ) (g : Streaming) : Prop where
  fits : Fits g.pipeline.point g.encoding.phase
  start_instant : g.pipeline.start_instant = pts_epoch
  cfg : g.encoding.session.cfg = c.encode
  paired : g.pipeline.point.isReturned = false → g.encoding.Paired
  kept : Kept c.encode.codec g.encoding
  accounted : g.pipeline.session.accounted.Sublist g.encoding.returned
  stamped : (g.encoding.calls ++ unsubmitted pts_epoch g.pipeline.point g.encoding.phase).Sublist
    (g.acquired_at.map (stamp pts_epoch))

/-- The transform keeps its promise, in the calls that do not fail; one that fails ends the thread. -/
def Promised (g : Streaming) : StreamEvent → Prop
  | .transform offer => g.encoding.Promised offer.label
  | .encode a => g.encoding.phase = .idle ∨ g.encoding.Promised (.turn a) ∨
      (step c g (.encode a)).pipeline.point.isReturned = true
  | _ => True

instance Promised.decidable (g : Streaming) : ∀ e, Decidable (Promised c g e)
  | .testStop => .isTrue trivial
  | .acquire _ _ => .isTrue trivial
  | .convert _ => .isTrue trivial
  | .transform offer => inferInstanceAs (Decidable (g.encoding.Promised offer.label))
  | .encode _ => inferInstanceAs (Decidable (_ ∨ _ ∨ _))
  | .storeStop => .isTrue trivial
  | .session _ _ _ => .isTrue trivial
  | .periodicIdr => .isTrue trivial
  | .relayIdr => .isTrue trivial

variable {c : StreamConfig} {pts_epoch : ℕ} {g : Streaming}

theorem Kept.of_paired {s : Encoding} {codec : Codec} (h : s.Paired) (hcodec : s.session.cfg.codec = codec) :
    Kept codec s := by
  have hpairing := h.pairing
  have hprefix : s.returned <+: s.packets := List.prefix_append ..
  have hlength := hprefix.length_le
  refine ⟨hlength.trans h.packets_le_outputs, hpairing.pts, ?_⟩
  have hreturned := List.prefix_iff_eq_take.1 hprefix
  have hbytes := congrArg (List.take s.returned.length) hpairing.bytes
  rw [← List.map_take, ← List.map_take, ← hreturned, List.take_take, Nat.min_eq_left hlength, hcodec] at hbytes
  exact hbytes

theorem start_inv : (start c pts_epoch).Inv c pts_epoch where
  fits := by
    show Fits (if c.session.screen_off then .unspawned else .head) .idle
    split <;> trivial
  start_instant := rfl
  cfg := rfl
  paired := fun _ => Encoding.paired_start c.encode
  kept := Kept.of_paired (Encoding.paired_start c.encode) rfl
  accounted := List.nil_sublist _
  stamped := by
    show List.Sublist ([] ++ unsubmitted pts_epoch (if c.session.screen_off then .unspawned else .head) .idle) []
    split <;> exact List.Sublist.slnil

/-- A step of the thread outside the encoder, and of nothing else. -/
theorem Inv.outside {p : Pipeline EngineError} {acquired_at : List ℕ} (h : g.Inv c pts_epoch)
    (hfits : Fits p.point g.encoding.phase) (hstart : p.start_instant = g.pipeline.start_instant)
    (hrunning : p.point.isReturned = false → g.pipeline.point.isReturned = false)
    (hsession : p.session.accounted = g.pipeline.session.accounted)
    (hstamped : (g.encoding.calls ++ unsubmitted pts_epoch p.point g.encoding.phase).Sublist
      (acquired_at.map (stamp pts_epoch))) :
    Inv c pts_epoch { g with pipeline := p, acquired_at := acquired_at } where
  fits := hfits
  start_instant := hstart.trans h.start_instant
  cfg := h.cfg
  paired := fun hpoint => h.paired (hrunning hpoint)
  kept := h.kept
  accounted := by
    show p.session.accounted.Sublist _
    rw [hsession]
    exact h.accounted
  stamped := hstamped

/-- The thread is in a call of the encoder, or has ended. -/
def inEncoder : LoopPoint EngineError → Bool
  | .submitting _ _ => true
  | .polling => true
  | .returned _ => true
  | _ => false

omit [BuildProfile] in
/-- Outside its calls the encoder is idle. -/
theorem Fits.idle {point : LoopPoint EngineError} {phase : EncodePhase} (h : Fits point phase)
    (hout : inEncoder point = false) : phase = .idle := by
  cases point with
  | returned result => cases hout
  | submitting force_idr pts_ns => cases hout
  | polling => cases hout
  | _ =>
      cases phase with
      | idle => rfl
      | _ => exact h.elim

theorem testStop_inv (h : g.Inv c pts_epoch) :
    Inv c pts_epoch { g with pipeline := g.pipeline.step c.session .testStop } := by
  have hstamped := h.stamped
  rw [Pipeline.step, Pipeline.testStop]
  split
  case h_1 hpoint =>
    have hidle := h.fits.idle (by rw [hpoint]; rfl)
    rw [hpoint] at hstamped
    split
    · exact h.outside trivial rfl (by intro hcontra; cases hcontra) rfl hstamped
    · refine h.outside ?_ rfl (fun _ => by rw [hpoint]; rfl) rfl hstamped
      rw [hidle]
      trivial
  case h_2 => exact h

theorem acquire_inv (h : g.Inv c pts_epoch) (result : Except EngineError (Option (Option PointerPosition)))
    (now : ℕ) : Inv c pts_epoch (acquire c g result now) := by
  have hstamped := h.stamped
  rw [acquire]
  split
  case h_1 force_idr hpoint =>
    have hidle := h.fits.idle (by rw [hpoint]; rfl)
    rw [hpoint] at hstamped
    have hnext : (g.encoding.calls ++ [stamp pts_epoch now]).Sublist
        ((g.acquired_at ++ [now]).map (stamp pts_epoch)) := by
      rw [List.map_append]
      exact (((List.sublist_append_left g.encoding.calls _).trans hstamped)).append (List.Sublist.refl _)
    simp only [Pipeline.step, Pipeline.acquire, hpoint]
    rcases result with e | _ | pointer_position
    · refine h.outside trivial rfl (by intro hcontra; cases hcontra) rfl ?_
      rw [List.map_append]
      exact hstamped.trans (List.sublist_append_left _ _)
    · refine h.outside ?_ rfl (fun _ => by rw [hpoint]; rfl) rfl hnext
      rw [hidle]
      trivial
    · refine h.outside ?_ rfl (fun _ => by rw [hpoint]; rfl) rfl hnext
      rw [hidle]
      trivial
  case h_2 => exact h

theorem convert_inv (h : g.Inv c pts_epoch) (result : Except EngineError Unit) :
    Inv c pts_epoch { g with pipeline := g.pipeline.step c.session (.convert result) } := by
  have hstamped := h.stamped
  rw [Pipeline.step, Pipeline.convert]
  split
  case h_1 force_idr now hpoint =>
    have hidle := h.fits.idle (by rw [hpoint]; rfl)
    rw [hpoint] at hstamped
    cases result with
    | error e =>
        refine h.outside trivial rfl (by intro hcontra; cases hcontra) rfl ?_
        show (g.encoding.calls ++ []).Sublist _
        rw [List.append_nil]
        exact (List.sublist_append_left _ _).trans hstamped
    | ok _ =>
        refine h.outside ?_ rfl (fun _ => by rw [hpoint]; rfl) rfl ?_
        · rw [hidle]
          trivial
        · rw [hidle, h.start_instant]
          exact hstamped
  case h_2 => exact h

/-- The encoder alone goes on. -/
theorem Inv.encoder {s : Encoding} {popped : Option EncodedPacket} {processed : Option InputSample}
    {p : Pipeline EngineError} (h : g.Inv c pts_epoch) (hturn : Encoding.TurnOf g.encoding s popped processed)
    (hfits : Fits p.point s.phase) (hstart : p.start_instant = g.pipeline.start_instant)
    (hpaired : p.point.isReturned = false → s.Paired)
    (hpopped : p.point.isReturned = true → popped = none)
    (haccounted : p.session.accounted.Sublist s.returned) (hafter : unsubmitted pts_epoch p.point s.phase = []) :
    Inv c pts_epoch { g with encoding := s, pipeline := p } where
  fits := hfits
  start_instant := hstart.trans h.start_instant
  cfg := hturn.cfg.trans h.cfg
  paired := hpaired
  kept := by
    cases hreturned : p.point.isReturned with
    | false => exact Kept.of_paired (hpaired hreturned) (congrArg EncodeConfig.codec (hturn.cfg.trans h.cfg))
    | true =>
        have hsame : s.returned = g.encoding.returned := by
          rw [hturn.returned, hpopped hreturned]
          exact List.append_nil _
        refine ⟨?_, ?_, ?_⟩
        · rw [hsame, hturn.outputs]
          exact h.kept.offered
        · rw [hsame, hturn.calls]
          exact h.kept.pts
        · rw [hsame, hturn.outputs]
          exact h.kept.bytes
  accounted := haccounted
  stamped := by
    show (s.calls ++ unsubmitted pts_epoch p.point s.phase).Sublist _
    rw [hafter, List.append_nil, hturn.calls]
    exact (List.sublist_append_left _ _).trans h.stamped

/-- A packet is popped by the turn that ends the call. -/
theorem popped_idle {s : Encoding} {a : Answers} {pkt : EncodedPacket} (h : s.popped a = some pkt) :
    (s.turn a).phase = .idle ∧ s.session.output_queue.head? = some pkt ∧ a.get_event = true ∧ s.events = [] := by
  rw [Encoding.popped, Option.ite_none_right_eq_some] at h
  obtain ⟨⟨hphase, hget, hevents⟩, hhead⟩ := h
  refine ⟨?_, hhead, hget, hevents⟩
  simp only [Encoding.turn, hphase, Encoding.drainEventsNowait, if_pos hget, hevents]
  rfl

/-- **The calls of `submit_frame`.**  The thread begins the call, goes on in it, returns from it with the encoder
idle, or ends. -/
theorem encode_submitting {force_idr : Bool} {pts_ns : Int64} (a : Answers)
    (hpoint : g.pipeline.point = .submitting force_idr pts_ns)
    (hfits : Fits (.submitting force_idr pts_ns) g.encoding.phase) :
    g.encoding.phase = .idle ∧ encode c g a = { g with encoding := g.encoding.submitFrame pts_ns force_idr } ∨
      g.encoding.phase ≠ .idle ∧
      Encoding.TurnOf g.encoding (g.encoding.turn a) none (g.encoding.processed a) ∧
      ((encode c g a = { g with encoding := g.encoding.turn a } ∧ (g.encoding.turn a).phase ≠ .idle ∧
          Fits (.submitting force_idr pts_ns) (g.encoding.turn a).phase) ∨
        (∃ submitted, encode c g a =
            { g with
              encoding := g.encoding.turn a
              pipeline := { g.pipeline with point := .polling, submitted := submitted } } ∧
          (g.encoding.turn a).phase = .idle ∧ (g.encoding.turn a).session.have_need_input_credit = true) ∨
        ∃ e, encode c g a =
          { g with
            encoding := g.encoding.turn a
            pipeline := { g.pipeline with point := .returned (.error e) } }) := by
  simp only [encode, hpoint]
  by_cases hidle : g.encoding.phase = .idle
  · exact .inl ⟨hidle, if_pos hidle⟩
  · rw [if_neg hidle]
    have hunwound : g.encoding.phase ≠ .unwound := by
      intro hphase
      rw [hphase] at hfits
      exact hfits
    have hnodrain : g.encoding.phase ≠ .drain := by
      intro hphase
      rw [hphase] at hfits
      exact hfits
    have hpopped : g.encoding.popped a = none := if_neg fun hpop => hnodrain hpop.1
    have hturn := Encoding.turn_turnOf g.encoding a hidle hunwound
    rw [hpopped] at hturn
    refine .inr ⟨hidle, hturn, ?_⟩
    have hgoes := hturn.phase
    cases hreturns : submitReturns (g.encoding.turn a) with
    | none =>
        refine .inl ⟨rfl, ?_⟩
        revert hfits
        generalize g.encoding.phase = before at hgoes hidle
        generalize hafter : (g.encoding.turn a).phase = behind at hgoes
        rw [submitReturns, hafter] at hreturns
        intro hfits
        cases hgoes with
        | ends => cases hreturns
        | unwinds => cases hreturns
        | goesOn _ hsame => exact ⟨hidle, hfits⟩
        | granted pts_ns force_idr => exact ⟨(by intro hcontra; cases hcontra), hfits⟩
        | fed pts_ns force_idr => exact ⟨(by intro hcontra; cases hcontra), trivial⟩
    | some result =>
        simp only [Pipeline.step, Pipeline.submit, hpoint]
        cases result with
        | error e => exact .inr (.inr ⟨e, rfl⟩)
        | ok _ =>
            refine .inr (.inl ⟨_, rfl, ?_⟩)
            rw [submitReturns] at hreturns
            split at hreturns
            case h_1 hended =>
              have hresult := Option.some.inj hreturns
              split at hresult
              case isTrue hcredit => exact ⟨hended, hcredit⟩
              case isFalse => cases hresult
            case h_2 => cases hreturns
            case h_3 => cases hreturns

/-- **The calls of `try_packet`.**  The thread begins the call, goes on in it, gets a packet and pushes it, goes
back to the head of its loop, or ends. -/
theorem encode_polling (a : Answers) (hpoint : g.pipeline.point = .polling)
    (hfits : Fits .polling g.encoding.phase) :
    g.encoding.phase = .idle ∧ encode c g a = { g with encoding := { g.encoding with phase := .drain } } ∨
      g.encoding.phase = .drain ∧
      ((encode c g a = { g with encoding := g.encoding.turn a } ∧ (g.encoding.turn a).phase = .drain ∧
          Encoding.TurnOf g.encoding (g.encoding.turn a) none none) ∨
        (∃ pkt, encode c g a =
            { g with
              encoding := g.encoding.turn a
              pipeline := { g.pipeline with session := g.pipeline.session.step c.session (.push pkt) } } ∧
          (g.encoding.turn a).phase = .idle ∧
            Encoding.TurnOf g.encoding (g.encoding.turn a) (some pkt) none) ∨
        (encode c g a =
            { g with encoding := g.encoding.turn a, pipeline := { g.pipeline with point := .head } } ∧
          (g.encoding.turn a).phase = .idle ∧ Encoding.TurnOf g.encoding (g.encoding.turn a) none none) ∨
        ∃ e, encode c g a =
            { g with
              encoding := g.encoding.turn a
              pipeline := { g.pipeline with point := .returned (.error e) } } ∧
          Encoding.TurnOf g.encoding (g.encoding.turn a) none none) := by
  simp only [encode, hpoint]
  by_cases hidle : g.encoding.phase = .idle
  · refine .inl ⟨hidle, ?_⟩
    rw [if_pos hidle]
    simp only [Encoding.tryPacket, hidle]
  · rw [if_neg hidle]
    have hdrain : g.encoding.phase = .drain := by
      cases hphase : g.encoding.phase with
      | idle => exact absurd hphase hidle
      | drain => rfl
      | _ =>
          rw [hphase] at hfits
          exact hfits.elim
    have hturn := Encoding.turn_turnOf g.encoding a hidle (by rw [hdrain]; intro hcontra; cases hcontra)
    have hprocessed : g.encoding.processed a = none := by simp only [Encoding.processed, hdrain]
    rw [hprocessed] at hturn
    -- a packet is popped by the turn that returns it
    have hpopped : g.encoding.popped a =
        if a.get_event = true ∧ g.encoding.events = [] then g.encoding.session.output_queue.head? else none := by
      rw [Encoding.popped, hdrain]
      simp only [true_and]
    refine .inr ⟨hdrain, ?_⟩
    cases hreturns : tryPacketReturns g.encoding a (g.encoding.turn a) with
    | none =>
        have hgoes := hturn.phase
        have hphase : (g.encoding.turn a).phase = .drain := by
          rw [hdrain] at hgoes
          generalize hafter : (g.encoding.turn a).phase = behind at hgoes
          rw [tryPacketReturns, hafter] at hreturns
          cases hgoes with
          | ends => cases hreturns
          | unwinds => cases hreturns
          | goesOn => rfl
        have hnone : g.encoding.popped a = none := by
          cases hpop : g.encoding.popped a with
          | none => rfl
          | some pkt =>
              rw [(popped_idle hpop).1] at hphase
              cases hphase
        rw [hnone] at hturn
        exact .inl ⟨rfl, hphase, hturn⟩
    | some result =>
        simp only [Pipeline.step, Pipeline.tryPacket, hpoint]
        have hphase : ∀ popped, result = .ok popped → (g.encoding.turn a).phase = .idle ∧
            popped = g.encoding.popped a := by
          rintro popped rfl
          rw [tryPacketReturns] at hreturns
          split at hreturns
          case h_1 hphase =>
            have hresult := Option.some.inj hreturns
            refine ⟨hphase, ?_⟩
            rw [hpopped]
            split at hresult
            case isTrue hends =>
              rw [if_pos hends]
              exact (Except.ok.inj hresult).symm
            case isFalse => cases hresult
          case h_2 => cases hreturns
          case h_3 => cases hreturns
        rcases result with e | _ | pkt
        · have hnone : g.encoding.popped a = none := by
            cases hpop : g.encoding.popped a with
            | none => rfl
            | some pkt =>
                obtain ⟨hended, -, hget, hevents⟩ := popped_idle hpop
                rw [tryPacketReturns, hended, if_pos ⟨hget, hevents⟩] at hreturns
                cases hreturns
          rw [hnone] at hturn
          exact .inr (.inr (.inr ⟨e, rfl, hturn⟩))
        · obtain ⟨hended, hpop⟩ := hphase none rfl
          rw [← hpop] at hturn
          exact .inr (.inr (.inl ⟨rfl, hended, hturn⟩))
        · obtain ⟨hended, hpop⟩ := hphase (some pkt) rfl
          rw [← hpop] at hturn
          exact .inr (.inl ⟨pkt, rfl, hended, hturn⟩)

/-- The packets stay paired over a turn that does not end the thread. -/
theorem Inv.paired_turn (h : g.Inv c pts_epoch) {a : Answers} (hrunning : g.pipeline.point.isReturned = false)
    (hpromised : Promised c g (.encode a)) (hidle : g.encoding.phase ≠ .idle)
    (hgoes : (encode c g a).pipeline.point.isReturned = false) : (g.encoding.turn a).Paired := by
  rcases hpromised with hcontra | hpromised | hreturned
  · exact absurd hcontra hidle
  · exact Encoding.paired_step (.turn a) (h.paired hrunning) hpromised
  · rw [step, hgoes] at hreturned
    cases hreturned

theorem encode_submitting_inv (h : g.Inv c pts_epoch) {a : Answers} {force_idr : Bool} {pts_ns : Int64}
    (hpoint : g.pipeline.point = .submitting force_idr pts_ns) (hpromised : Promised c g (.encode a)) :
    (encode c g a).Inv c pts_epoch := by
  have hfits := h.fits
  have hrunning : g.pipeline.point.isReturned = false := by rw [hpoint]; rfl
  have hstamped := h.stamped
  rw [hpoint] at hfits hstamped
  rcases encode_submitting (c := c) a hpoint hfits with ⟨hidle, hstep⟩ | ⟨hidle, hturn, hstep⟩
  · rw [hstep]
    rw [hidle] at hstamped
    have hcall : (g.encoding.submitFrame pts_ns force_idr).calls = g.encoding.calls ++ [pts_ns] ∧
        (g.encoding.submitFrame pts_ns force_idr).returned = g.encoding.returned ∧
        (g.encoding.submitFrame pts_ns force_idr).session.cfg = g.encoding.session.cfg ∧
        ((g.encoding.submitFrame pts_ns force_idr).phase = .feed pts_ns force_idr ∨
          (g.encoding.submitFrame pts_ns force_idr).phase = .initialWait pts_ns force_idr) := by
      simp only [Encoding.submitFrame, hidle]
      split
      · exact ⟨rfl, rfl, rfl, .inl rfl⟩
      · exact ⟨rfl, rfl, rfl, .inr rfl⟩
    obtain ⟨hcalls, hreturned, hcfg, hphase⟩ := hcall
    have hplace : Fits g.pipeline.point (g.encoding.submitFrame pts_ns force_idr).phase ∧
        unsubmitted pts_epoch g.pipeline.point (g.encoding.submitFrame pts_ns force_idr).phase = [] := by
      rw [hpoint]
      rcases hphase with hphase | hphase
      · rw [hphase]
        exact ⟨⟨rfl, rfl⟩, rfl⟩
      · rw [hphase]
        exact ⟨⟨rfl, rfl⟩, rfl⟩
    have hpaired' := Encoding.paired_submitFrame pts_ns force_idr (h.paired hrunning)
    refine ⟨hplace.1, h.start_instant, hcfg.trans h.cfg, fun _ => hpaired',
      Kept.of_paired hpaired' (congrArg EncodeConfig.codec (hcfg.trans h.cfg)), ?_, ?_⟩
    · show List.Sublist _ (g.encoding.submitFrame pts_ns force_idr).returned
      rw [hreturned]
      exact h.accounted
    · show ((g.encoding.submitFrame pts_ns force_idr).calls ++ unsubmitted pts_epoch g.pipeline.point
        (g.encoding.submitFrame pts_ns force_idr).phase).Sublist _
      rw [hplace.2, List.append_nil, hcalls]
      exact hstamped
  · have hpaired := h.paired_turn hrunning hpromised hidle
    have haccounted : g.pipeline.session.accounted.Sublist (g.encoding.turn a).returned := by
      rw [hturn.returned, Option.toList_none, List.append_nil]
      exact h.accounted
    rcases hstep with ⟨hstep, hrunning', hfits'⟩ | ⟨submitted, hstep, hended, -⟩ | ⟨e, hstep⟩
    · rw [hstep] at hpaired ⊢
      refine h.encoder hturn ?_ rfl hpaired (fun _ => rfl) haccounted ?_
      · rw [hpoint]
        exact hfits'
      · rw [hpoint]
        cases hphase : (g.encoding.turn a).phase with
        | idle => exact absurd hphase hrunning'
        | _ => rfl
    · rw [hstep] at hpaired ⊢
      refine h.encoder hturn ?_ rfl hpaired (fun _ => rfl) haccounted rfl
      rw [hended]
      trivial
    · rw [hstep]
      exact h.encoder hturn trivial rfl (by intro hcontra; cases hcontra) (fun _ => rfl) haccounted rfl

theorem encode_polling_inv (h : g.Inv c pts_epoch) {a : Answers} (hpoint : g.pipeline.point = .polling)
    (hpromised : Promised c g (.encode a)) : (encode c g a).Inv c pts_epoch := by
  have hfits := h.fits
  have hrunning : g.pipeline.point.isReturned = false := by rw [hpoint]; rfl
  have hstamped := h.stamped
  rw [hpoint] at hfits hstamped
  rcases encode_polling (c := c) a hpoint hfits with ⟨hidle, hstep⟩ | ⟨hdrain, hstep⟩
  · rw [hstep]
    have hpaired' : g.encoding.tryPacket.Paired := Encoding.paired_step .tryPacket (h.paired hrunning) trivial
    rw [show g.encoding.tryPacket = { g.encoding with phase := .drain } by
      simp only [Encoding.tryPacket, hidle]] at hpaired'
    refine ⟨?_, h.start_instant, h.cfg, fun _ => hpaired',
      ⟨h.kept.offered, h.kept.pts, h.kept.bytes⟩, h.accounted, ?_⟩
    · show Fits g.pipeline.point .drain
      rw [hpoint]
      trivial
    · show (g.encoding.calls ++ unsubmitted pts_epoch g.pipeline.point .drain).Sublist _
      rw [hpoint]
      exact hstamped
  · have hpaired := h.paired_turn hrunning hpromised (by rw [hdrain]; intro hcontra; cases hcontra)
    rcases hstep with ⟨hstep, hphase, hturn⟩ | ⟨pkt, hstep, hphase, hturn⟩ | ⟨hstep, hphase, hturn⟩ |
      ⟨e, hstep, hturn⟩
    · rw [hstep] at hpaired ⊢
      refine h.encoder hturn ?_ rfl hpaired (fun _ => rfl) ?_ ?_
      · rw [hpoint, hphase]
        trivial
      · rw [hturn.returned]
        exact h.accounted.trans (List.sublist_append_left _ _)
      · rw [hpoint]
        rfl
    · rw [hstep] at hpaired ⊢
      refine h.encoder hturn ?_ rfl hpaired ?_ ?_ ?_
      · show Fits g.pipeline.point (g.encoding.turn a).phase
        rw [hpoint, hphase]
        trivial
      · intro hreturned
        have hcontra : g.pipeline.point.isReturned = true := hreturned
        rw [hrunning] at hcontra
        cases hcontra
      · show (g.pipeline.session.step c.session (.push pkt)).accounted.Sublist _
        rw [Session.step_accounted, hturn.returned]
        refine h.accounted.append ?_
        rw [Session.accepted]
        split
        · exact List.nil_sublist _
        · exact List.Sublist.refl _
      · show unsubmitted pts_epoch g.pipeline.point (g.encoding.turn a).phase = []
        rw [hpoint]
        rfl
    · rw [hstep] at hpaired ⊢
      refine h.encoder hturn ?_ rfl hpaired (fun _ => rfl) ?_ rfl
      · rw [hphase]
        trivial
      · rw [hturn.returned]
        exact h.accounted.trans (List.sublist_append_left _ _)
    · rw [hstep]
      refine h.encoder hturn trivial rfl (by intro hcontra; cases hcontra) (fun _ => rfl) ?_ rfl
      rw [hturn.returned]
      exact h.accounted.trans (List.sublist_append_left _ _)

theorem transform_inv (h : g.Inv c pts_epoch) {offer : Offer} (hpromised : g.encoding.Promised offer.label) :
    Inv c pts_epoch { g with encoding := g.encoding.step offer.label } := by
  have hpaired : g.pipeline.point.isReturned = false → (g.encoding.step offer.label).Paired :=
    fun hrunning => Encoding.paired_step offer.label (h.paired hrunning) hpromised
  have hle := h.kept.offered
  cases offer with
  | needInput =>
      exact ⟨h.fits, h.start_instant, h.cfg, hpaired, ⟨hle, h.kept.pts, h.kept.bytes⟩, h.accounted, h.stamped⟩
  | other =>
      exact ⟨h.fits, h.start_instant, h.cfg, hpaired, ⟨hle, h.kept.pts, h.kept.bytes⟩, h.accounted, h.stamped⟩
  | haveOutput sample =>
      refine ⟨h.fits, h.start_instant, h.cfg, hpaired, ⟨?_, h.kept.pts, ?_⟩, h.accounted, h.stamped⟩
      · show _ ≤ (g.encoding.outputs ++ [sample]).length
        rw [List.length_append]
        exact Nat.le_add_right_of_le hle
      · show _ = ((g.encoding.outputs ++ [sample]).take g.encoding.returned.length).map _
        rw [List.take_append_of_le_length hle]
        exact h.kept.bytes

theorem sessionStep_inv (h : g.Inv c pts_epoch) (e : Event) (elapsed_at now : ℕ) :
    (sessionStep c g e elapsed_at now).Inv c pts_epoch := by
  have hpipeline : Inv c pts_epoch { g with pipeline := g.pipeline.step c.session (.session e) } := by
    rw [Pipeline.step, Pipeline.sessionStep]
    split
    case isTrue => exact h
    case isFalse hpush =>
      refine h.outside h.fits rfl id ?_ h.stamped
      show (Session.step c.session g.pipeline.session e).accounted = _
      rw [Session.step_accounted]
      cases e with
      | push pkt => exact absurd rfl hpush
      | _ => exact List.append_nil _
  exact ⟨hpipeline.fits, hpipeline.start_instant, hpipeline.cfg, hpipeline.paired, hpipeline.kept,
    hpipeline.accounted, hpipeline.stamped⟩

theorem step_inv (g : Streaming) (e : StreamEvent) (h : g.Inv c pts_epoch) (hpromised : Promised c g e) :
    (step c g e).Inv c pts_epoch := by
  cases e with
  | testStop => exact testStop_inv h
  | acquire result now => exact acquire_inv h result now
  | convert result => exact convert_inv h result
  | transform offer => exact transform_inv h hpromised
  | encode a =>
      cases hpoint : g.pipeline.point with
      | submitting force_idr pts_ns => exact encode_submitting_inv h hpoint hpromised
      | polling => exact encode_polling_inv h hpoint hpromised
      | _ =>
          rw [step]
          simp only [encode, hpoint]
          exact h
  | storeStop =>
      rw [step, Pipeline.step, Pipeline.storeStop]
      split
      · exact ⟨h.fits, h.start_instant, h.cfg, h.paired, h.kept, h.accounted, h.stamped⟩
      · exact h
  | session e elapsed_at now => exact sessionStep_inv h e elapsed_at now
  | periodicIdr =>
      rw [step, periodicIdr]
      split
      · exact ⟨h.fits, h.start_instant, h.cfg, h.paired, h.kept, h.accounted, h.stamped⟩
      · exact h
  | relayIdr =>
      rw [step, relayIdr]
      split
      · exact ⟨h.fits, h.start_instant, h.cfg, h.paired, h.kept, h.accounted, h.stamped⟩
      · exact h

/-! ### The video on the wire -/

omit [BuildProfile] in
theorem videoFrames_take (pkts : List EncodedPacket) (n : ℕ) :
    (videoFrames pkts).take n = videoFrames (pkts.take n) := by
  cases pkts with
  | nil => cases n <;> rfl
  | cons first rest =>
      cases n with
      | zero => rfl
      | succ n => simp only [videoFrames, List.take_succ_cons, List.map_take]

omit [BuildProfile] in
theorem taken_sublist (departed : List (EncodedPacket × Departure)) :
    (taken departed).Sublist (departed.map Prod.fst) :=
  List.filter_sublist.map Prod.fst

omit [BuildProfile] in
/-- Stamps follow the clock. -/
theorem stamps_sorted {acquired_at : List ℕ} (hclock : acquired_at.Pairwise (· ≤ ·))
    (hrange : ∀ now ∈ acquired_at, now - pts_epoch < 2 ^ 63) :
    ((acquired_at.map (stamp pts_epoch)).map Int64.toInt).Pairwise (· ≤ ·) := by
  rw [List.map_map, List.pairwise_map]
  refine hclock.imp_of_mem fun {m n} hm hn hle => ?_
  show (Int64.ofNat (m - pts_epoch)).toInt ≤ (Int64.ofNat (n - pts_epoch)).toInt
  rw [Int64.toInt_ofNat_of_lt (hrange m hm), Int64.toInt_ofNat_of_lt (hrange n hn)]
  omega

theorem Inv.calls_sublist (h : g.Inv c pts_epoch) :
    g.encoding.calls.Sublist (g.acquired_at.map (stamp pts_epoch)) :=
  (List.sublist_append_left _ _).trans h.stamped

/-- The session takes packets that the encoder returned. -/
theorem Inv.taken_returned (h : g.Inv c pts_epoch) :
    (taken g.pipeline.session.departed).Sublist g.encoding.returned :=
  ((taken_sublist _).trans (List.sublist_append_left _ _)).trans h.accounted

/-- Packets in the order of the encoder are in the order of time. -/
theorem Inv.returned_sorted (h : g.Inv c pts_epoch) {pkts : List EncodedPacket}
    (hpkts : pkts.Sublist g.encoding.returned) (hclock : g.acquired_at.Pairwise (· ≤ ·))
    (hrange : ∀ now ∈ g.acquired_at, now - pts_epoch < 2 ^ 63) :
    (pkts.map fun pkt => pkt.pts_ns.toInt).Pairwise (· ≤ ·) := by
  have hstamps : (pkts.map EncodedPacket.pts_ns).Sublist (g.acquired_at.map (stamp pts_epoch)) :=
    ((hpkts.map _).trans h.kept.pts.sublist).trans h.calls_sublist
  have hsorted := (stamps_sorted hclock hrange).sublist (hstamps.map Int64.toInt)
  rw [List.map_map] at hsorted
  exact hsorted

/-- **The video goes forward in time.**  The `VIDEO_FRAME`s on the wire are those of packets that the encoder
returned, in its order; the `k`-th packet it returned has the stamp of the `k`-th frame submitted and is made of
the `k`-th output of the transform; and the stamps are those of the ticks, which do not go back where the clock
does not. -/
theorem stream_in_time {es : List StreamEvent} (h : Run.Steps (step c) (Promised c) (start c pts_epoch) es) :
    let g := after c pts_epoch es
    ∃ pkts, video (g.pipeline.session.wire.map (·.frame)) = videoFrames pkts ∧
      pkts.Sublist g.encoding.returned ∧
      g.encoding.returned.map EncodedPacket.pts_ns <+: g.encoding.calls ∧
      g.encoding.returned.map (fun pkt => Except.ok pkt.bytes) =
        (g.encoding.outputs.take g.encoding.returned.length).map
          (fun sample => MfSession.patchedBytes c.encode.codec sample.bytes) ∧
      g.encoding.calls.Sublist (g.acquired_at.map (stamp pts_epoch)) ∧
      (g.acquired_at.Pairwise (· ≤ ·) → (∀ now ∈ g.acquired_at, now - pts_epoch < 2 ^ 63) →
        (pkts.map fun pkt => pkt.pts_ns.toInt).Pairwise (· ≤ ·)) := by
  intro g
  have hinv : g.Inv c pts_epoch := h.invariant step_inv start_inv
  obtain ⟨events, hsession⟩ := after_session c pts_epoch es
  have hfront : video (g.pipeline.session.wire.map (·.frame)) <+:
      videoFrames (taken g.pipeline.session.departed) := by
    show video ((after c pts_epoch es).pipeline.session.wire.map (·.frame)) <+:
      videoFrames (taken (after c pts_epoch es).pipeline.session.departed)
    rw [hsession]
    obtain ⟨-, hvideo⟩ := Session.after_video c.session events
    have hscript : video ((Session.after c.session events).wire.map (·.frame)) <+:
        video (Session.after c.session events).script := by
      rw [Session.script, video_append]
      exact List.prefix_append _ _
    exact hscript.trans hvideo.isFront
  generalize hwire : video (g.pipeline.session.wire.map (·.frame)) = wire at hfront
  have hpkts : ((taken g.pipeline.session.departed).take wire.length).Sublist g.encoding.returned :=
    (List.take_sublist _ _).trans hinv.taken_returned
  refine ⟨_, ?_, hpkts, hinv.kept.pts, hinv.kept.bytes, hinv.calls_sublist, hinv.returned_sorted hpkts⟩
  rw [← videoFrames_take]
  exact List.prefix_iff_eq_take.1 hfront

/-- A frame of a session whose encoder needs one turn for each call. -/
def oneFrame (now : ℕ) (sample : OutputSample) : List StreamEvent :=
  let a := Encoding.goodAnswers (some sample) now
  [.testStop, .acquire (.ok none) now, .convert (.ok ()), .transform .needInput, .encode a, .encode a, .encode a,
    .transform (.haveOutput sample), .encode a, .transform .needInput, .encode a, .encode a, .encode a, .encode a,
    .encode a]

/-- The client shakes hands and gets the frame. -/
def handshake : List StreamEvent :=
  [.popTurn false, .keyframe false, .write 16, .write 9, .write 10, .write 24, .flush true,
    .enterSelect .framePump].map fun e => .session e 0 0

omit [BuildProfile] in
/-- The key frame of a session, on the wire. -/
theorem stream_in_time_first :
    letI : BuildProfile := ⟨true⟩
    let g := after (.fullHd none none) 0 (oneFrame 7 ⟨(EncodedPacket.idr 0).bytes, none⟩ ++ handshake)
    g.acquired_at = [7] ∧ (video (g.pipeline.session.wire.map (·.frame))).length = 1 ∧
      ∃ pkts, video (g.pipeline.session.wire.map (·.frame)) = videoFrames pkts ∧
        pkts.Sublist g.encoding.returned ∧ (pkts.map fun pkt => pkt.pts_ns.toInt).Pairwise (· ≤ ·) := by
  have hsteps : @Run.Steps _ _ (@step (.fullHd none none) ⟨true⟩) (@Promised (.fullHd none none) ⟨true⟩)
      (start (.fullHd none none) 0) (oneFrame 7 ⟨(EncodedPacket.idr 0).bytes, none⟩ ++ handshake) := by
    decide +kernel
  have hticks : (@after (.fullHd none none) ⟨true⟩ 0 (oneFrame 7 ⟨(EncodedPacket.idr 0).bytes, none⟩ ++
      handshake)).acquired_at = [7] := by
    decide +kernel
  have hlength : (video ((@after (.fullHd none none) ⟨true⟩ 0 (oneFrame 7 ⟨(EncodedPacket.idr 0).bytes, none⟩ ++
      handshake)).pipeline.session.wire.map (·.frame))).length = 1 := by
    decide +kernel
  let _ : BuildProfile := ⟨true⟩
  obtain ⟨pkts, hvideo, hsub, -, -, -, htime⟩ := stream_in_time hsteps
  refine ⟨hticks, hlength, pkts, hvideo, hsub, htime ?_ ?_⟩
  · rw [hticks]
    exact List.pairwise_singleton _ _
  · rw [hticks]
    intro now hnow
    rw [List.mem_singleton.1 hnow]
    decide

end Streaming

end Penflow
