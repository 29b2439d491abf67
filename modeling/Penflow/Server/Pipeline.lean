import Penflow.Server.Delivery
import Penflow.Server.Shutdown

/-!
# The encode thread of a session

`LoopState::run` ticks until it finds `stop` set.  A tick acquires a frame, converts the keepalive
texture, submits it to the encoder and pushes the packets that are ready; an error of any of the four
ends the tick, and with it the thread.  The queue is closed by `Pipeline::stop` and by the drop of the
pipeline only, and both are the session's: it is told of no end that it has not asked for, and
`frame_pump` goes on waiting for packets that nothing pushes any more.
-/

namespace Penflow

structure PointerPosition where
  x : Int32
  y : Int32
  visible : Bool
  deriving DecidableEq, Repr

/-- Where the encode thread is, in `LoopState::run` and its `tick`. -/
inductive LoopPoint (ε : Type) where
  /-- there is no engine -/
  | unspawned
  /-- at the test of `stop` -/
  | head
  | acquiring (force_idr : Bool)
  | converting (force_idr : Bool) (now : ℕ)
  | submitting (force_idr : Bool) (pts_ns : Int64)
  /-- in the loop over `try_packet` -/
  | polling
  | returned (result : Except ε Unit)

def LoopPoint.isReturned {ε : Type} : LoopPoint ε → Bool
  | .returned _ => true
  | _ => false

/-- The encode thread and the session that consumes its packets; the textures are left out.  An error is
only handed on, so its type is any. -/
structure Pipeline (ε : Type) where
  session : Session
  stop : Bool
  idr_request : Bool
  keepalive_uses : UInt64
  point : LoopPoint ε
  has_real_frame : Bool
  last_pointer : Option PointerPosition
  /-- in nanoseconds, as is `now` -/
  start_instant : ℕ
  /-- what `submit_frame` was called with, and took -/
  submitted : List (Int64 × Bool)

inductive PipelineEvent (ε : Type) where
  /-- the test of `stop`, and the swap of `idr_request` -/
  | testStop
  /-- `acquire_frame` returns, for a frame with its pointer position -/
  | acquire (result : Except ε (Option (Option PointerPosition))) (now : ℕ)
  | convert (result : Except ε Unit)
  | submit (result : Except ε Unit)
  | tryPacket (result : Except ε (Option EncodedPacket))
  | requestIdr
  /-- `Pipeline::stop` stores `stop`, before it closes the queue -/
  | storeStop
  /-- an event of the session -/
  | session (e : Event)

def Event.isPush : Event → Bool
  | .push _ => true
  | _ => false

namespace Session

variable {c : SessionConfig} {s : Session}

/-! ### A session that the encoder pushes nothing to -/

/-- The packets that `wait_for_keyframe` can still pop. -/
def coming (s : Session) : List EncodedPacket :=
  match s.pop with
  | .panicked => []
  | .done (some pkt) => pkt :: s.queue.deque
  | _ => s.queue.deque

/-- The session waits for its keyframe, and without a push it gets none with parameter sets. -/
def NoKeyframe (c : SessionConfig) (s : Session) : Prop :=
  s.run = .awaitKeyframe ∧
    ∀ pkt ∈ s.coming.find? (·.is_keyframe), (c.csd0 pkt.bytes).isEmpty = true

/-- A write has failed, and `frame_pump` has a packet to write: it can only return. -/
def CutOff (s : Session) : Prop :=
  s.broken = true ∧ ((∃ pkt, s.frame_pump = .locking pkt) ∨
    (∃ pkt, s.frame_pump = .sending pkt) ∧ ∃ f n next, s.writer = some (.framePump, .frame f n next))

/-- `frame_pump` waits on the open queue no more, and without a push it never will. -/
def Unfed (c : SessionConfig) (s : Session) : Prop :=
  s.queue.closed = true ∨ RunPhase.stopping.rank ≤ s.run.rank ∨ s.frame_pump = .returned ∨
    s.NoKeyframe c ∨ s.CutOff

/-- The queue stays closed, and the connection stays gone. -/
theorem step_stays (s : Session) (e : Event) :
    (s.queue.closed = true → (step c s e).queue.closed = true) ∧
      (s.broken = true → (step c s e).broken = true) := by
  have hclosed : s.queue.close.closed = true := PacketQueue.close_closed s.queue
  cases e with
  | push pkt =>
      rw [step, push]
      split
      · exact ⟨id, id⟩
      · exact ⟨(PacketQueue.push_closed s.queue pkt).trans, id⟩
  | popTurn expired =>
      rw [step, popTurn]
      repeat' split
      all_goals exact ⟨id, id⟩
  | popPanics =>
      rw [step, popPanics]
      split <;> exact ⟨id, id⟩
  | keyframe expired =>
      rw [step, waitForKeyframe]
      unfold greet
      repeat' split
      all_goals first
        | exact ⟨id, id⟩
        | exact ⟨fun _ => hclosed, id⟩
  | enterSelect t =>
      rw [step]
      unfold enterSelect
      repeat' split
      all_goals exact ⟨id, id⟩
  | selectStop t =>
      rw [step]
      unfold selectStop
      repeat' split
      all_goals exact ⟨id, id⟩
  | selectPop =>
      rw [step, selectPop]
      split <;> exact ⟨id, id⟩
  | selectTick =>
      rw [step, selectTick]
      split <;> exact ⟨id, id⟩
  | receive msg_id payload t2 t3 =>
      rw [step, receive]
      repeat' split
      all_goals exact ⟨id, id⟩
  | readEnds =>
      rw [step, readEnds]
      split <;> exact ⟨id, id⟩
  | lock t =>
      rw [step]
      unfold lock
      repeat' split
      all_goals exact ⟨id, id⟩
  | write n =>
      rw [step]
      rcases write_cases s n with hsame | ⟨t, f, k, next, -, -, -, ⟨-, hpart⟩ | ⟨-, hall⟩⟩
      · rw [hsame]
        exact ⟨id, id⟩
      · rw [hpart]
        exact ⟨id, id⟩
      · rw [hall]
        exact ⟨id, id⟩
  | writeFails =>
      rw [step, writeFails]
      unfold sendFailed
      repeat' split
      all_goals first
        | exact ⟨id, id⟩
        | exact ⟨id, fun _ => rfl⟩
        | exact ⟨fun _ => hclosed, fun _ => rfl⟩
        | contradiction
  | flush ok =>
      rw [step, flush]
      unfold sendFailed sent
      repeat' split
      all_goals first
        | exact ⟨id, id⟩
        | exact ⟨fun _ => hclosed, id⟩
  | cancel =>
      rw [step, cancel]
      split <;> exact ⟨id, id⟩
  | readLoopEnded =>
      rw [step, readLoopEnded]
      split <;> exact ⟨id, id⟩
  | finish =>
      rw [step, finish]
      repeat' split
      all_goals exact ⟨id, id⟩
  | notify =>
      rw [step, notify]
      split <;> exact ⟨id, id⟩
  | joined timed_out =>
      rw [step, joined]
      repeat' split
      all_goals exact ⟨id, id⟩
  | engineStop =>
      rw [step, engineStop]
      split
      · exact ⟨fun _ => hclosed, id⟩
      · exact ⟨id, id⟩

/-- Until the tasks are spawned, only the pop and `wait_for_keyframe` act. -/
theorem step_waiting (hph : s.Phases c) (hrun : s.run = .awaitKeyframe) {e : Event}
    (hpush : e.isPush = false) :
    step c s e = s ∨ (∃ expired, e = .popTurn expired) ∨ e = .popPanics ∨
      ∃ expired, e = .keyframe expired := by
  obtain ⟨hframe, htelemetry, hread, haborted⟩ := hph.unspawned (.inl hrun)
  obtain ⟨hwriter, -, -⟩ := hph.waiting hrun
  cases e with
  | push pkt => cases hpush
  | popTurn expired => exact .inr (.inl ⟨expired, rfl⟩)
  | popPanics => exact .inr (.inr (.inl rfl))
  | keyframe expired => exact .inr (.inr (.inr ⟨expired, rfl⟩))
  | enterSelect t => cases t <;> simp [step, enterSelect, hframe, htelemetry]
  | selectStop t => cases t <;> simp [step, selectStop, hframe, htelemetry]
  | selectPop => simp [step, selectPop, hframe]
  | selectTick => simp [step, selectTick, htelemetry]
  | receive msg_id payload t2 t3 => simp [step, receive, hread]
  | readEnds => simp [step, readEnds, hread]
  | lock t => cases t <;> simp [step, lock, hwriter, hrun, hframe, htelemetry, hread]
  | write n => simp [step, write, hwriter]
  | writeFails => simp [step, writeFails, hwriter]
  | flush ok => simp [step, flush, hwriter]
  | cancel => simp [step, cancel, haborted]
  | readLoopEnded => simp [step, readLoopEnded, hrun]
  | finish => simp [step, finish, hrun]
  | notify => simp [step, notify, hrun]
  | joined timed_out => simp [step, joined, hrun]
  | engineStop => simp [step, engineStop, hrun]

/-- A pop takes the packet out of the queue and keeps it. -/
theorem popTurn_coming (s : Session) (expired : Bool) : (s.popTurn expired).coming = s.coming := by
  cases hpop : s.pop with
  | running =>
      have hcoming : s.coming = s.queue.deque := by simp only [coming, hpop]
      rw [hcoming]
      cases hdeque : s.queue.deque with
      | nil =>
          simp only [popTurn, hpop, PacketQueue.popTimeout, hdeque]
          cases hends : s.queue.closed || expired with
          | true => exact hdeque
          | false => exact hcoming.trans hdeque
      | cons pkt rest =>
          simp only [popTurn, hpop, PacketQueue.popTimeout, hdeque, coming, PacketQueue.popFront,
            List.tail_cons]
  | _ => simp only [popTurn, hpop, coming]

theorem NoKeyframe.of_find {s' : Session} (h : s.NoKeyframe c) (hrun : s'.run = s.run)
    (hfind : s'.coming.find? (·.is_keyframe) = s.coming.find? (·.is_keyframe)) : s'.NoKeyframe c := by
  refine ⟨hrun.trans h.1, ?_⟩
  rw [hfind]
  exact h.2

theorem waitForKeyframe_noKeyframe (h : s.NoKeyframe c) (expired : Bool) :
    (waitForKeyframe c s expired).NoKeyframe c ∨ (waitForKeyframe c s expired).queue.closed = true := by
  have hrun := h.1
  have hfailed : s.failRun.queue.closed = true := PacketQueue.close_closed s.queue
  cases hpop : s.pop with
  | idle =>
      simp only [waitForKeyframe, hrun, hpop]
      exact .inl h
  | running =>
      simp only [waitForKeyframe, hrun, hpop]
      exact .inl h
  | panicked =>
      simp only [waitForKeyframe, hrun, hpop]
      exact .inr hfailed
  | done popped =>
      cases popped with
      | none =>
          have hcoming : s.coming = s.queue.deque := by simp only [coming, hpop]
          simp only [waitForKeyframe, hrun, hpop]
          cases expired with
          | true => exact .inr hfailed
          | false => exact .inl (h.of_find hrun.symm (congrArg _ hcoming.symm))
      | some pkt =>
          have hcoming : s.coming = pkt :: s.queue.deque := by simp only [coming, hpop]
          simp only [waitForKeyframe, hrun, hpop]
          cases hkey : pkt.is_keyframe with
          | true =>
              have hempty : (c.csd0 pkt.bytes).isEmpty = true := by
                refine h.2 pkt ?_
                rw [hcoming, List.find?_cons_of_pos hkey]
                exact rfl
              rw [if_pos rfl, greet, if_pos hempty]
              exact .inr hfailed
          | false =>
              have hskip : s.coming.find? (·.is_keyframe) = s.queue.deque.find? (·.is_keyframe) := by
                rw [hcoming, List.find?_cons_of_neg (by simp [hkey])]
              cases expired with
              | true => exact .inr hfailed
              | false => exact .inl (h.of_find hrun.symm hskip.symm)

/-- Without a push the wait for a keyframe ends, if at all, with the queue closed. -/
theorem NoKeyframe.step (hph : s.Phases c) (h : s.NoKeyframe c) {e : Event} (hpush : e.isPush = false) :
    (step c s e).NoKeyframe c ∨ (step c s e).queue.closed = true := by
  rcases step_waiting hph h.1 hpush with hsame | ⟨expired, rfl⟩ | rfl | ⟨expired, rfl⟩
  · rw [hsame]
    exact .inl h
  · refine .inl (h.of_find (popTurn_sameRun expired).same_run ?_)
    show (s.popTurn expired).coming.find? _ = _
    rw [popTurn_coming]
  · refine .inl ?_
    rw [Session.step, popPanics]
    split
    · refine ⟨h.1, ?_⟩
      intro pkt hpkt
      cases hpkt
    · exact h
  · exact waitForKeyframe_noKeyframe h expired

/-! ### The frame pump by itself -/

/-- A pump that waits for the writer, or has returned, moves only by getting the writer. -/
theorem step_frame_pump (hwf : s.Wf) (hph : s.Phases c)
    (hpump : (∃ pkt, s.frame_pump = .locking pkt) ∨ s.frame_pump = .returned) (e : Event) :
    (step c s e).frame_pump = s.frame_pump ∨ ∃ pkt, s.frame_pump = .locking pkt ∧
      (step c s e).frame_pump = .sending pkt ∧
        (step c s e).writer = some (.framePump, .frame (pumpFrame pkt) 0 []) := by
  have hspawned : s.frame_pump ≠ .unspawned := by rcases hpump with ⟨pkt, h⟩ | h <;> simp [h]
  have hgreet := (hph.looping hspawned).2.2
  have hhead : s.frame_pump ≠ .head := by rcases hpump with ⟨pkt, h⟩ | h <;> simp [h]
  have hselect : ∀ b, s.frame_pump ≠ .selecting b := by rcases hpump with ⟨pkt, h⟩ | h <;> simp [h]
  have hsend : ∀ pkt, s.frame_pump ≠ .sending pkt := by rcases hpump with ⟨pkt, h⟩ | h <;> simp [h]
  clear hpump
  have hholder : ∀ w, s.writer ≠ some (.framePump, w) := by
    intro w hwriter
    obtain ⟨pkt, hsending, -⟩ := hwf.holder _ w hwriter
    exact hsend pkt hsending
  by_cases hapart : e.apart = true
  · exact .inl (step_apart s hapart).1
  cases e with
  | enterSelect t =>
      rw [step]
      rcases enterSelect_cases s t with heq | ⟨hpump, -⟩ | ⟨-, heq⟩
      · rw [heq]
        exact .inl rfl
      · exact absurd hpump hhead
      · rw [heq]
        exact .inl rfl
  | selectStop t =>
      rw [step]
      rcases selectStop_cases s t with heq | ⟨hpump, -⟩ | ⟨-, heq⟩
      · rw [heq]
        exact .inl rfl
      · exact absurd hpump (hselect true)
      · rw [heq]
        exact .inl rfl
  | selectPop =>
      rw [step]
      rcases selectPop_cases s with heq | ⟨notified, hpump, -⟩
      · rw [heq]
        exact .inl rfl
      · exact absurd hpump (hselect notified)
  | selectTick =>
      rw [step]
      rcases selectTick_cases s with heq | ⟨notified, -, heq⟩
      · rw [heq]
        exact .inl rfl
      · rw [heq]
        exact .inl rfl
  | lock t =>
      rw [step]
      rcases lock_cases s t with heq | ⟨-, ⟨-, -, heq⟩ | ⟨-, pkt, hlocking, heq⟩ | ⟨-, tel, -, heq⟩ |
        ⟨-, resp, -, heq⟩⟩
      · rw [heq]
        exact .inl rfl
      · rw [heq]
        exact .inl rfl
      · rw [heq]
        exact .inr ⟨pkt, hlocking, rfl, rfl⟩
      · rw [heq]
        exact .inl rfl
      · rw [heq]
        exact .inl rfl
  | writeFails =>
      left
      rw [step]
      rcases writeFails_cases c s with heq | ⟨t, f, n, next, hwriter, heq⟩
      · rw [heq]
      · rw [heq]
        cases t with
        | run =>
            rw [sendFailed, if_neg hgreet]
            rfl
        | framePump => exact absurd hwriter (hholder _)
        | telemetryPump => rfl
        | readLoop => rfl
  | flush ok =>
      left
      rw [step]
      have hsent : ∀ t, s.writer = some (t, .flush) → (sent c s t).frame_pump = s.frame_pump := by
        intro t hwriter
        cases t with
        | run => rw [sent, if_neg hgreet]
        | framePump => exact absurd hwriter (hholder _)
        | telemetryPump => rfl
        | readLoop => rfl
      rcases flush_cases c s ok with heq | ⟨t, hwriter, ⟨-, heq⟩ | ⟨-, heq⟩⟩
      · rw [heq]
      · rw [heq]
        exact hsent t hwriter
      · rw [heq]
        cases t with
        | run =>
            rw [sendFailed, if_neg hgreet]
            exact hsent .run hwriter
        | framePump => exact absurd hwriter (hholder _)
        | telemetryPump => rfl
        | readLoop => exact hsent .readLoop hwriter
  | notify =>
      rw [step, notify]
      refine .inl ?_
      split
      · show s.frame_pump.notify = s.frame_pump
        cases hpump : s.frame_pump with
        | selecting b => exact absurd hpump (hselect b)
        | _ => rfl
      · rfl
  | _ => exact absurd rfl hapart

/-- A pump whose frame cannot be written goes on holding the writer, or returns. -/
theorem step_sending (hph : s.Phases c) {pkt : EncodedPacket} {f : Frame} {n : ℕ} {next : List Frame}
    (hbroken : s.broken = true) (h : s.frame_pump = .sending pkt)
    (hwriter : s.writer = some (.framePump, .frame f n next)) (e : Event) :
    (step c s e).frame_pump = .returned ∨ (step c s e).frame_pump = .sending pkt ∧
      (step c s e).writer = some (.framePump, .frame f n next) := by
  have hsame : ∀ s', s.SameWriter s' → s'.frame_pump = .sending pkt ∧
      s'.writer = some (.framePump, .frame f n next) :=
    fun s' hsame => ⟨hsame.frame_pump pkt h, hsame.writer.trans hwriter⟩
  by_cases haside : e.aside = true
  · exact .inr (hsame _ (step_sameRun haside).toSameWriter)
  cases e with
  | keyframe expired =>
      have hspawned : s.frame_pump ≠ .unspawned := by simp [h]
      have hawait := (hph.looping hspawned).2.1
      have hskip : waitForKeyframe c s expired = s := by
        rw [waitForKeyframe]
        split <;> first | rfl | contradiction
      rw [step, hskip]
      exact .inr ⟨h, hwriter⟩
  | lock t =>
      have hskip : s.lock t = s := by simp only [lock, hwriter]
      rw [step, hskip]
      exact .inr ⟨h, hwriter⟩
  | write n =>
      rcases write_cases s n with hskip | ⟨t, f, k, next, -, hwhole, -⟩
      · rw [step, hskip]
        exact .inr ⟨h, hwriter⟩
      · rw [hbroken] at hwhole
        cases hwhole
  | writeFails =>
      rw [step, writeFails, hwriter]
      exact .inl rfl
  | flush ok =>
      rw [step, flush, hwriter]
      exact .inr ⟨h, hwriter⟩
  | cancel =>
      rw [step, cancel]
      split
      · exact .inr ⟨h, by simp only [dropReadLoop, hwriter]⟩
      · exact .inr ⟨h, hwriter⟩
  | readLoopEnded => exact .inr (hsame _ readLoopEnded_sameWriter)
  | finish =>
      rw [step, finish]
      repeat' split
      · exact .inr ⟨h, by simp only [leave, dropReadLoop, hwriter]⟩
      · exact .inr ⟨h, hwriter⟩
      · exact .inr ⟨h, hwriter⟩
  | notify => exact .inr (hsame _ notify_sameWriter)
  | joined timed_out => exact .inr (hsame _ (joined_sameWriter timed_out))
  | engineStop => exact .inr (hsame _ engineStop_sameWriter)
  | _ => exact absurd rfl haside

theorem CutOff.step (hwf : s.Wf) (hph : s.Phases c) (h : s.CutOff) (e : Event) :
    (step c s e).CutOff ∨ (step c s e).frame_pump = .returned := by
  obtain ⟨hbroken, ⟨pkt, hpump⟩ | ⟨⟨pkt, hpump⟩, f, n, next, hwriter⟩⟩ := h
  · refine .inl ⟨(step_stays s e).2 hbroken, ?_⟩
    rcases step_frame_pump hwf hph (.inl ⟨pkt, hpump⟩) e with hsame | ⟨pkt', -, hsending, hwriter⟩
    · exact .inl ⟨pkt, hsame.trans hpump⟩
    · exact .inr ⟨⟨pkt', hsending⟩, _, _, _, hwriter⟩
  · rcases step_sending hph hbroken hpump hwriter e with hreturned | ⟨hsending, hwriter'⟩
    · exact .inr hreturned
    · exact .inl ⟨(step_stays s e).2 hbroken, .inr ⟨⟨pkt, hsending⟩, f, n, next, hwriter'⟩⟩

theorem step_returned (hwf : s.Wf) (hph : s.Phases c) (h : s.frame_pump = .returned) (e : Event) :
    (step c s e).frame_pump = .returned := by
  rcases step_frame_pump hwf hph (.inr h) e with hsame | ⟨pkt, hlocking, -⟩
  · exact hsame.trans h
  · rw [h] at hlocking
    cases hlocking

theorem Unfed.step (hwf : s.Wf) (hph : s.Phases c) (h : s.Unfed c) {e : Event} (hpush : e.isPush = false) :
    (step c s e).Unfed c := by
  rcases h with h | h | h | h | h
  · exact .inl ((step_stays s e).1 h)
  · exact .inr (.inl (le_trans h (step_rank hwf e)))
  · exact .inr (.inr (.inl (step_returned hwf hph h e)))
  · rcases h.step hph hpush with h | h
    · exact .inr (.inr (.inr (.inl h)))
    · exact .inl h
  · rcases h.step hwf hph e with h | h
    · exact .inr (.inr (.inr (.inr h)))
    · exact .inr (.inr (.inl h))

end Session

namespace Pipeline

variable {ε : Type} (c : SessionConfig)

/-- `Pipeline::start`, where there is a screen. -/
def start (pts_epoch : ℕ) : Pipeline ε where
  session := Session.start c
  stop := false
  idr_request := false
  keepalive_uses := 0
  point := if c.screen_off then .unspawned else .head
  has_real_frame := false
  last_pointer := none
  start_instant := pts_epoch
  submitted := []

/-- `while !self.stop.load() { .. }`, and the first line of `tick`. -/
def testStop (p : Pipeline ε) : Pipeline ε :=
  match p.point with
  | .head =>
    if p.stop then { p with point := .returned (.ok ()) }
    else { p with point := .acquiring p.idr_request, idr_request := false }
  | _ => p

/-- Errors of the tonemapper and of the cursor are only logged. -/
def acquire (p : Pipeline ε) (result : Except ε (Option (Option PointerPosition))) (now : ℕ) :
    Pipeline ε :=
  match p.point with
  | .acquiring force_idr =>
    match result with
    | .error e => { p with point := .returned (.error e) }
    | .ok (some pointer_position) =>
      { p with
        point := .converting force_idr now
        has_real_frame := true
        last_pointer := pointer_position.or p.last_pointer }
    | .ok none =>
      { p with
        point := .converting force_idr now
        keepalive_uses := p.keepalive_uses + 1 }
  | _ => p

def convert (p : Pipeline ε) (result : Except ε Unit) : Pipeline ε :=
  match p.point with
  | .converting force_idr now =>
    match result with
    | .error e => { p with point := .returned (.error e) }
    -- `duration_since` saturates, as the subtraction does
    | .ok () => { p with point := .submitting force_idr (Int64.ofNat (now - p.start_instant)) }
  | _ => p

def submit (p : Pipeline ε) (result : Except ε Unit) : Pipeline ε :=
  match p.point with
  | .submitting force_idr pts_ns =>
    match result with
    | .error e => { p with point := .returned (.error e) }
    | .ok () => { p with point := .polling, submitted := p.submitted ++ [(pts_ns, force_idr)] }
  | _ => p

def tryPacket (p : Pipeline ε) (result : Except ε (Option EncodedPacket)) : Pipeline ε :=
  match p.point with
  | .polling =>
    match result with
    | .error e => { p with point := .returned (.error e) }
    | .ok (some pkt) => { p with session := Session.step c p.session (.push pkt) }
    | .ok none => { p with point := .head }
  | _ => p

def storeStop (p : Pipeline ε) : Pipeline ε :=
  if p.session.run = .stopping then { p with stop := true } else p

/-- A step of the session.  What closes the queue, `engine.stop` or a drop of the engine, has stored `stop`
before; and only the thread pushes. -/
def sessionStep (p : Pipeline ε) (e : Event) : Pipeline ε :=
  if e.isPush then p
  else
    let session := Session.step c p.session e
    { p with session := session, stop := p.stop || session.queue.closed }

def step (p : Pipeline ε) : PipelineEvent ε → Pipeline ε
  | .testStop => p.testStop
  | .acquire result now => p.acquire result now
  | .convert result => p.convert result
  | .submit result => p.submit result
  | .tryPacket result => tryPacket c p result
  | .requestIdr => { p with idr_request := true }
  | .storeStop => p.storeStop
  | .session e => sessionStep c p e

/-- The pipeline and its session behind the events `es`. -/
def after (pts_epoch : ℕ) (es : List (PipelineEvent ε)) : Pipeline ε :=
  es.foldl (step c) (start c pts_epoch)

/-- What a step is to the session. -/
def sessionEvents (p : Pipeline ε) : PipelineEvent ε → List Event
  | .tryPacket (.ok (some pkt)) =>
    match p.point with
    | .polling => [.push pkt]
    | _ => []
  | .session e => if e.isPush then [] else [e]
  | _ => []

theorem step_session (p : Pipeline ε) (e : PipelineEvent ε) :
    (step c p e).session = (p.sessionEvents e).foldl (Session.step c) p.session := by
  cases e with
  | testStop =>
      rw [step, testStop]
      repeat' split
      all_goals rfl
  | acquire result now =>
      rw [step, acquire]
      repeat' split
      all_goals rfl
  | convert result =>
      rw [step, convert]
      repeat' split
      all_goals rfl
  | submit result =>
      rw [step, submit]
      repeat' split
      all_goals rfl
  | tryPacket result =>
      cases hpoint : p.point with
      | polling =>
          rcases result with e | _ | pkt
          all_goals
            simp only [step, tryPacket, sessionEvents, hpoint]
            rfl
      | _ =>
          rcases result with e | _ | pkt
          all_goals
            simp only [step, tryPacket, sessionEvents, hpoint]
            rfl
  | requestIdr => rfl
  | storeStop =>
      rw [step, storeStop]
      split <;> rfl
  | session e =>
      rw [step, sessionStep, sessionEvents]
      split <;> rfl

/-- **The session of a pipeline is a session.**  Its runs are runs of `Session.step`, with the pushes where
the encode thread makes them. -/
theorem after_session (pts_epoch : ℕ) (es : List (PipelineEvent ε)) :
    ∃ events, (after c pts_epoch es).session = Session.after c events := by
  induction es using List.reverseRecOn with
  | nil => exact ⟨[], rfl⟩
  | append_singleton es e ih =>
      obtain ⟨events, hevents⟩ := ih
      refine ⟨events ++ (after c pts_epoch es).sessionEvents e, ?_⟩
      rw [Session.after, List.foldl_append, ← Session.after, ← hevents, ← step_session, after, after,
        List.foldl_concat]

/-! ### The frozen picture -/

/-- The encode thread is gone and the session goes on, but the queue is open and `frame_pump` waits on
it. -/
def Frozen (p : Pipeline ε) : Prop :=
  p.point.isReturned = true ∧ p.session.queue.closed = false ∧
    (p.session.frame_pump = .selecting false ∨ p.session.frame_pump = .selecting true) ∧
      p.session.run.rank < RunPhase.stopping.rank

instance (p : Pipeline ε) : Decidable p.Frozen :=
  inferInstanceAs (Decidable (_ ∧ _ ∧ (_ ∨ _) ∧ _))

/-- The step is one of the four that end the tick with an error. -/
def Fails (p : Pipeline ε) : PipelineEvent ε → Prop
  | .acquire (.error _) _ => ∃ force_idr, p.point = .acquiring force_idr
  | .convert (.error _) => ∃ force_idr now, p.point = .converting force_idr now
  | .submit (.error _) => ∃ force_idr pts_ns, p.point = .submitting force_idr pts_ns
  | .tryPacket (.error _) => p.point = .polling
  | _ => False

/-- No tick fails while the session lives on packets. -/
def Calm (p : Pipeline ε) (e : PipelineEvent ε) : Prop := p.Fails e → p.session.Unfed c

variable {c : SessionConfig} {p : Pipeline ε}

structure Inv (c : SessionConfig) (p : Pipeline ε) : Prop where
  wf : p.session.Wf
  phases : p.session.Phases c
  stop : p.stop = true → p.session.queue.closed = true ∨ RunPhase.stopping.rank ≤ p.session.run.rank
  returned : p.point.isReturned = true → p.session.Unfed c

theorem start_inv (pts_epoch : ℕ) : (start c pts_epoch : Pipeline ε).Inv c where
  wf := Session.start_wf
  phases := Session.start_phases
  stop := nofun
  returned := by
    intro h
    rw [start] at h
    cases hoff : c.screen_off <;> rw [hoff] at h <;> cases h

/-- The thread goes on. -/
theorem Inv.goesOn {p' : Pipeline ε} (h : p.Inv c) (hsession : p'.session = p.session)
    (hstop : p'.stop = p.stop) (hpoint : p'.point.isReturned = false) : p'.Inv c where
  wf := by rw [hsession]; exact h.wf
  phases := by rw [hsession]; exact h.phases
  stop := by rw [hsession, hstop]; exact h.stop
  returned := fun hreturned => absurd (hpoint.symm.trans hreturned) nofun

/-- The thread returns. -/
theorem Inv.returns {p' : Pipeline ε} (h : p.Inv c) (hsession : p'.session = p.session)
    (hstop : p'.stop = p.stop) (hunfed : p.session.Unfed c) : p'.Inv c where
  wf := by rw [hsession]; exact h.wf
  phases := by rw [hsession]; exact h.phases
  stop := by rw [hsession, hstop]; exact h.stop
  returned := by rw [hsession]; exact fun _ => hunfed

theorem testStop_inv (h : p.Inv c) : p.testStop.Inv c := by
  rw [testStop]
  split
  case h_1 hpoint =>
    split
    case isTrue hstop =>
      refine h.returns rfl rfl ?_
      rcases h.stop hstop with hclosed | hrank
      · exact .inl hclosed
      · exact .inr (.inl hrank)
    case isFalse => exact h.goesOn rfl rfl rfl
  case h_2 => exact h

theorem acquire_inv (h : p.Inv c) (result : Except ε (Option (Option PointerPosition))) (now : ℕ)
    (hcalm : p.Calm c (.acquire result now)) : (p.acquire result now).Inv c := by
  rw [acquire]
  split
  case h_1 force_idr hpoint =>
    split
    case h_1 e => exact h.returns rfl rfl (hcalm ⟨force_idr, hpoint⟩)
    case h_2 => exact h.goesOn rfl rfl rfl
    case h_3 => exact h.goesOn rfl rfl rfl
  case h_2 => exact h

theorem convert_inv (h : p.Inv c) (result : Except ε Unit) (hcalm : p.Calm c (.convert result)) :
    (p.convert result).Inv c := by
  rw [convert]
  split
  case h_1 force_idr now hpoint =>
    cases result with
    | error e => exact h.returns rfl rfl (hcalm ⟨force_idr, now, hpoint⟩)
    | ok _ => exact h.goesOn rfl rfl rfl
  case h_2 => exact h

theorem submit_inv (h : p.Inv c) (result : Except ε Unit) (hcalm : p.Calm c (.submit result)) :
    (p.submit result).Inv c := by
  rw [submit]
  split
  case h_1 force_idr pts_ns hpoint =>
    cases result with
    | error e => exact h.returns rfl rfl (hcalm ⟨force_idr, pts_ns, hpoint⟩)
    | ok _ => exact h.goesOn rfl rfl rfl
  case h_2 => exact h

theorem tryPacket_inv (h : p.Inv c) (result : Except ε (Option EncodedPacket))
    (hcalm : p.Calm c (.tryPacket result)) : (tryPacket c p result).Inv c := by
  unfold tryPacket
  split
  case h_1 hpoint =>
    split
    case h_1 e => exact h.returns rfl rfl (hcalm hpoint)
    case h_2 pkt =>
      refine ⟨Session.step_wf h.wf (.push pkt), Session.step_phases h.wf h.phases (.push pkt),
        fun hstop => ?_, ?_⟩
      · rcases h.stop hstop with hclosed | hrank
        · exact .inl ((Session.step_stays p.session (.push pkt)).1 hclosed)
        · exact .inr (le_trans hrank (Session.step_rank h.wf (.push pkt)))
      · intro hreturned
        have hpolling : p.point.isReturned = true := hreturned
        rw [hpoint] at hpolling
        cases hpolling
    case h_3 => exact h.goesOn rfl rfl rfl
  case h_2 => exact h

theorem storeStop_inv (h : p.Inv c) : p.storeStop.Inv c := by
  rw [storeStop]
  split
  case isTrue hrun =>
    refine ⟨h.wf, h.phases, fun _ => .inr ?_, h.returned⟩
    rw [hrun]
  case isFalse => exact h

theorem sessionStep_inv (h : p.Inv c) (e : Event) : (sessionStep c p e).Inv c := by
  rw [sessionStep]
  split
  case isTrue => exact h
  case isFalse hpush =>
    refine ⟨Session.step_wf h.wf e, Session.step_phases h.wf h.phases e, fun hstop => ?_,
      fun hreturned => ?_⟩
    · rcases Bool.or_eq_true_iff.1 hstop with hstop | hclosed
      · rcases h.stop hstop with hclosed | hrank
        · exact .inl ((Session.step_stays p.session e).1 hclosed)
        · exact .inr (le_trans hrank (Session.step_rank h.wf e))
      · exact .inl hclosed
    · exact (h.returned hreturned).step h.wf h.phases (Bool.eq_false_iff.2 hpush)

theorem step_inv (p : Pipeline ε) (e : PipelineEvent ε) (h : p.Inv c) (hcalm : p.Calm c e) :
    (step c p e).Inv c := by
  cases e with
  | testStop => exact testStop_inv h
  | acquire result now => exact acquire_inv h result now hcalm
  | convert result => exact convert_inv h result hcalm
  | submit result => exact submit_inv h result hcalm
  | tryPacket result => exact tryPacket_inv h result hcalm
  | requestIdr => exact ⟨h.wf, h.phases, h.stop, h.returned⟩
  | storeStop => exact storeStop_inv h
  | session e => exact sessionStep_inv h e

/-- What is fed no more waits no more. -/
theorem Inv.unwatched (h : p.Inv c) : ¬ p.Frozen := by
  rintro ⟨hreturned, hopen, hwaits, hrank⟩
  have hselecting : ∃ b, p.session.frame_pump = .selecting b := by
    rcases hwaits with hwaits | hwaits
    · exact ⟨false, hwaits⟩
    · exact ⟨true, hwaits⟩
  obtain ⟨b, hpump⟩ := hselecting
  rcases h.returned hreturned with hclosed | hstopping | hgone | hawait |
    ⟨-, ⟨pkt, hlocking⟩ | ⟨⟨pkt, hsending⟩, -⟩⟩
  · rw [hopen] at hclosed
    cases hclosed
  · omega
  · rw [hpump] at hgone
    cases hgone
  · rw [(h.phases.unspawned (.inl hawait.1)).1] at hpump
    cases hpump
  · rw [hpump] at hlocking
    cases hlocking
  · rw [hpump] at hsending
    cases hsending

/-- **A dead encode thread is noticed where nothing lives on its packets.**  In a run in which no tick
fails while the session is fed by the queue, no picture freezes. -/
theorem not_frozen (pts_epoch : ℕ) {es : List (PipelineEvent ε)}
    (h : Run.Steps (step c) (Calm c) (start c pts_epoch) es) : ¬ (after c pts_epoch es).Frozen :=
  (Run.Steps.invariant step_inv (start_inv pts_epoch) h).unwatched

/-! ### The picture freezes and stays -/

/-- A tick that fails while `frame_pump` waits on the open queue freezes the picture. -/
theorem frozen_of_fails {e : PipelineEvent ε} (hfails : p.Fails e)
    (hopen : p.session.queue.closed = false)
    (hwaits : p.session.frame_pump = .selecting false ∨ p.session.frame_pump = .selecting true)
    (hrank : p.session.run.rank < RunPhase.stopping.rank) : (step c p e).Frozen := by
  have hreturns : ∀ p' : Pipeline ε, p'.session = p.session → p'.point.isReturned = true → p'.Frozen := by
    intro p' hsession hreturned
    refine ⟨hreturned, ?_⟩
    rw [hsession]
    exact ⟨hopen, hwaits, hrank⟩
  cases e with
  | acquire result now =>
      cases result with
      | error e =>
          obtain ⟨force_idr, hpoint⟩ := hfails
          simp only [step, acquire, hpoint]
          exact hreturns _ rfl rfl
      | ok frame => exact hfails.elim
  | convert result =>
      cases result with
      | error e =>
          obtain ⟨force_idr, now, hpoint⟩ := hfails
          simp only [step, convert, hpoint]
          exact hreturns _ rfl rfl
      | ok _ => exact hfails.elim
  | submit result =>
      cases result with
      | error e =>
          obtain ⟨force_idr, pts_ns, hpoint⟩ := hfails
          simp only [step, submit, hpoint]
          exact hreturns _ rfl rfl
      | ok _ => exact hfails.elim
  | tryPacket result =>
      cases result with
      | error e =>
          have hpoint : p.point = .polling := hfails
          simp only [step, tryPacket, hpoint]
          exact hreturns _ rfl rfl
      | ok pkt => exact hfails.elim
  | testStop => exact hfails.elim
  | requestIdr => exact hfails.elim
  | storeStop => exact hfails.elim
  | session e => exact hfails.elim

/-- Nothing on the side of the pipeline ends it: a thread that has returned stays as it is. -/
theorem Frozen.stays (h : p.Frozen) {e : PipelineEvent ε} (he : ∀ e', e ≠ .session e') :
    (step c p e).Frozen := by
  obtain ⟨hreturned, hrest⟩ := h
  have hpoint : ∃ result, p.point = .returned result := by
    cases hpoint : p.point with
    | returned result => exact ⟨result, rfl⟩
    | _ =>
        rw [hpoint] at hreturned
        cases hreturned
  obtain ⟨result, hpoint⟩ := hpoint
  cases e with
  | session e => exact absurd rfl (he e)
  | storeStop =>
      rw [step, storeStop]
      split
      · exact ⟨hreturned, hrest⟩
      · exact ⟨hreturned, hrest⟩
  | requestIdr => exact ⟨hreturned, hrest⟩
  | testStop =>
      simp only [step, testStop, hpoint]
      exact ⟨hreturned, hrest⟩
  | acquire result now =>
      simp only [step, acquire, hpoint]
      exact ⟨hreturned, hrest⟩
  | convert result =>
      simp only [step, convert, hpoint]
      exact ⟨hreturned, hrest⟩
  | submit result =>
      simp only [step, submit, hpoint]
      exact ⟨hreturned, hrest⟩
  | tryPacket result =>
      simp only [step, tryPacket, hpoint]
      exact ⟨hreturned, hrest⟩

/-- A tick of which nothing fails, up to the packets that are ready. -/
def goodTick (now : ℕ) (pkt : EncodedPacket) : List (PipelineEvent EngineError) :=
  [.testStop, .acquire (.ok (some none)) now, .convert (.ok ()), .submit (.ok ()),
    .tryPacket (.ok (some pkt))]

/-- The handshake with the first keyframe, and `frame_pump` in its `select!`. -/
def served : List (PipelineEvent EngineError) :=
  goodTick 0 (.idr 0) ++ [.session (.popTurn false), .session (.keyframe false), .session (.write 16),
    .session (.write 9), .session (.write 10), .session (.write 24), .session (.flush true),
    .session (.enterSelect .framePump)]

/-- The connection is gone before the capture is. -/
theorem not_frozen_cut : ¬ (after (.fullHd false 1) 0 (served ++ [.tryPacket (.ok (some (.delta 1))),
    .session (.popTurn false), .session .selectPop, .session (.lock .framePump), .session .writeFails,
    .tryPacket (.ok none), .testStop, .acquire (.error EngineError.win32) 2])).Frozen :=
  not_frozen 0 ⟨nofun, nofun, nofun, nofun, nofun, nofun, nofun, nofun, nofun, nofun, nofun, nofun, nofun,
    nofun, nofun, nofun, nofun, nofun, nofun, nofun,
    fun _ => .inr (.inr (.inl (by decide +kernel))), trivial⟩

/-- The capture is lost while the client watches: nothing is pushed any more, and nobody is told. -/
theorem frozen_behind_error :
    ¬ ∀ (c : SessionConfig) (pts_epoch : ℕ) (es : List (PipelineEvent EngineError)),
      ¬ (after c pts_epoch es).Frozen := by
  intro h
  refine h (.fullHd false 1) 0 (served ++ [.tryPacket (.ok none), .testStop,
    .acquire (.error .win32) 1]) ?_
  decide +kernel

end Pipeline

end Penflow
