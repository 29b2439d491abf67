import Penflow.Server.Script

/-!
# The shutdown of a session

`notify_waiters` wakes the `Notified` futures it finds and stores no permit, and a join that times out
leaves its pump running.  So a pump hears of the end just when the notification finds it in its `select!`
and the `select!` then ends with it; a pump that does not hear of it runs on behind the goodbye, and ends
only with a failure.
-/

namespace Penflow

/-- The pump sends nothing more: it is not there, or has been told to end. -/
def Pump.Over {α : Type} (p : Pump α) : Prop := p = .unspawned ∨ p = .selecting true ∨ p = .returned

/-- The notification reaches the pump, or need not. -/
def Pump.Listening {α : Type} (p : Pump α) : Prop :=
  p = .unspawned ∨ (∃ b, p = .selecting b) ∨ p = .returned

instance {α : Type} [DecidableEq α] (p : Pump α) : Decidable p.Listening :=
  inferInstanceAs (Decidable (_ ∨ _ ∨ _))

theorem Pump.Listening.notify {α : Type} {p : Pump α} (h : p.Listening) : p.notify.Over := by
  rcases h with rfl | ⟨b, rfl⟩ | rfl
  · exact .inl rfl
  · exact .inr (.inl rfl)
  · exact .inr (.inr rfl)

theorem Pump.Over.listening {α : Type} {p : Pump α} (h : p.Over) : p.Listening := by
  rcases h with h | h | h
  · exact .inl h
  · exact .inr (.inl ⟨true, h⟩)
  · exact .inr (.inr h)

/-- The pump is still in its loop. -/
def Pump.InLoop {α : Type} (p : Pump α) : Prop := p ≠ .unspawned ∧ p ≠ .returned

/-- A write or a flush that fails, and a pop that panics. -/
def Event.failure : Event → Bool
  | .writeFails => true
  | .flush ok => !ok
  | .popPanics => true
  | _ => false

/-- An event of no pump. -/
def Event.apart : Event → Bool
  | .enterSelect _ | .selectStop _ | .selectPop | .selectTick | .lock _ | .writeFails | .flush _
  | .notify => false
  | _ => true

namespace Session

variable {c : SessionConfig} {s : Session}

def InLoop (s : Session) : Task → Prop
  | .framePump => s.frame_pump.InLoop
  | .telemetryPump => s.telemetry_pump.InLoop
  | _ => False

/-- No video and no telemetry behind a goodbye. -/
def GoodbyeLast (fs : List Frame) : Prop :=
  fs.Pairwise fun f g => f.msg_id = msgPcGoodbye → g.msg_id ≠ msgVideoFrame ∧ g.msg_id ≠ msgTelemetry

/-- The stop is signalled and the queue is closed, but the pump is in its loop, and stays there in every
run on without a failure. -/
def Stuck (c : SessionConfig) (s : Session) (t : Task) : Prop :=
  s.stopped = true ∧ s.queue.closed = true ∧ s.InLoop t ∧
    ∀ es : List Event, (∀ e ∈ es, e.failure = false) → (es.foldl (step c) s).InLoop t

/-- The step leaves the notification to no pump that misses it: `notify_waiters` finds every pump in its
`select!`, and a `select!` that was notified does not end with the pop or the tick. -/
def Heard (s : Session) : Event → Prop
  | .notify => s.run = .notifying → s.frame_pump.Listening ∧ s.telemetry_pump.Listening
  | .selectPop => s.frame_pump = .selecting true → s.pop = .idle ∨ s.pop = .running
  | .selectTick => s.telemetry_pump ≠ .selecting true
  | _ => True

instance (fs : List Frame) : Decidable (GoodbyeLast fs) :=
  inferInstanceAs (Decidable (List.Pairwise _ fs))

instance (s : Session) : ∀ e, Decidable (s.Heard e)
  | .notify => inferInstanceAs (Decidable (s.run = .notifying → _))
  | .selectPop => inferInstanceAs (Decidable (s.frame_pump = .selecting true → _))
  | .selectTick => inferInstanceAs (Decidable (s.telemetry_pump ≠ .selecting true))
  | .push _ | .popTurn _ | .popPanics | .keyframe _ | .enterSelect _ | .selectStop _
  | .receive _ _ _ _ | .readEnds | .lock _ | .write _ | .writeFails | .flush _ | .cancel
  | .readLoopEnded | .finish | .joined _ | .engineStop => .isTrue trivial

/-! ### The pumps that have heard -/

theorem step_apart (s : Session) {e : Event} (h : e.apart = true) :
    (step c s e).frame_pump = s.frame_pump ∧ (step c s e).telemetry_pump = s.telemetry_pump ∧
      (step c s e).stopped = s.stopped := by
  cases e with
  | push pkt =>
      rw [step, push]
      split <;> exact ⟨rfl, rfl, rfl⟩
  | popTurn expired =>
      rw [step, popTurn]
      repeat' split
      all_goals exact ⟨rfl, rfl, rfl⟩
  | popPanics =>
      rw [step, popPanics]
      split <;> exact ⟨rfl, rfl, rfl⟩
  | keyframe expired =>
      rw [step, waitForKeyframe]
      unfold greet
      repeat' split
      all_goals exact ⟨rfl, rfl, rfl⟩
  | receive msg_id payload t2 t3 =>
      rw [step, receive]
      repeat' split
      all_goals exact ⟨rfl, rfl, rfl⟩
  | readEnds =>
      rw [step, readEnds]
      split <;> exact ⟨rfl, rfl, rfl⟩
  | write n =>
      rw [step]
      rcases write_cases s n with hsame | ⟨t, f, k, next, -, -, -, ⟨-, hpart⟩ | ⟨-, hall⟩⟩
      · rw [hsame]
        exact ⟨rfl, rfl, rfl⟩
      · rw [hpart]
        exact ⟨rfl, rfl, rfl⟩
      · rw [hall]
        exact ⟨rfl, rfl, rfl⟩
  | cancel =>
      rw [step, cancel]
      split <;> exact ⟨rfl, rfl, rfl⟩
  | readLoopEnded =>
      rw [step, readLoopEnded]
      split <;> exact ⟨rfl, rfl, rfl⟩
  | finish =>
      rw [step, finish]
      repeat' split
      all_goals exact ⟨rfl, rfl, rfl⟩
  | joined timed_out =>
      rw [step, joined]
      repeat' split
      all_goals exact ⟨rfl, rfl, rfl⟩
  | engineStop =>
      rw [step, engineStop]
      split <;> exact ⟨rfl, rfl, rfl⟩
  | enterSelect t => cases h
  | selectStop t => cases h
  | selectPop => cases h
  | selectTick => cases h
  | lock t => cases h
  | writeFails => cases h
  | flush ok => cases h
  | notify => cases h

/-- Only the notification signals the stop. -/
theorem step_stopped {e : Event} (h : (step c s e).stopped = true) :
    s.stopped = true ∨ e = .notify ∧ s.run = .notifying := by
  by_cases hapart : e.apart = true
  · rw [(step_apart s hapart).2.2] at h
    exact .inl h
  by_cases haside : e.aside = true
  · rw [(step_sameRun haside).stopped] at h
    exact .inl h
  refine or_iff_not_imp_right.2 fun hother => ?_
  cases e with
  | lock t =>
      revert h
      rw [step]
      unfold lock
      repeat' split
      all_goals exact id
  | writeFails =>
      revert h
      rw [step, writeFails]
      unfold sendFailed failRun
      repeat' split
      all_goals first
        | exact id
        | contradiction
  | flush ok =>
      revert h
      rw [step, flush]
      unfold sendFailed sent failRun spawn
      repeat' split
      all_goals exact id
  | notify =>
      have hrun : s.run ≠ .notifying := fun hrun => hother ⟨rfl, hrun⟩
      rwa [step, notify, if_neg hrun] at h
  | _ => first | exact absurd rfl hapart | exact absurd rfl haside

/-- Behind a send, the pumps that have heard are as before: the sender was no such pump. -/
theorem sent_over (hwf : s.Wf) {t : Task} {w : Writing} (hwriter : s.writer = some (t, w))
    (hrun : s.run ≠ .greeting) (hframe : s.frame_pump.Over) (htelemetry : s.telemetry_pump.Over) :
    (sent c s t).frame_pump.Over ∧ (sent c s t).telemetry_pump.Over := by
  have hsending := hwf.holder _ _ hwriter
  cases t with
  | run =>
      rw [sent, if_neg hrun]
      exact ⟨hframe, htelemetry⟩
  | framePump =>
      obtain ⟨pkt, hpump, -⟩ := hsending
      rw [Pump.Over, hpump] at hframe
      simp at hframe
  | telemetryPump =>
      obtain ⟨tel, hpump, -⟩ := hsending
      rw [Pump.Over, hpump] at htelemetry
      simp at htelemetry
  | readLoop => exact ⟨hframe, htelemetry⟩

/-- Pumps that have heard of the end only return. -/
theorem step_over (hwf : s.Wf) (hph : s.Phases c) (hstopped : s.stopped = true)
    (hframe : s.frame_pump.Over) (htelemetry : s.telemetry_pump.Over) (e : Event)
    (hheard : s.Heard e) : (step c s e).frame_pump.Over ∧ (step c s e).telemetry_pump.Over := by
  have hgreet : s.run ≠ .greeting := by
    intro hgreet
    have hrun := hph.stopped.1 hstopped
    rw [hgreet] at hrun
    simp at hrun
  by_cases hapart : e.apart = true
  · obtain ⟨hframe', htelemetry', -⟩ := step_apart (c := c) s hapart
    rw [hframe', htelemetry']
    exact ⟨hframe, htelemetry⟩
  cases e with
  | enterSelect t =>
      rw [step]
      rcases enterSelect_cases s t with heq | ⟨hhead, -⟩ | ⟨hhead, -⟩
      · rw [heq]
        exact ⟨hframe, htelemetry⟩
      · rw [hhead] at hframe
        simp [Pump.Over] at hframe
      · rw [hhead] at htelemetry
        simp [Pump.Over] at htelemetry
  | selectStop t =>
      rw [step]
      rcases selectStop_cases s t with heq | ⟨-, heq⟩ | ⟨-, heq⟩
      · rw [heq]
        exact ⟨hframe, htelemetry⟩
      · rw [heq]
        exact ⟨.inr (.inr rfl), htelemetry⟩
      · rw [heq]
        exact ⟨hframe, .inr (.inr rfl)⟩
  | selectPop =>
      rw [step]
      rcases selectPop_cases s with heq | ⟨notified, hselect, hpop⟩
      · rw [heq]
        exact ⟨hframe, htelemetry⟩
      · -- it has the notification, so that the pop is not over
        obtain rfl : notified = true := by simpa [hselect, Pump.Over] using hframe
        have hwaits := hheard hselect
        rcases hpop with ⟨pkt, hpop, -⟩ | ⟨hpop, -⟩ | ⟨hpop, -⟩
        all_goals
          rw [hpop] at hwaits
          rcases hwaits with hwaits | hwaits <;> cases hwaits
  | selectTick =>
      rw [step]
      rcases selectTick_cases s with heq | ⟨notified, hselect, -⟩
      · rw [heq]
        exact ⟨hframe, htelemetry⟩
      · obtain rfl : notified = true := by simpa [hselect, Pump.Over] using htelemetry
        exact absurd hselect hheard
  | lock t =>
      rw [step]
      rcases lock_cases s t with heq | ⟨-, ⟨-, -, heq⟩ | ⟨-, pkt, hlocking, -⟩ | ⟨-, tel, hlocking, -⟩ |
        ⟨-, resp, -, heq⟩⟩
      · rw [heq]
        exact ⟨hframe, htelemetry⟩
      · rw [heq]
        exact ⟨hframe, htelemetry⟩
      · rw [hlocking] at hframe
        simp [Pump.Over] at hframe
      · rw [hlocking] at htelemetry
        simp [Pump.Over] at htelemetry
      · rw [heq]
        exact ⟨hframe, htelemetry⟩
  | writeFails =>
      rw [step]
      rcases writeFails_cases c s with heq | ⟨t, f, k, next, hwriter, heq⟩
      · rw [heq]
        exact ⟨hframe, htelemetry⟩
      · rw [heq]
        cases t with
        | run =>
            rw [sendFailed, if_neg hgreet]
            exact ⟨hframe, htelemetry⟩
        | framePump => exact ⟨.inr (.inr rfl), htelemetry⟩
        | telemetryPump => exact ⟨hframe, .inr (.inr rfl)⟩
        | readLoop => exact ⟨hframe, htelemetry⟩
  | flush ok =>
      rw [step, flush]
      split
      case h_1 t hwriter =>
        have hsent := sent_over (c := c) hwf hwriter hgreet hframe htelemetry
        cases ok with
        | true => exact hsent
        | false =>
            show (sendFailed c s true t).frame_pump.Over ∧ (sendFailed c s true t).telemetry_pump.Over
            cases t with
            | run =>
                rw [sendFailed, if_neg hgreet, if_pos rfl]
                exact hsent
            | framePump => exact ⟨.inr (.inr rfl), htelemetry⟩
            | telemetryPump => exact ⟨hframe, .inr (.inr rfl)⟩
            | readLoop => exact hsent
      case h_2 => exact ⟨hframe, htelemetry⟩
  | notify =>
      rw [step, notify]
      split
      · exact ⟨hframe.listening.notify, htelemetry.listening.notify⟩
      · exact ⟨hframe, htelemetry⟩
  | _ => exact absurd rfl hapart

/-! ### The goodbye -/

/-- The frames of the run and of the pumps, by who sends them. -/
structure Ending (s : Session) : Prop where
  both : s.stopped = true → s.frame_pump.Over ∧ s.telemetry_pump.Over
  goodbye : ∀ f ∈ s.script, f.msg_id = msgPcGoodbye → RunPhase.goodbye.rank ≤ s.run.rank
  last : GoodbyeLast s.script

theorem GoodbyeLast.of_none {fs : List Frame} (h : ∀ f ∈ fs, f.msg_id ≠ msgPcGoodbye) :
    GoodbyeLast fs :=
  List.pairwise_of_forall_mem_list fun f hf _ _ hid => absurd hid (h f hf)

/-- The frames of the handshake are no goodbye. -/
theorem handshake_msg_id {pkt : EncodedPacket} {f : Frame}
    (h : f ∈ [c.helloFrame, c.configFrame, c.csd0Frame pkt, firstFrame pkt]) :
    f.msg_id ≠ msgPcGoodbye := by
  simp only [List.mem_cons, List.not_mem_nil, or_false] at h
  rcases h with rfl | rfl | rfl | rfl
  · show msgHelloPc ≠ msgPcGoodbye
    decide
  · show msgClientConfig ≠ msgPcGoodbye
    decide
  · show msgVideoConfig ≠ msgPcGoodbye
    decide
  · show msgVideoFrame ≠ msgPcGoodbye
    decide

theorem start_ending : (start c).Ending := by
  have hscript : ∀ f ∈ (start c).script, f.msg_id ≠ msgPcGoodbye := by
    cases hoff : c.screen_off with
    | true =>
        have hframes : (start c).script = [c.helloFrame, c.configFrame] := by
          simp [start, script, Writing.unbegun, hoff]
        rw [hframes]
        intro f hf
        rcases List.mem_cons.1 hf with rfl | hf
        · show msgHelloPc ≠ msgPcGoodbye
          decide
        · rw [List.mem_singleton.1 hf]
          show msgClientConfig ≠ msgPcGoodbye
          decide
    | false =>
        have hframes : (start c).script = [] := by simp [start, script, hoff]
        rw [hframes]
        intro f hf
        cases hf
  refine ⟨fun hstopped => ?_, fun f hf hid => absurd hid (hscript f hf), .of_none hscript⟩
  cases hstopped

/-- Behind the goodbye no pump has anything to send. -/
theorem Ending.over_of_goodbye (hph : s.Phases c) (h : s.Ending)
    (hrank : RunPhase.goodbye.rank ≤ s.run.rank) : s.frame_pump.Over ∧ s.telemetry_pump.Over := by
  cases hoff : c.screen_off with
  | true =>
      obtain ⟨hframe, htelemetry, -⟩ := hph.screen_off hoff
      exact ⟨.inl hframe, .inl htelemetry⟩
  | false =>
      refine h.both ?_
      rw [hph.stopped_eq, hoff, decide_eq_true]
      · rfl
      · exact Nat.lt_of_lt_of_le (by decide) hrank

theorem begins_goodbyeLast (e : Event) : GoodbyeLast (begins c s e) := by
  cases e with
  | keyframe expired =>
      rw [begins]
      split
      · split
        · exact .of_none fun f hf => handshake_msg_id hf
        · exact List.Pairwise.nil
      · exact List.Pairwise.nil
  | lock t =>
      have hlen : (begins c s (.lock t)).length ≤ 1 := by
        cases hwriter : s.writer with
        | some held => simp [begins, hwriter]
        | none => cases t <;> simp only [begins, hwriter] <;> split <;> simp
      rcases hfs : begins c s (.lock t) with _ | ⟨f, _ | ⟨g, rest⟩⟩
      · exact List.Pairwise.nil
      · exact List.pairwise_singleton _ f
      · rw [hfs] at hlen
        exact absurd hlen (by simp)
  | _ => exact List.Pairwise.nil

/-- No pump that has heard begins a frame, and no goodbye has begun before the run says it. -/
theorem step_ending (hwf : s.Wf) (hph : s.Phases c) (h : s.Ending) (e : Event)
    (hheard : s.Heard e) : (step c s e).Ending := by
  have hrank := step_rank (c := c) hwf e
  refine ⟨?_, ?_, ?_⟩
  · intro hstopped'
    by_cases hstopped : s.stopped = true
    · obtain ⟨hframe, htelemetry⟩ := h.both hstopped
      exact step_over hwf hph hstopped hframe htelemetry e hheard
    · obtain ⟨rfl, hrun⟩ := (step_stopped hstopped').resolve_left hstopped
      obtain ⟨hframe, htelemetry⟩ := hheard hrun
      rw [step, notify, if_pos hrun]
      exact ⟨hframe.notify, htelemetry.notify⟩
  · intro f hf hid
    rcases script_step hwf hph e with hscript | hcut
    · rw [hscript] at hf
      rcases List.mem_append.1 hf with hf | hf
      · exact le_trans (h.goodbye f hf hid) hrank
      · rcases mem_begins hf with ⟨-, pkt, -, hshake⟩ | ⟨-, -, hrun⟩ | ⟨pkt, -, rfl⟩ | ⟨tel, -, rfl⟩ |
          ⟨resp, -, rfl⟩
        · exact absurd hid (handshake_msg_id hshake)
        · rw [hrun]
        · exact absurd hid (by decide : msgVideoFrame ≠ msgPcGoodbye)
        · exact absurd hid (by decide : msgTelemetry ≠ msgPcGoodbye)
        · exact absurd hid (by decide : msgTimeSyncResp ≠ msgPcGoodbye)
    · exact le_trans (h.goodbye f (hcut.front.subset hf) hid) hrank
  · rcases script_step hwf hph e with hscript | hcut
    · rw [hscript]
      refine List.pairwise_append.2 ⟨h.last, begins_goodbyeLast e, ?_⟩
      intro f hf g hg hid
      have hrun := h.goodbye f hf hid
      obtain ⟨hframe, htelemetry⟩ := h.over_of_goodbye hph hrun
      rcases mem_begins hg with ⟨hwait, -⟩ | ⟨rfl, -⟩ | ⟨pkt, hpump, rfl⟩ | ⟨tel, hpump, rfl⟩ |
        ⟨resp, -, rfl⟩
      · rw [hwait] at hrun
        exact absurd hrun (by decide)
      · exact ⟨by decide, by decide⟩
      · rw [hpump] at hframe
        simp [Pump.Over] at hframe
      · rw [hpump] at htelemetry
        simp [Pump.Over] at htelemetry
      · exact ⟨(by decide : msgTimeSyncResp ≠ msgVideoFrame),
          (by decide : msgTimeSyncResp ≠ msgTelemetry)⟩
    · exact h.last.sublist hcut.front.sublist

theorem Ending.not_stuck (h : s.Ending) (t : Task) : ¬ Stuck c s t := by
  rintro ⟨hstopped, -, hloop, hstays⟩
  have hrun : (step c s (.selectStop t)).InLoop t :=
    hstays [.selectStop t] fun e he => by rw [List.mem_singleton.1 he]; rfl
  obtain ⟨hframe, htelemetry⟩ := h.both hstopped
  cases t with
  | framePump =>
      obtain ⟨hspawned, hreturned⟩ := hloop
      obtain hpump : s.frame_pump = .selecting true :=
        (hframe.resolve_left hspawned).resolve_right hreturned
      simp [step, selectStop, hpump, InLoop, Pump.InLoop] at hrun
  | telemetryPump =>
      obtain ⟨hspawned, hreturned⟩ := hloop
      obtain hpump : s.telemetry_pump = .selecting true :=
        (htelemetry.resolve_left hspawned).resolve_right hreturned
      simp [step, selectStop, hpump, InLoop, Pump.InLoop] at hrun
  | run => exact hloop
  | readLoop => exact hloop

/-- **The shutdown.**  Where every pump hears of the end, nothing of a pump comes behind the goodbye, and
no pump is stuck. -/
theorem goodbye_is_last {es : List Event} (h : Run.Steps (step c) Heard (start c) es) :
    GoodbyeLast ((after c es).wire.map (·.frame)) ∧ ∀ t, ¬ Stuck c (after c es) t := by
  have hinv : ∀ (s : Session) (e : Event), (s.Wf ∧ s.Phases c ∧ s.Ending) → s.Heard e →
      ((step c s e).Wf ∧ (step c s e).Phases c ∧ (step c s e).Ending) := by
    rintro s e ⟨hwf, hph, hending⟩ hheard
    exact ⟨step_wf hwf e, step_phases hwf hph e, step_ending hwf hph hending e hheard⟩
  obtain ⟨-, -, hending⟩ := Run.Steps.invariant hinv ⟨start_wf, start_phases, start_ending⟩ h
  refine ⟨?_, hending.not_stuck⟩
  exact hending.last.sublist (List.prefix_append _ _).sublist

/-- Both pumps are in their `select!` when the notification comes. -/
theorem goodbye_is_last_quiet :
    let s := after (.fullHd false 4) [.push (.idr 0), .popTurn false, .keyframe false, .write 16,
      .write 9, .write 10, .write 24, .flush true, .enterSelect .framePump,
      .enterSelect .telemetryPump, .finish, .notify, .selectStop .framePump, .joined false,
      .selectStop .telemetryPump, .joined false, .lock .run, .write 5, .flush true, .engineStop]
    GoodbyeLast (s.wire.map (·.frame)) ∧ ∀ t, ¬ Stuck (.fullHd false 4) s t :=
  goodbye_is_last (by decide +kernel)

/-! ### A pump that has not heard -/

/-- The pump is in its loop without the notification. -/
def Missed (s : Session) : Prop :=
  s.telemetry_pump.InLoop ∧ s.telemetry_pump ≠ .selecting true

instance (s : Session) : Decidable s.Missed :=
  inferInstanceAs (Decidable ((_ ∧ _) ∧ _))

theorem step_missed (hph : s.Phases c) (hstopped : s.stopped = true) (h : s.Missed) {e : Event}
    (he : e.failure = false) : (step c s e).Missed := by
  have hrun := hph.stopped.1 hstopped
  by_cases hapart : e.apart = true
  · rw [Missed, (step_apart s hapart).2.1]
    exact h
  cases e with
  | enterSelect t =>
      rw [step]
      rcases enterSelect_cases s t with heq | ⟨-, heq⟩ | ⟨-, heq⟩
      · rw [heq]
        exact h
      · rw [heq]
        exact h
      · rw [heq]
        exact ⟨⟨by simp, by simp⟩, by simp⟩
  | selectStop t =>
      rw [step]
      rcases selectStop_cases s t with heq | ⟨-, heq⟩ | ⟨hselect, -⟩
      · rw [heq]
        exact h
      · rw [heq]
        exact h
      · exact absurd hselect h.2
  | selectPop =>
      rw [step]
      unfold selectPop
      split <;> exact h
  | selectTick =>
      rw [step]
      rcases selectTick_cases s with heq | ⟨notified, -, heq⟩
      · rw [heq]
        exact h
      · rw [heq]
        exact ⟨⟨by simp, by simp⟩, by simp⟩
  | lock t =>
      rw [step]
      rcases lock_cases s t with heq | ⟨-, ⟨-, -, heq⟩ | ⟨-, pkt, -, heq⟩ | ⟨-, tel, -, heq⟩ |
        ⟨-, resp, -, heq⟩⟩
      · rw [heq]
        exact h
      · rw [heq]
        exact h
      · rw [heq]
        exact h
      · rw [heq]
        exact ⟨⟨by simp, by simp⟩, by simp⟩
      · rw [heq]
        exact h
  | writeFails => cases he
  | flush ok =>
      obtain rfl : ok = true := by simpa [Event.failure] using he
      rw [step, flush]
      split
      case h_1 t hwriter =>
        cases t with
        | run =>
            show (sent c s .run).Missed
            have hgreet : s.run ≠ .greeting := by
              intro hgreet
              rw [hgreet] at hrun
              simp at hrun
            rw [sent, if_neg hgreet]
            exact h
        | framePump =>
            show (sent c s .framePump).Missed
            rw [sent]
            split <;> exact h
        | telemetryPump => exact ⟨⟨by simp [sent], by simp [sent]⟩, by simp [sent]⟩
        | readLoop => exact h
      case h_2 => exact h
  | notify =>
      have hnotify : s.run ≠ .notifying := by
        intro hnotify
        rw [hnotify] at hrun
        simp at hrun
      rw [step, notify, if_neg hnotify]
      exact h
  | _ => exact absurd rfl hapart

theorem Phases.stopped_iff_rank (h : s.Phases c) (hoff : c.screen_off = false) :
    s.stopped = true ↔ RunPhase.joiningFrame.rank ≤ s.run.rank := by
  rw [h.stopped_eq, hoff, Bool.not_false, Bool.true_and, decide_eq_true_eq]
  exact Nat.lt_iff_add_one_le

/-- The stop stays signalled. -/
theorem step_stopped_stays (hwf : s.Wf) (hph : s.Phases c) (hstopped : s.stopped = true) (e : Event) :
    (step c s e).stopped = true := by
  have hoff := (hph.stopped.1 hstopped).1
  refine ((step_phases hwf hph e).stopped_iff_rank hoff).2 ?_
  exact le_trans ((hph.stopped_iff_rank hoff).1 hstopped) (step_rank hwf e)

/-- A pump that has missed the notification goes on until a write fails. -/
theorem missed_stays (hwf : s.Wf) (hph : s.Phases c) (hstopped : s.stopped = true) (h : s.Missed)
    {es : List Event} (hes : ∀ e ∈ es, e.failure = false) : (es.foldl (step c) s).Missed := by
  induction es generalizing s with
  | nil => exact h
  | cons e es ih =>
      have he := hes e List.mem_cons_self
      exact ih (step_wf hwf e) (step_phases hwf hph e) (step_stopped_stays hwf hph hstopped e)
        (step_missed hph hstopped h he) fun e' he' => hes e' (List.mem_cons_of_mem e he')

theorem Missed.stuck (hwf : s.Wf) (hph : s.Phases c) (hstopped : s.stopped = true)
    (hclosed : s.queue.closed = true) (h : s.Missed) : Stuck c s .telemetryPump :=
  ⟨hstopped, hclosed, h.1, fun _ hes => (missed_stays hwf hph hstopped h hes).1⟩

/-- The telemetry pump is sending when the notification comes.  The join times out, the goodbye is sent,
and the next tick sends the telemetry behind it; the pump never ends. -/
def lateTelemetry : List Event :=
  [.push (.idr 0), .popTurn false, .keyframe false, .write 16, .write 9, .write 10, .write 24,
    .flush true, .enterSelect .framePump, .enterSelect .telemetryPump, .selectTick,
    .lock .telemetryPump, .finish, .notify, .selectStop .framePump, .joined false, .write 26,
    .flush true, .enterSelect .telemetryPump, .joined true, .lock .run, .write 5, .flush true,
    .engineStop, .selectTick, .lock .telemetryPump, .write 26]


theorem telemetry_behind_goodbye :
    (¬ ∀ (c : SessionConfig) (es : List Event), GoodbyeLast ((after c es).wire.map (·.frame))) ∧
      ¬ ∀ (c : SessionConfig) (es : List Event) (t : Task), ¬ Stuck c (after c es) t := by
  constructor
  · intro h
    exact absurd (h (.fullHd false 4) lateTelemetry) (by decide +kernel)
  · intro h
    refine h (.fullHd false 4) lateTelemetry .telemetryPump ?_
    obtain ⟨hwf, hph⟩ := after_wf_phases (.fullHd false 4) lateTelemetry
    refine Missed.stuck hwf hph ?_ ?_ ?_ <;> decide +kernel

end Session

end Penflow
