import Penflow.Lib.Run
import Penflow.Server.Writer

/-!
# The frames of a session

`script` lists the frames of a session in order: those on the wire and those the holder of the writer has
yet to begin.  A step appends the frames of the task that gets the writer (`begins`), or cuts off frames
not begun, of a task that ends with it (`script_step`).
-/

namespace Penflow

/-- How far `Session::run` is. -/
def RunPhase.rank : RunPhase → ℕ
  | .awaitKeyframe => 0
  | .greeting => 1
  | .failed => 2
  | .serving => 3
  | .notifying => 4
  | .joiningFrame => 5
  | .joiningTelemetry => 6
  | .lockingGoodbye => 7
  | .goodbye => 8
  | .stopping => 9
  | .done => 10

/-- The phases before `serving`. -/
theorem RunPhase.early_or_serving (phase : RunPhase) : phase = .awaitKeyframe ∨ phase = .greeting ∨
    phase = .failed ∨ RunPhase.serving.rank ≤ phase.rank := by
  cases phase <;> decide

namespace Session

variable {c : SessionConfig} {s : Session}

/-! ### The phases -/

/-- What the phase of `Session::run` says about the other tasks. -/
structure Phases (c : SessionConfig) (s : Session) : Prop where
  unspawned : s.run = .awaitKeyframe ∨ s.run = .greeting ∨ s.run = .failed →
    s.frame_pump = .unspawned ∧ s.telemetry_pump = .unspawned ∧ s.read_loop = .unspawned ∧
      s.aborted = false
  waiting : s.run = .awaitKeyframe → s.writer = none ∧ s.wire = [] ∧ s.broken = false
  failed : s.run = .failed → s.writer = none
  screen_off : c.screen_off = true → s.frame_pump = .unspawned ∧ s.telemetry_pump = .unspawned ∧
    s.run ≠ .awaitKeyframe ∧ s.aborted = false ∧ s.stopped = false ∧
      s.run ≠ .notifying ∧ s.run ≠ .joiningFrame ∧ s.run ≠ .joiningTelemetry ∧ s.run ≠ .stopping
  stopped : s.stopped = true ↔ c.screen_off = false ∧ (s.run = .joiningFrame ∨
    s.run = .joiningTelemetry ∨ s.run = .lockingGoodbye ∨ s.run = .goodbye ∨ s.run = .stopping ∨
      s.run = .done)

theorem start_phases : (start c).Phases c := by
  cases hoff : c.screen_off with
  | true => constructor <;> simp [start, hoff]
  | false => constructor <;> simp [start, hoff]

theorem Phases.stopped_eq (h : s.Phases c) : s.stopped = (!c.screen_off && decide (4 < s.run.rank)) := by
  rw [Bool.eq_iff_iff, h.stopped, Bool.and_eq_true, Bool.not_eq_true', decide_eq_true_eq]
  refine and_congr_right fun _ => ?_
  cases s.run <;> simp [RunPhase.rank]

/-- A step in which `Session::run` stays where it is. -/
theorem Phases.stay {s' : Session} (h : s.Phases c) (hrun : s'.run = s.run) (haborted : s'.aborted = s.aborted)
    (hstopped : s'.stopped = s.stopped)
    (hframe : s.frame_pump = .unspawned → s'.frame_pump = .unspawned)
    (htelemetry : s.telemetry_pump = .unspawned → s'.telemetry_pump = .unspawned)
    (hread : s.read_loop = .unspawned → s'.read_loop = .unspawned)
    (hquiet : s.run = .awaitKeyframe ∨ s.run = .failed →
      s'.writer = s.writer ∧ s'.wire = s.wire ∧ s'.broken = s.broken) : s'.Phases c := by
  refine ⟨?_, ?_, ?_, ?_, ?_⟩
  · intro hearly
    obtain ⟨h₁, h₂, h₃, h₄⟩ := h.unspawned (hrun ▸ hearly)
    exact ⟨hframe h₁, htelemetry h₂, hread h₃, haborted.trans h₄⟩
  · intro hwaiting
    rw [hrun] at hwaiting
    obtain ⟨hwriter, hwire, hbroken⟩ := hquiet (.inl hwaiting)
    rw [hwriter, hwire, hbroken]
    exact h.waiting hwaiting
  · intro hfailed
    rw [hrun] at hfailed
    rw [(hquiet (.inr hfailed)).1]
    exact h.failed hfailed
  · intro hoff
    obtain ⟨h₁, h₂, hrest⟩ := h.screen_off hoff
    rw [hrun, haborted, hstopped]
    exact ⟨hframe h₁, htelemetry h₂, hrest⟩
  · rw [hstopped, hrun]
    exact h.stopped

/-- A step that takes `Session::run` on before anything is spawned. -/
theorem Phases.early {s' : Session} (h : s.Phases c) (hrun : s.run = .awaitKeyframe ∨ s.run = .greeting)
    (hrun' : s'.run = .greeting ∨ s'.run = .failed ∧ s'.writer = none) (haborted : s'.aborted = s.aborted)
    (hstopped : s'.stopped = s.stopped) (hframe : s'.frame_pump = s.frame_pump)
    (htelemetry : s'.telemetry_pump = s.telemetry_pump) (hread : s'.read_loop = s.read_loop) :
    s'.Phases c := by
  have hunspawned := h.unspawned (hrun.imp_right .inl)
  have hnot : s.stopped = false := by
    rw [h.stopped_eq]
    rcases hrun with hrun | hrun <;> rw [hrun] <;> exact Bool.and_false _
  have hwaiting : s'.run ≠ .awaitKeyframe := by
    rcases hrun' with hrun' | ⟨hrun', -⟩ <;> rw [hrun'] <;> decide
  refine ⟨fun _ => ?_, fun heq => absurd heq hwaiting, ?_, fun hoff => ?_, ?_⟩
  · rw [hframe, htelemetry, hread, haborted]
    exact hunspawned
  · intro hfailed
    rcases hrun' with hrun' | ⟨-, hwriter⟩
    · rw [hrun'] at hfailed
      cases hfailed
    · exact hwriter
  · obtain ⟨h₁, h₂, -⟩ := h.screen_off hoff
    rw [hframe, htelemetry, haborted, hstopped]
    refine ⟨h₁, h₂, hwaiting, hunspawned.2.2.2, hnot, ?_⟩
    rcases hrun' with hrun' | ⟨hrun', -⟩ <;> rw [hrun'] <;> decide
  · rw [hstopped, hnot]
    rcases hrun' with hrun' | ⟨hrun', -⟩ <;> rw [hrun'] <;> simp

/-- A step behind which the tasks are spawned. -/
theorem Phases.past {s' : Session} (hrun : 2 < s'.run.rank)
    (hoff : c.screen_off = true → s'.frame_pump = .unspawned ∧ s'.telemetry_pump = .unspawned ∧
      s'.aborted = false ∧ (s'.run = .serving ∨ s'.run = .lockingGoodbye ∨ s'.run = .goodbye ∨ s'.run = .done))
    (hstopped : s'.stopped = (!c.screen_off && decide (4 < s'.run.rank))) : s'.Phases c := by
  have hne : ∀ phase : RunPhase, phase.rank ≤ 2 → s'.run ≠ phase := by
    intro phase hphase heq
    rw [heq] at hrun
    omega
  refine ⟨?_, fun heq => absurd heq (hne _ (by decide)), fun heq => absurd heq (hne _ (by decide)), ?_, ?_⟩
  · rintro (heq | heq | heq) <;> exact absurd heq (hne _ (by decide))
  · intro hscreen
    obtain ⟨h₁, h₂, h₃, hphase⟩ := hoff hscreen
    refine ⟨h₁, h₂, hne _ (by decide), h₃, ?_, ?_⟩
    · rw [hstopped, hscreen]
      rfl
    · rcases hphase with hphase | hphase | hphase | hphase <;> rw [hphase] <;> decide
  · rw [hstopped, Bool.and_eq_true, Bool.not_eq_true', decide_eq_true_eq]
    refine and_congr_right fun _ => ?_
    cases s'.run <;> simp [RunPhase.rank]

/-- The holder of the writer is neither before nor behind the session. -/
theorem Phases.holding (h : s.Phases c) {w : Task × Writing} (hwriter : s.writer = some w) :
    ¬ (s.run = .awaitKeyframe ∨ s.run = .failed) := by
  rintro (hrun | hrun)
  · rw [(h.waiting hrun).1] at hwriter
    cases hwriter
  · rw [h.failed hrun] at hwriter
    cases hwriter

theorem SameRun.phases {s' : Session} (hsame : s.SameRun s') (h : s.Phases c) : s'.Phases c :=
  h.stay hsame.same_run hsame.aborted hsame.stopped hsame.frame_unspawned hsame.telemetry_unspawned
    hsame.read_unspawned fun _ => ⟨hsame.writer, hsame.wire, hsame.broken⟩

theorem waitForKeyframe_phases (h : s.Phases c) (expired : Bool) :
    (waitForKeyframe c s expired).Phases c := by
  rcases waitForKeyframe_cases c s expired with heq | ⟨hrun, heq | heq | ⟨pkt, -, -, -, heq⟩⟩
  · rw [heq]
    exact h
  · rw [heq]
    exact h.early (.inl hrun) (.inr ⟨rfl, rfl⟩) rfl rfl rfl rfl rfl
  · rw [heq]
    exact h.stay rfl rfl rfl id id id fun _ => ⟨rfl, rfl, rfl⟩
  · rw [heq]
    exact h.early (.inl hrun) (.inl rfl) rfl rfl rfl rfl rfl

theorem lock_phases (h : s.Phases c) (t : Task) : (s.lock t).Phases c := by
  have hpump : s.frame_pump ≠ .unspawned ∨ s.telemetry_pump ≠ .unspawned ∨ s.read_loop ≠ .unspawned →
      ¬ (s.run = .awaitKeyframe ∨ s.run = .failed) := by
    intro hspawned hrun
    obtain ⟨h₁, h₂, h₃, -⟩ := h.unspawned (hrun.imp_right .inr)
    rcases hspawned with hspawned | hspawned | hspawned
    · exact hspawned h₁
    · exact hspawned h₂
    · exact hspawned h₃
  rcases lock_cases s t with heq | ⟨-, ⟨-, hrun, heq⟩ | ⟨-, pkt, hlocking, heq⟩ | ⟨-, tel, hlocking, heq⟩ |
    ⟨-, resp, hlocking, heq⟩⟩
  · rw [heq]
    exact h
  · rw [heq]
    refine Phases.past (show 2 < RunPhase.goodbye.rank by decide) (fun hoff => ?_) ?_
    · obtain ⟨h₁, h₂, -, h₃, -⟩ := h.screen_off hoff
      exact ⟨h₁, h₂, h₃, .inr (.inr (.inl rfl))⟩
    · show s.stopped = _
      rw [h.stopped_eq, hrun]
      rfl
  · have hne : s.frame_pump ≠ .unspawned := by simp [hlocking]
    rw [heq]
    exact h.stay rfl rfl rfl (fun heq => absurd heq hne) id id fun hearly => absurd hearly (hpump (.inl hne))
  · have hne : s.telemetry_pump ≠ .unspawned := by simp [hlocking]
    rw [heq]
    exact h.stay rfl rfl rfl id (fun heq => absurd heq hne) id
      fun hearly => absurd hearly (hpump (.inr (.inl hne)))
  · have hne : s.read_loop ≠ .unspawned := by simp [hlocking]
    rw [heq]
    exact h.stay rfl rfl rfl id id (fun heq => absurd heq hne)
      fun hearly => absurd hearly (hpump (.inr (.inr hne)))

theorem write_phases (h : s.Phases c) (n : ℕ) : (s.write n).Phases c := by
  rcases write_cases s n with heq | ⟨t, f, k, next, hwriter, -, -, ⟨-, heq⟩ | ⟨-, heq⟩⟩
  · rw [heq]
    exact h
  · rw [heq]
    exact h.stay rfl rfl rfl id id id fun hearly => absurd hearly (h.holding hwriter)
  · rw [heq]
    exact h.stay rfl rfl rfl id id id fun hearly => absurd hearly (h.holding hwriter)

theorem sent_phases (hwf : s.Wf) (h : s.Phases c) {t : Task} {w : Writing}
    (hwriter : s.writer = some (t, w)) : (sent c s t).Phases c := by
  have hsending := hwf.holder _ _ hwriter
  have hholding := h.holding hwriter
  cases t with
  | run =>
      rw [sent]
      rcases hsending with hrun | ⟨hrun, -⟩
      · rw [if_pos hrun]
        refine Phases.past (show 2 < RunPhase.serving.rank by decide) (fun hoff => ?_) ?_
        · exact ⟨if_pos hoff, if_pos hoff, (h.unspawned (.inr (.inl hrun))).2.2.2, .inl rfl⟩
        · show s.stopped = _
          rw [h.stopped_eq, hrun]
          rfl
      · have hrank : 4 < (if c.screen_off then RunPhase.done else RunPhase.stopping).rank := by
          split <;> decide
        rw [if_neg (by rw [hrun]; decide)]
        refine Phases.past (Nat.lt_trans (by decide : 2 < 4) hrank) (fun hoff => ?_) ?_
        · obtain ⟨h₁, h₂, -, h₃, -⟩ := h.screen_off hoff
          exact ⟨h₁, h₂, h₃, .inr (.inr (.inr (if_pos hoff)))⟩
        · show s.stopped = (!c.screen_off && decide (4 < RunPhase.rank _))
          rw [h.stopped_eq, hrun, decide_eq_true hrank]
          rfl
  | framePump =>
      obtain ⟨pkt, hpump, -⟩ := hsending
      rw [sent, hpump]
      exact h.stay rfl rfl rfl (fun heq => by rw [hpump] at heq; cases heq) id id
        fun hearly => absurd hearly hholding
  | telemetryPump =>
      obtain ⟨tel, hpump, -⟩ := hsending
      exact h.stay rfl rfl rfl id (fun heq => by rw [hpump] at heq; cases heq) id
        fun hearly => absurd hearly hholding
  | readLoop =>
      obtain ⟨resp, hloop, -⟩ := hsending
      exact h.stay rfl rfl rfl id id (fun heq => by rw [hloop] at heq; cases heq)
        fun hearly => absurd hearly hholding

theorem sendFailed_phases (hwf : s.Wf) (h : s.Phases c) {t : Task} {w : Writing}
    (hwriter : s.writer = some (t, w)) (flushing : Bool) : (sendFailed c s flushing t).Phases c := by
  have hsent := sent_phases hwf h hwriter
  have hsending := hwf.holder _ _ hwriter
  have hholding := h.holding hwriter
  cases t with
  | run =>
      rw [sendFailed]
      split
      case isTrue hrun => exact h.early (.inr hrun) (.inr ⟨rfl, rfl⟩) rfl rfl rfl rfl rfl
      case isFalse =>
        cases flushing with
        | true => exact hsent
        | false => exact h.stay rfl rfl rfl id id id fun hearly => absurd hearly hholding
  | framePump =>
      obtain ⟨pkt, hpump, -⟩ := hsending
      exact h.stay rfl rfl rfl (fun heq => by rw [hpump] at heq; cases heq) id id
        fun hearly => absurd hearly hholding
  | telemetryPump =>
      obtain ⟨tel, hpump, -⟩ := hsending
      exact h.stay rfl rfl rfl id (fun heq => by rw [hpump] at heq; cases heq) id
        fun hearly => absurd hearly hholding
  | readLoop =>
      obtain ⟨resp, hloop, -⟩ := hsending
      cases flushing with
      | true => exact hsent
      | false =>
          exact h.stay rfl rfl rfl id id (fun heq => by rw [hloop] at heq; cases heq)
            fun hearly => absurd hearly hholding

theorem Phases.broken (h : s.Phases c) {t : Task} {w : Writing} (hwriter : s.writer = some (t, w)) :
    Phases c { s with broken := true } := by
  refine ⟨h.unspawned, fun hwait => ?_, h.failed, h.screen_off, h.stopped⟩
  rw [(h.waiting hwait).1] at hwriter
  cases hwriter

theorem writeFails_phases (hwf : s.Wf) (h : s.Phases c) : (writeFails c s).Phases c := by
  rcases writeFails_cases c s with heq | ⟨t, f, k, next, hwriter, heq⟩
  · rw [heq]
    exact h
  · rw [heq]
    exact sendFailed_phases hwf.broken (h.broken hwriter) hwriter false

theorem flush_phases (hwf : s.Wf) (h : s.Phases c) (ok : Bool) : (flush c s ok).Phases c := by
  rcases flush_cases c s ok with heq | ⟨t, hwriter, ⟨-, heq⟩ | ⟨-, heq⟩⟩
  · rw [heq]
    exact h
  · rw [heq]
    exact sent_phases hwf h hwriter
  · rw [heq]
    exact sendFailed_phases hwf h hwriter true

theorem cancel_phases (h : s.Phases c) : s.cancel.Phases c := by
  unfold cancel
  split
  case isTrue haborted =>
    have hlate : ¬ (s.run = .awaitKeyframe ∨ s.run = .greeting ∨ s.run = .failed) := by
      intro hearly
      rw [(h.unspawned hearly).2.2.2] at haborted
      cases haborted
    refine Phases.past ?_ (fun hoff => ?_) h.stopped_eq
    · rcases s.run.early_or_serving with hrun | hrun | hrun | hrank
      · exact absurd (.inl hrun) hlate
      · exact absurd (.inr (.inl hrun)) hlate
      · exact absurd (.inr (.inr hrun)) hlate
      · exact hrank
    · rw [(h.screen_off hoff).2.2.2.1] at haborted
      cases haborted
  case isFalse => exact h

/-- `run` leaves its loop. -/
theorem leave_phases {s' : Session} (h : s.Phases c) (hrun : s.run = .serving) (hstopped : s'.stopped = s.stopped)
    (hframe : s'.frame_pump = s.frame_pump) (htelemetry : s'.telemetry_pump = s.telemetry_pump)
    (haborted : c.screen_off = true → s'.aborted = s.aborted) : (leave c s').Phases c := by
  have hnot : s'.stopped = false := by
    rw [hstopped, h.stopped_eq, hrun]
    exact Bool.and_false _
  refine Phases.past ?_ (fun hoff => ?_) ?_
  · show 2 < (if c.screen_off then RunPhase.lockingGoodbye else RunPhase.notifying).rank
    split <;> decide
  · obtain ⟨h₁, h₂, -, h₃, -⟩ := h.screen_off hoff
    exact ⟨hframe.trans h₁, htelemetry.trans h₂, (haborted hoff).trans h₃, .inr (.inl (if_pos hoff))⟩
  · show s'.stopped =
      (!c.screen_off && decide (4 < (if c.screen_off then RunPhase.lockingGoodbye else RunPhase.notifying).rank))
    rw [hnot]
    cases c.screen_off <;> rfl

theorem readLoopEnded_phases (h : s.Phases c) : (readLoopEnded c s).Phases c := by
  unfold readLoopEnded
  split
  case isTrue hrun => exact leave_phases h hrun.1 rfl rfl rfl fun _ => rfl
  case isFalse => exact h

theorem finish_phases (h : s.Phases c) : (finish c s).Phases c := by
  unfold finish
  split
  case isTrue hrun =>
    split
    case isTrue => exact leave_phases h hrun rfl rfl rfl fun _ => rfl
    case isFalse hon => exact leave_phases h hrun rfl rfl rfl fun hoff => absurd hoff hon
  case isFalse => exact h

/-- Past the loop of a session with a screen. -/
theorem Phases.onward {s' : Session} (h : s.Phases c) (hrun : s.run = .notifying ∨ s.run = .joiningFrame ∨
      s.run = .joiningTelemetry ∨ s.run = .stopping) (hrank : 4 < s'.run.rank) (hstopped : s'.stopped = true) :
    s'.Phases c := by
  have hon : c.screen_off = false := by
    rw [Bool.eq_false_iff]
    intro hoff
    obtain ⟨-, -, -, -, -, h₁, h₂, h₃, h₄⟩ := h.screen_off hoff
    rcases hrun with hrun | hrun | hrun | hrun
    · exact h₁ hrun
    · exact h₂ hrun
    · exact h₃ hrun
    · exact h₄ hrun
  refine Phases.past (by omega) (fun hoff => ?_) ?_
  · rw [hon] at hoff
    cases hoff
  · rw [hstopped, hon, decide_eq_true hrank]
    rfl

/-- Behind `notify_waiters` of a session with a screen. -/
theorem Phases.notified (h : s.Phases c) (hrun : s.run = .joiningFrame ∨ s.run = .joiningTelemetry ∨
    s.run = .stopping) : s.stopped = true := by
  refine h.stopped.2 ⟨?_, ?_⟩
  · rw [Bool.eq_false_iff]
    intro hoff
    obtain ⟨-, -, -, -, -, -, h₂, h₃, h₄⟩ := h.screen_off hoff
    rcases hrun with hrun | hrun | hrun
    · exact h₂ hrun
    · exact h₃ hrun
    · exact h₄ hrun
  · rcases hrun with hrun | hrun | hrun <;> simp [hrun]

theorem notify_phases (h : s.Phases c) : s.notify.Phases c := by
  unfold notify
  split
  case isTrue hrun => exact h.onward (.inl hrun) (show 4 < RunPhase.joiningFrame.rank by decide) rfl
  case isFalse => exact h

theorem joined_phases (h : s.Phases c) (timed_out : Bool) : (s.joined timed_out).Phases c := by
  rcases joined_cases s timed_out with heq | ⟨hrun, -, heq⟩ | ⟨hrun, -, heq⟩
  · rw [heq]
    exact h
  · rw [heq]
    exact h.onward (.inr (.inl hrun)) (show 4 < RunPhase.joiningTelemetry.rank by decide)
      (h.notified (.inl hrun))
  · rw [heq]
    exact h.onward (.inr (.inr (.inl hrun))) (show 4 < RunPhase.lockingGoodbye.rank by decide)
      (h.notified (.inr (.inl hrun)))

theorem engineStop_phases (h : s.Phases c) : s.engineStop.Phases c := by
  unfold engineStop
  split
  case isTrue hrun =>
    exact h.onward (.inr (.inr (.inr hrun))) (show 4 < RunPhase.done.rank by decide)
      (h.notified (.inr (.inr hrun)))
  case isFalse => exact h

theorem step_phases (hwf : s.Wf) (h : s.Phases c) (e : Event) : (step c s e).Phases c := by
  by_cases haside : e.aside = true
  · exact (step_sameRun haside).phases h
  cases e with
  | keyframe expired => exact waitForKeyframe_phases h expired
  | lock t => exact lock_phases h t
  | write n => exact write_phases h n
  | writeFails => exact writeFails_phases hwf h
  | flush ok => exact flush_phases hwf h ok
  | cancel => exact cancel_phases h
  | readLoopEnded => exact readLoopEnded_phases h
  | finish => exact finish_phases h
  | notify => exact notify_phases h
  | joined timed_out => exact joined_phases h timed_out
  | engineStop => exact engineStop_phases h
  | _ => exact absurd rfl haside

/-- Every state of a session keeps both invariants. -/
theorem after_wf_phases (c : SessionConfig) (es : List Event) : (after c es).Wf ∧ (after c es).Phases c :=
  Run.invariant (I := fun s : Session => s.Wf ∧ s.Phases c)
    (fun _ e h => ⟨step_wf h.1 e, step_phases h.1 h.2 e⟩) es ⟨start_wf, start_phases⟩

theorem sent_rank (hwf : s.Wf) {t : Task} {w : Writing} (hwriter : s.writer = some (t, w)) :
    s.run.rank ≤ (sent c s t).run.rank := by
  have hsending := hwf.holder _ _ hwriter
  cases t with
  | run =>
      rw [sent]
      rcases hsending with hrun | ⟨hrun, -⟩
      · rw [if_pos hrun, hrun]
        show RunPhase.greeting.rank ≤ RunPhase.serving.rank
        decide
      · rw [if_neg (by rw [hrun]; decide), hrun]
        show _ ≤ (if c.screen_off then RunPhase.done else RunPhase.stopping).rank
        split <;> decide
  | framePump =>
      rw [sent]
      split <;> exact le_refl _
  | telemetryPump => exact le_refl _
  | readLoop => exact le_refl _

theorem sendFailed_rank (hwf : s.Wf) {t : Task} {w : Writing} (hwriter : s.writer = some (t, w))
    (flushing : Bool) : s.run.rank ≤ (sendFailed c s flushing t).run.rank := by
  have hsent := sent_rank (c := c) hwf hwriter
  cases t with
  | run =>
      rw [sendFailed]
      split
      case isTrue hrun =>
        rw [hrun]
        show RunPhase.greeting.rank ≤ RunPhase.failed.rank
        decide
      case isFalse =>
        cases flushing with
        | true => exact hsent
        | false => exact le_refl _
  | framePump => exact le_refl _
  | telemetryPump => exact le_refl _
  | readLoop => cases flushing <;> exact le_refl _

theorem waitForKeyframe_rank (expired : Bool) : s.run.rank ≤ (waitForKeyframe c s expired).run.rank := by
  rcases waitForKeyframe_cases c s expired with heq | ⟨hrun, heq | heq | ⟨pkt, -, -, -, heq⟩⟩
  · rw [heq]
  · rw [hrun]
    exact Nat.zero_le _
  · rw [heq]
  · rw [hrun]
    exact Nat.zero_le _

theorem lock_rank (t : Task) : s.run.rank ≤ (s.lock t).run.rank := by
  rcases lock_cases s t with heq | ⟨-, ⟨-, hrun, heq⟩ | ⟨-, pkt, -, heq⟩ | ⟨-, tel, -, heq⟩ | ⟨-, resp, -, heq⟩⟩
  · rw [heq]
  · rw [heq, hrun]
    show RunPhase.lockingGoodbye.rank ≤ RunPhase.goodbye.rank
    decide
  · rw [heq]
  · rw [heq]
  · rw [heq]

theorem leave_rank : RunPhase.serving.rank ≤ (leave c s).run.rank := by
  rw [leave]
  cases c.screen_off with
  | true => exact (by decide : RunPhase.serving.rank ≤ RunPhase.lockingGoodbye.rank)
  | false => exact (by decide : RunPhase.serving.rank ≤ RunPhase.notifying.rank)

theorem joined_rank (timed_out : Bool) : s.run.rank ≤ (s.joined timed_out).run.rank := by
  rcases joined_cases s timed_out with heq | ⟨hrun, -, heq⟩ | ⟨hrun, -, heq⟩
  · rw [heq]
  · rw [heq, hrun]
    show RunPhase.joiningFrame.rank ≤ RunPhase.joiningTelemetry.rank
    decide
  · rw [heq, hrun]
    show RunPhase.joiningTelemetry.rank ≤ RunPhase.lockingGoodbye.rank
    decide

/-- `Session::run` never goes back. -/
theorem step_rank (hwf : s.Wf) (e : Event) : s.run.rank ≤ (step c s e).run.rank := by
  by_cases haside : e.aside = true
  · exact le_of_eq (congrArg _ (step_sameRun haside).same_run.symm)
  cases e with
  | keyframe expired => exact waitForKeyframe_rank expired
  | lock t => exact lock_rank t
  | write n =>
      rw [step]
      rcases write_cases s n with hsame | ⟨t, f, k, next, -, -, -, ⟨-, hpart⟩ | ⟨-, hall⟩⟩
      · rw [hsame]
      · rw [hpart]
      · rw [hall]
  | writeFails =>
      rw [step]
      rcases writeFails_cases c s with heq | ⟨t, f, k, next, hwriter, heq⟩
      · rw [heq]
      · rw [heq]
        exact sendFailed_rank hwf.broken hwriter false
  | flush ok =>
      rw [step]
      rcases flush_cases c s ok with heq | ⟨t, hwriter, ⟨-, heq⟩ | ⟨-, heq⟩⟩
      · rw [heq]
      · rw [heq]
        exact sent_rank hwf hwriter
      · rw [heq]
        exact sendFailed_rank hwf hwriter true
  | cancel =>
      rw [step, cancel]
      split <;> exact le_refl _
  | readLoopEnded =>
      rw [step, readLoopEnded]
      split
      case isTrue h =>
        rw [h.1]
        exact leave_rank
      case isFalse => exact le_refl _
  | finish =>
      rw [step, finish]
      split
      case isTrue hrun =>
        rw [hrun]
        split <;> exact leave_rank
      case isFalse => exact le_refl _
  | notify =>
      rw [step, notify]
      split
      case isTrue hrun =>
        rw [hrun]
        show RunPhase.notifying.rank ≤ RunPhase.joiningFrame.rank
        decide
      case isFalse => exact le_refl _
  | joined timed_out => exact joined_rank timed_out
  | engineStop =>
      rw [step, engineStop]
      split
      case isTrue hrun =>
        rw [hrun]
        show RunPhase.stopping.rank ≤ RunPhase.done.rank
        decide
      case isFalse => exact le_refl _
  | _ => exact absurd rfl haside

/-! ### The script -/

/-- The frames on the wire, then those the holder of the writer has yet to begin. -/
def script (s : Session) : List Frame :=
  s.wire.map (·.frame) ++ s.writer.elim [] (·.2.unbegun)

/-- The frames of the task that gets the writer. -/
def begins (c : SessionConfig) (s : Session) : Event → List Frame
  | .keyframe _ =>
    match s.run, s.pop with
    | .awaitKeyframe, .done (some pkt) =>
      if pkt.is_keyframe ∧ (c.csd0 pkt.bytes).isEmpty = false then
        [c.helloFrame, c.configFrame, c.csd0Frame pkt, firstFrame pkt]
      else []
    | _, _ => []
  | .lock t =>
    match s.writer, t with
    | some _, _ => []
    | none, .run => if s.run = .lockingGoodbye then [goodbyeFrame] else []
    | none, .framePump =>
      match s.frame_pump with
      | .locking pkt => [pumpFrame pkt]
      | _ => []
    | none, .telemetryPump =>
      match s.telemetry_pump with
      | .locking tel => [telemetryFrame tel]
      | _ => []
    | none, .readLoop =>
      match s.read_loop with
      | .locking resp => [respFrame resp]
      | _ => []
  | _ => []

/-- The holder ends before it has begun all its frames. -/
def Cut (s s' : Session) : Prop :=
  ∃ t w, s.writer = some (t, w) ∧ s.script = s'.script ++ w.unbegun ∧
    (t = .run → s.run = .greeting → s'.run = .failed) ∧
      (t = .framePump → s'.frame_pump = .returned)

theorem script_of_none (h : s.writer = none) : s.script = s.wire.map (·.frame) := by
  rw [script, h]
  exact List.append_nil _

theorem script_of_some {t : Task} {w : Writing} (h : s.writer = some (t, w)) :
    s.script = s.wire.map (·.frame) ++ w.unbegun := by
  rw [script, h]
  rfl

theorem SameWriter.script {s' : Session} (hsame : s.SameWriter s') : s'.script = s.script := by
  rw [Session.script, Session.script, hsame.writer, hsame.wire]

theorem write_script (hwf : s.Wf) (n : ℕ) : (s.write n).script = s.script := by
  rcases write_cases s n with hsame | ⟨t, f, k, next, hwriter, hbroken, hpos, hpart⟩
  · rw [hsame]
  · obtain ⟨pre, hput, hwire⟩ := put_eq hwf hwriter hbroken n
    -- the frame goes from the unbegun ones to the wire with its first bytes
    have hbegun : (pre ++ [(⟨f, k + n⟩ : Sent)]).map (·.frame) ++ next = s.script := by
      rw [script_of_some hwriter, hwire]
      cases k <;> simp [Writing.unbegun]
    rcases hpart with ⟨-, heq⟩ | ⟨-, heq⟩
    · rw [← hbegun, heq, script_of_some rfl, hput]
      obtain ⟨m, rfl⟩ : ∃ m, n = m + 1 := ⟨n - 1, by omega⟩
      rfl
    · rw [← hbegun, heq, script_of_some rfl, hput]
      cases next <;> rfl

theorem lock_script (s : Session) (t : Task) :
    (s.lock t).script = s.script ++ begins c s (.lock t) := by
  cases hwriter : s.writer with
  | some held => simp [lock, begins, hwriter]
  | none =>
      rw [script_of_none hwriter]
      cases t with
      | run =>
          by_cases hrun : s.run = .lockingGoodbye <;>
            simp [lock, begins, script, Writing.unbegun, hwriter, hrun]
      | framePump =>
          cases hpump : s.frame_pump <;> simp [lock, begins, script, Writing.unbegun, hwriter, hpump]
      | telemetryPump =>
          cases hpump : s.telemetry_pump <;>
            simp [lock, begins, script, Writing.unbegun, hwriter, hpump]
      | readLoop =>
          cases hloop : s.read_loop <;> simp [lock, begins, script, Writing.unbegun, hwriter, hloop]

theorem waitForKeyframe_script (h : s.Phases c) (expired : Bool) :
    (waitForKeyframe c s expired).script = s.script ++ begins c s (.keyframe expired) := by
  unfold waitForKeyframe
  split
  case h_1 pkt hrun hpop =>
    have hwriter := (h.waiting hrun).1
    by_cases hkey : pkt.is_keyframe = true
    · by_cases hcsd : (c.csd0 pkt.bytes).isEmpty = true
      · simp [greet, failRun, begins, script, hrun, hpop, hwriter, hkey, hcsd]
      · simp [greet, begins, script, Writing.unbegun, hrun, hpop, hwriter, hkey, hcsd]
    · cases expired <;> simp [failRun, begins, script, hrun, hpop, hwriter, hkey]
  case h_2 hrun hpop =>
    have hwriter := (h.waiting hrun).1
    cases expired <;> simp [failRun, begins, script, hrun, hpop, hwriter]
  case h_3 hrun hpop =>
    have hwriter := (h.waiting hrun).1
    simp [failRun, begins, script, hrun, hpop, hwriter]
  case h_4 hsome hnone hpanicked =>
    rw [begins]
    split
    case h_1 pkt hrun hpop => exact (hsome pkt hrun hpop).elim
    case h_2 => exact (List.append_nil _).symm

theorem writeFails_script (s : Session) :
    (writeFails c s).script = s.script ∨ Cut s (writeFails c s) := by
  unfold writeFails
  split
  case h_1 t f n next hwriter =>
    refine .inr ⟨t, _, hwriter, ?_, ?_, ?_⟩
    · rw [script_of_some hwriter]
      congr 1
      cases t with
      | run =>
          rw [sendFailed]
          split <;> simp [failRun, script, Writing.unbegun]
      | framePump =>
          exact (script_of_none (s := sendFailed c { s with broken := true } false .framePump) rfl).symm
      | telemetryPump =>
          exact (script_of_none (s := sendFailed c { s with broken := true } false .telemetryPump) rfl).symm
      | readLoop =>
          exact (script_of_none (s := sendFailed c { s with broken := true } false .readLoop) rfl).symm
    · rintro rfl hrun
      simp [sendFailed, failRun, hrun]
    · rintro rfl
      rfl
  case h_2 => exact .inl rfl

theorem sent_script {t : Task} (hwriter : s.writer = some (t, .flush)) :
    (sent c s t).script = s.script := by
  have hscript : s.script = s.wire.map (·.frame) := by
    rw [script_of_some hwriter]
    exact List.append_nil _
  cases t with
  | run =>
      rw [hscript, sent]
      split <;> exact script_of_none rfl
  | framePump =>
      rw [sent]
      split
      case h_1 =>
        rw [hscript]
        exact script_of_none rfl
      case h_2 => rfl
  | telemetryPump =>
      rw [hscript]
      exact script_of_none rfl
  | readLoop =>
      rw [hscript]
      exact script_of_none rfl

theorem flush_script (s : Session) (ok : Bool) : (flush c s ok).script = s.script := by
  unfold flush
  split
  case h_1 t hwriter =>
    cases ok with
    | true => exact sent_script hwriter
    | false =>
        have hsent := sent_script (c := c) hwriter
        have hscript : s.script = s.wire.map (·.frame) := by
          rw [script_of_some hwriter]
          exact List.append_nil _
        cases t with
        | run =>
            show (sendFailed c s true .run).script = s.script
            rw [sendFailed]
            split
            · rw [hscript]
              exact script_of_none rfl
            · exact hsent
        | framePump =>
            rw [hscript]
            exact script_of_none rfl
        | telemetryPump =>
            rw [hscript]
            exact script_of_none rfl
        | readLoop => exact hsent
  case h_2 => rfl

theorem dropReadLoop_script (s : Session) :
    s.dropReadLoop.script = s.script ∨ Cut s s.dropReadLoop := by
  cases hwriter : s.writer with
  | none =>
      left
      simp [script, dropReadLoop, hwriter]
  | some held =>
      obtain ⟨t, w⟩ := held
      cases t with
      | readLoop =>
          refine .inr ⟨.readLoop, w, hwriter, ?_, by simp, by simp⟩
          simp [script, dropReadLoop, hwriter]
      | run => exact .inl (by simp [script, dropReadLoop, hwriter])
      | framePump => exact .inl (by simp [script, dropReadLoop, hwriter])
      | telemetryPump => exact .inl (by simp [script, dropReadLoop, hwriter])

theorem finish_script (s : Session) : (finish c s).script = s.script ∨ Cut s (finish c s) := by
  unfold finish
  split
  case isTrue hrun =>
    split
    · rcases dropReadLoop_script s with hsame | ⟨t, w, hwriter, hscript, hfail, hpump⟩
      · exact .inl hsame
      · refine .inr ⟨t, w, hwriter, hscript, ?_, hpump⟩
        intro _ hgreet
        rw [hrun] at hgreet
        cases hgreet
    · exact .inl rfl
  case isFalse => exact .inl rfl

theorem begins_aside {e : Event} (haside : e.aside = true) : begins c s e = [] := by
  cases e with
  | keyframe expired => cases haside
  | lock t => cases haside
  | _ => rfl

/-- No holder is cut off where no write fails and no read loop is dropped. -/
theorem script_grows (hwf : s.Wf) (h : s.Phases c) {e : Event} (hfails : e ≠ .writeFails)
    (hcancel : e ≠ .cancel) (hfinish : e ≠ .finish) :
    (step c s e).script = s.script ++ begins c s e := by
  have hsame : ∀ s' : Session, s'.script = s.script → s'.script = s.script ++ [] := by
    intro s' hs'
    rw [hs', List.append_nil]
  by_cases haside : e.aside = true
  · rw [begins_aside haside]
    exact hsame _ (step_sameRun haside).script
  cases e with
  | writeFails => exact absurd rfl hfails
  | cancel => exact absurd rfl hcancel
  | finish => exact absurd rfl hfinish
  | keyframe expired => exact waitForKeyframe_script h expired
  | lock t => exact lock_script s t
  | write n => exact hsame _ (write_script hwf n)
  | flush ok => exact hsame _ (flush_script s ok)
  | readLoopEnded => exact hsame _ readLoopEnded_sameWriter.script
  | notify => exact hsame _ notify_sameWriter.script
  | joined timed_out => exact hsame _ (joined_sameWriter timed_out).script
  | engineStop => exact hsame _ engineStop_sameWriter.script
  | _ => exact absurd rfl haside

/-- A read loop that is aborted is dropped. -/
theorem cancel_script (s : Session) : s.cancel.script = s.script ∨ Cut s s.cancel := by
  rw [cancel]
  split
  · exact dropReadLoop_script s
  · exact .inl rfl

/-- **A step of the script.** -/
theorem script_step (hwf : s.Wf) (h : s.Phases c) (e : Event) :
    (step c s e).script = s.script ++ begins c s e ∨ Cut s (step c s e) := by
  have hsame : ∀ s' : Session, s'.script = s.script → s'.script = s.script ++ [] := by
    intro s' hs'
    rw [hs', List.append_nil]
  by_cases hfails : e = .writeFails
  · rw [hfails]
    exact (writeFails_script s).imp_left (hsame _)
  by_cases hcancel : e = .cancel
  · rw [hcancel]
    exact (cancel_script s).imp_left (hsame _)
  by_cases hfinish : e = .finish
  · rw [hfinish]
    exact (finish_script s).imp_left (hsame _)
  · exact .inl (script_grows hwf h hfails hcancel hfinish)

/-- Whose frames begin. -/
theorem mem_begins {e : Event} {f : Frame} (h : f ∈ begins c s e) :
    (s.run = .awaitKeyframe ∧ ∃ pkt, pkt.is_keyframe = true ∧
        f ∈ [c.helloFrame, c.configFrame, c.csd0Frame pkt, firstFrame pkt]) ∨
      (f = goodbyeFrame ∧ s.run = .lockingGoodbye ∧ (step c s e).run = .goodbye) ∨
      (∃ pkt, s.frame_pump = .locking pkt ∧ f = pumpFrame pkt) ∨
      (∃ tel, s.telemetry_pump = .locking tel ∧ f = telemetryFrame tel) ∨
      ∃ resp, s.read_loop = .locking resp ∧ f = respFrame resp := by
  cases e with
  | keyframe expired =>
      rw [begins] at h
      split at h
      case h_1 pkt hrun hpop =>
        split at h
        case isTrue hkey => exact .inl ⟨hrun, pkt, hkey.1, h⟩
        case isFalse => cases h
      case h_2 => cases h
  | lock t =>
      cases hwriter : s.writer with
      | some held => simp [begins, hwriter] at h
      | none =>
          cases t with
          | run =>
              simp only [begins, hwriter] at h
              split at h
              case isTrue hrun =>
                refine .inr (.inl ⟨List.mem_singleton.1 h, hrun, ?_⟩)
                simp [step, lock, hwriter, hrun]
              case isFalse => cases h
          | framePump =>
              simp only [begins, hwriter] at h
              split at h
              case h_1 pkt hpump => exact .inr (.inr (.inl ⟨pkt, hpump, List.mem_singleton.1 h⟩))
              case h_2 => cases h
          | telemetryPump =>
              simp only [begins, hwriter] at h
              split at h
              case h_1 tel hpump =>
                exact .inr (.inr (.inr (.inl ⟨tel, hpump, List.mem_singleton.1 h⟩)))
              case h_2 => cases h
          | readLoop =>
              simp only [begins, hwriter] at h
              split at h
              case h_1 resp hloop =>
                exact .inr (.inr (.inr (.inr ⟨resp, hloop, List.mem_singleton.1 h⟩)))
              case h_2 => cases h
  | _ => cases h

theorem Cut.front {s' : Session} (h : Cut s s') : s'.script <+: s.script := by
  obtain ⟨t, w, -, hscript, -⟩ := h
  exact ⟨w.unbegun, hscript.symm⟩

end Session

end Penflow
