import Penflow.Lib.Readings
import Penflow.Server.Delivery

/-!
# What the telemetry counts

`Ledger` runs a session and writes down beside it the frames that `frame_pump` has counted and the samples
that `telemetry_pump` has taken.  A sample swaps the counter of the frames and reads the counter of the
queue as it stands, so the frames are per interval and the dropped packets are not.
-/

namespace Penflow

def telemetries (fs : List Frame) : List Frame := fs.filter (·.msg_id = msgTelemetry)

theorem telemetries_append (fs gs : List Frame) :
    telemetries (fs ++ gs) = telemetries fs ++ telemetries gs :=
  List.filter_append ..

theorem telemetries_of_none {fs : List Frame} (h : ∀ f ∈ fs, f.msg_id ≠ msgTelemetry) :
    telemetries fs = [] :=
  List.filter_eq_nil_iff.2 fun f hf => by simpa using h f hf

/-- A sample, and what the counters stood at. -/
structure Sample where
  telemetry : Telemetry
  /-- the frames that `frame_pump` had counted -/
  counted : ℕ
  /-- the packets that the queue had dropped by overflow -/
  dropped : ℕ
  deriving DecidableEq, Repr

namespace Session

variable {c : SessionConfig} {s : Session}

def overflowed (s : Session) : ℕ := s.departed.countP fun d => d.2 = .overflowed

/-- The frames that `frame_pump` counts in the step. -/
def framesCounted (s : Session) : Event → ℕ
  | .flush true =>
    match s.writer, s.frame_pump with
    | some (.framePump, .flush), .sending _ => 1
    | _, _ => 0
  | _ => 0

/-- The sample of the step.  The swap of the frames and the look at the queue are one step: between them
no one else can touch both. -/
def sampled (s : Session) : Event → Option Telemetry
  | .selectTick =>
    match s.telemetry_pump with
    | .selecting _ => some s.sample
    | _ => none
  | _ => none

/-! ### Steps without a sample -/

/-- What a step leaves alone in which nothing overflows and the pump takes no sample. -/
structure Quiet (s s' : Session) : Prop where
  overflow : s'.queue.dropped_overflow = s.queue.dropped_overflow
  locking : ∀ tel, s'.telemetry_pump = .locking tel ↔ s.telemetry_pump = .locking tel
  returned : s.telemetry_pump = .returned → s'.telemetry_pump = .returned
  unspawned : s'.telemetry_pump = .unspawned → s.telemetry_pump = .unspawned

theorem Quiet.of_pump {s' : Session} (hqueue : s'.queue.dropped_overflow = s.queue.dropped_overflow)
    (hpump : s'.telemetry_pump = s.telemetry_pump) : s.Quiet s' where
  overflow := hqueue
  locking := fun _ => by rw [hpump]
  returned := hpump.trans
  unspawned := hpump.symm.trans

theorem quiet_refl (s : Session) : s.Quiet s := Quiet.of_pump rfl rfl

/-- The pump moves where it waits for no writer. -/
theorem Quiet.of_moved {s' : Session} {p q : Pump Telemetry}
    (hqueue : s'.queue.dropped_overflow = s.queue.dropped_overflow) (hp : s.telemetry_pump = p)
    (hq : s'.telemetry_pump = q) (hfrom : (∀ tel, p ≠ .locking tel) ∧ p ≠ .returned)
    (hto : (∀ tel, q ≠ .locking tel) ∧ q ≠ .unspawned) : s.Quiet s' where
  overflow := hqueue
  locking := by
    intro tel
    rw [hp, hq]
    exact ⟨fun h => absurd h (hto.1 tel), fun h => absurd h (hfrom.1 tel)⟩
  returned := fun h => absurd (hp.symm.trans h) hfrom.2
  unspawned := fun h => absurd (hq.symm.trans h) hto.2

theorem waitForKeyframe_quiet (expired : Bool) : s.Quiet (waitForKeyframe c s expired) := by
  unfold waitForKeyframe greet
  repeat' split
  all_goals exact Quiet.of_pump rfl rfl

theorem enterSelect_quiet (t : Task) : s.Quiet (s.enterSelect t) := by
  cases t with
  | framePump =>
      rw [enterSelect]
      split
      · exact Quiet.of_pump rfl rfl
      · exact quiet_refl s
  | telemetryPump =>
      rw [enterSelect]
      split
      case h_1 hpump => exact Quiet.of_moved rfl hpump rfl (by simp) (by simp)
      case h_2 => exact quiet_refl s
  | run => exact quiet_refl s
  | readLoop => exact quiet_refl s

theorem selectStop_quiet (t : Task) : s.Quiet (s.selectStop t) := by
  cases t with
  | framePump =>
      rw [selectStop]
      split
      · exact Quiet.of_pump rfl rfl
      · exact quiet_refl s
  | telemetryPump =>
      rw [selectStop]
      split
      case h_1 hpump => exact Quiet.of_moved rfl hpump rfl (by simp) (by simp)
      case h_2 => exact quiet_refl s
  | run => exact quiet_refl s
  | readLoop => exact quiet_refl s

theorem notify_quiet : s.Quiet s.notify := by
  rw [notify]
  split
  · cases hpump : s.telemetry_pump with
    | selecting notified =>
        exact Quiet.of_moved (q := .selecting true) rfl hpump rfl (by simp) (by simp)
    | _ =>
        apply Quiet.of_pump
        · rfl
        · exact hpump.symm
  · exact quiet_refl s

/-- The tasks are spawned where there were none. -/
theorem spawn_quiet (hpump : s.telemetry_pump = .unspawned) : s.Quiet (spawn c s) := by
  cases hoff : c.screen_off with
  | true =>
      apply Quiet.of_pump
      · rfl
      · rw [spawn, hoff]
        exact hpump.symm
  | false =>
      have hhead : (spawn c s).telemetry_pump = .head := by
        rw [spawn, hoff]
        rfl
      exact Quiet.of_moved rfl hpump hhead (by simp) (by simp)

theorem sent_quiet (hwf : s.Wf) (hph : s.Phases c) {t : Task} {w : Writing}
    (hwriter : s.writer = some (t, w)) : s.Quiet (sent c s t) := by
  have hsending := hwf.holder t w hwriter
  cases t with
  | run =>
      rw [sent]
      split
      case isTrue hrun => exact spawn_quiet (hph.unspawned (.inr (.inl hrun))).2.1
      case isFalse => exact Quiet.of_pump rfl rfl
  | framePump =>
      rw [sent]
      split
      · exact Quiet.of_pump rfl rfl
      · exact quiet_refl s
  | telemetryPump =>
      obtain ⟨tel, hpump, -⟩ := hsending
      exact Quiet.of_moved (q := .head) rfl hpump rfl (by simp) (by simp)
  | readLoop => exact Quiet.of_pump rfl rfl

theorem sendFailed_quiet (hwf : s.Wf) (hph : s.Phases c) {t : Task} {w : Writing}
    (hwriter : s.writer = some (t, w)) (flushing : Bool) : s.Quiet (sendFailed c s flushing t) := by
  have hsent : s.Quiet (sent c s t) := sent_quiet hwf hph hwriter
  have hsending := hwf.holder t w hwriter
  cases t with
  | run =>
      rw [sendFailed]
      split
      · exact Quiet.of_pump rfl rfl
      · cases flushing with
        | true => exact hsent
        | false => exact Quiet.of_pump rfl rfl
  | framePump => exact Quiet.of_pump rfl rfl
  | telemetryPump =>
      obtain ⟨tel, hpump, -⟩ := hsending
      exact Quiet.of_moved (q := .returned) rfl hpump rfl (by simp) (by simp)
  | readLoop =>
      cases flushing with
      | true => exact hsent
      | false => exact Quiet.of_pump rfl rfl

/-- **The quiet steps.** -/
theorem step_quiet (hwf : s.Wf) (hph : s.Phases c) {e : Event} (hpush : ∀ pkt, e ≠ .push pkt)
    (htick : e ≠ .selectTick) (hlock : ∀ t, e ≠ .lock t) : s.Quiet (step c s e) := by
  cases e with
  | push pkt => exact absurd rfl (hpush pkt)
  | selectTick => exact absurd rfl htick
  | lock t => exact absurd rfl (hlock t)
  | popTurn expired =>
      rw [step, popTurn]
      repeat' split
      all_goals exact Quiet.of_pump rfl rfl
  | popPanics =>
      rw [step, popPanics]
      split
      all_goals exact Quiet.of_pump rfl rfl
  | keyframe expired => exact waitForKeyframe_quiet expired
  | enterSelect t => exact enterSelect_quiet t
  | selectStop t => exact selectStop_quiet t
  | selectPop =>
      rw [step, selectPop]
      split
      all_goals exact Quiet.of_pump rfl rfl
  | receive msg_id payload t2 t3 =>
      rw [step, receive]
      repeat' split
      all_goals exact Quiet.of_pump rfl rfl
  | readEnds =>
      rw [step, readEnds]
      split
      all_goals exact Quiet.of_pump rfl rfl
  | write n =>
      rw [step]
      rcases write_cases s n with hsame | ⟨t, f, k, next, -, -, -, ⟨-, hpart⟩ | ⟨-, hall⟩⟩
      · rw [hsame]
        exact quiet_refl s
      · rw [hpart]
        exact Quiet.of_pump rfl rfl
      · rw [hall]
        exact Quiet.of_pump rfl rfl
  | writeFails =>
      rw [step, writeFails]
      split
      case h_1 t f n next hwriter =>
        obtain ⟨hoverflow, hlocking, hreturned, hunspawned⟩ :=
          sendFailed_quiet hwf.broken (hph.broken hwriter) hwriter false
        exact ⟨hoverflow, hlocking, hreturned, hunspawned⟩
      case h_2 => exact quiet_refl s
  | flush ok =>
      rw [step, flush]
      split
      case h_1 t hwriter =>
        cases ok with
        | true => exact sent_quiet hwf hph hwriter
        | false => exact sendFailed_quiet hwf hph hwriter true
      case h_2 => exact quiet_refl s
  | cancel =>
      rw [step, cancel]
      split
      all_goals exact Quiet.of_pump rfl rfl
  | readLoopEnded =>
      rw [step, readLoopEnded]
      split
      all_goals exact Quiet.of_pump rfl rfl
  | finish =>
      rw [step, finish]
      repeat' split
      all_goals exact Quiet.of_pump rfl rfl
  | notify => exact notify_quiet
  | joined timed_out =>
      rw [step, joined]
      repeat' split
      all_goals exact Quiet.of_pump rfl rfl
  | engineStop =>
      rw [step, engineStop]
      split
      all_goals exact Quiet.of_pump rfl rfl

/-! ### The counters -/

theorem selectTick_frames (s : Session) :
    s.selectTick.stats.frames = if (s.sampled .selectTick).isSome then 0 else s.stats.frames := by
  cases hpump : s.telemetry_pump with
  | selecting notified => simp only [selectTick, sampled, hpump, Option.isSome_some, if_true]
  | _ => simp only [selectTick, sampled, hpump, Option.isSome_none, Bool.false_eq_true, if_false]

theorem count_frames (stats : Stats) (pkt : EncodedPacket) :
    (stats.count pkt).frames = stats.frames + 1 := by
  rw [Stats.count]
  split
  · rfl
  · rfl

theorem sent_frames {t : Task} (hwriter : s.writer = some (t, .flush)) :
    (sent c s t).stats.frames = s.stats.frames + UInt32.ofNat (s.framesCounted (.flush true)) := by
  have hsame : s.stats.frames = s.stats.frames + UInt32.ofNat 0 := (UInt32.add_zero _).symm
  simp only [framesCounted, hwriter]
  cases t with
  | framePump =>
      cases hpump : s.frame_pump with
      | sending pkt =>
          simp only [sent, hpump]
          exact count_frames s.stats pkt
      | _ =>
          simp only [sent, hpump]
          exact hsame
  | run =>
      rw [sent]
      split
      · exact hsame
      · exact hsame
  | telemetryPump => exact hsame
  | readLoop => exact hsame

theorem sendFailed_frames (s : Session) (flushing : Bool) (t : Task) :
    (sendFailed c s flushing t).stats.frames = s.stats.frames := by
  cases t with
  | framePump => rfl
  | telemetryPump => rfl
  | run =>
      rw [sendFailed, sent]
      repeat' split
      all_goals rfl
  | readLoop =>
      cases flushing with
      | true => rfl
      | false => rfl

theorem flush_frames (s : Session) (ok : Bool) :
    (flush c s ok).stats.frames = s.stats.frames + UInt32.ofNat (s.framesCounted (.flush ok)) := by
  have hsame : s.stats.frames = s.stats.frames + UInt32.ofNat 0 := (UInt32.add_zero _).symm
  rw [flush]
  split
  case h_1 t hwriter =>
    cases ok with
    | true => exact sent_frames hwriter
    | false => exact (sendFailed_frames s true t).trans hsame
  case h_2 hno =>
    cases ok with
    | false => exact hsame
    | true =>
        have hzero : s.framesCounted (.flush true) = 0 := by
          rw [framesCounted]
          split
          case h_1 pkt hwriter hpump => exact (hno .framePump hwriter).elim
          case h_2 => rfl
        rw [hzero]
        exact hsame

/-- A step counts the frames that `frame_pump` has sent, or swaps the counter. -/
theorem step_frames (s : Session) (e : Event) :
    (step c s e).stats.frames =
      if (s.sampled e).isSome then 0 else s.stats.frames + UInt32.ofNat (s.framesCounted e) := by
  have hsame : ∀ s' : Session, s'.stats.frames = s.stats.frames →
      s'.stats.frames = s.stats.frames + UInt32.ofNat 0 :=
    fun _ h => h.trans (UInt32.add_zero _).symm
  cases e with
  | selectTick =>
      rw [step, selectTick_frames]
      split
      · rfl
      · exact (UInt32.add_zero _).symm
  | flush ok => exact flush_frames s ok
  | push pkt =>
      apply hsame
      rw [step, push]
      split
      · rfl
      · rfl
  | popTurn expired =>
      apply hsame
      rw [step, popTurn]
      repeat' split
      all_goals rfl
  | popPanics =>
      apply hsame
      rw [step, popPanics]
      split
      all_goals rfl
  | keyframe expired =>
      apply hsame
      show (waitForKeyframe c s expired).stats.frames = _
      unfold waitForKeyframe greet
      repeat' split
      all_goals rfl
  | enterSelect t =>
      apply hsame
      cases t with
      | framePump =>
          rw [step, enterSelect]
          split
          all_goals rfl
      | telemetryPump =>
          rw [step, enterSelect]
          split
          all_goals rfl
      | _ => rfl
  | selectStop t =>
      apply hsame
      cases t with
      | framePump =>
          rw [step, selectStop]
          split
          all_goals rfl
      | telemetryPump =>
          rw [step, selectStop]
          split
          all_goals rfl
      | _ => rfl
  | selectPop =>
      apply hsame
      rw [step, selectPop]
      split
      all_goals rfl
  | receive msg_id payload t2 t3 =>
      apply hsame
      rw [step, receive]
      repeat' split
      all_goals rfl
  | readEnds =>
      apply hsame
      rw [step, readEnds]
      split
      all_goals rfl
  | lock t =>
      apply hsame
      show (s.lock t).stats.frames = _
      unfold lock
      repeat' split
      all_goals rfl
  | write n =>
      apply hsame
      rw [step]
      rcases write_cases s n with hsame | ⟨t, f, k, next, -, -, -, ⟨-, hpart⟩ | ⟨-, hall⟩⟩
      · rw [hsame]
      · rw [hpart]
      · rw [hall]
  | writeFails =>
      apply hsame
      rw [step, writeFails]
      split
      case h_1 t f n next hwriter => exact sendFailed_frames _ false t
      case h_2 => rfl
  | cancel =>
      apply hsame
      rw [step, cancel]
      split
      all_goals rfl
  | readLoopEnded =>
      apply hsame
      rw [step, readLoopEnded]
      split
      all_goals rfl
  | finish =>
      apply hsame
      rw [step, finish]
      repeat' split
      all_goals rfl
  | notify =>
      apply hsame
      rw [step, notify]
      split
      all_goals rfl
  | joined timed_out =>
      apply hsame
      rw [step, joined]
      repeat' split
      all_goals rfl
  | engineStop =>
      apply hsame
      rw [step, engineStop]
      split
      all_goals rfl

/-- The counter of the queue is the number of packets dropped, up to its saturation. -/
def Tallied (s : Session) : Prop := s.queue.dropped_overflow = min s.overflowed (2 ^ 64 - 1)

theorem start_tallied : (start c).Tallied := rfl

theorem overflowed_push (s : Session) (dropped : Option EncodedPacket) :
    (s.departed ++ dropped.toList.map (·, Departure.overflowed)).countP (fun d => d.2 = .overflowed) =
      s.overflowed + if dropped.isSome then 1 else 0 := by
  rw [List.countP_append]
  cases dropped with
  | none => rfl
  | some pkt => rfl

/-- Only a push counts in the queue. -/
theorem step_dropped_overflow (hwf : s.Wf) (hph : s.Phases c) {e : Event}
    (hpush : ∀ pkt, e ≠ .push pkt) :
    (step c s e).queue.dropped_overflow = s.queue.dropped_overflow := by
  by_cases htick : e = .selectTick
  · rw [htick, step, selectTick]
    split
    all_goals rfl
  by_cases hlock : ∃ t, e = .lock t
  · obtain ⟨t, rfl⟩ := hlock
    show (s.lock t).queue.dropped_overflow = _
    unfold lock
    repeat' split
    all_goals rfl
  · exact (step_quiet hwf hph hpush htick fun t ht => hlock ⟨t, ht⟩).overflow

theorem popTurn_overflowed (expired : Bool) : (s.popTurn expired).overflowed = s.overflowed := by
  rw [popTurn]
  split
  case h_1 =>
    split
    case h_1 => rfl
    case h_2 => rfl
    case h_3 pkt hpopped =>
      show (s.departed ++ _).countP _ = s.departed.countP _
      rw [List.countP_append]
      split
      · rfl
      · rfl
  case h_2 => rfl

/-- The queue's counter goes on with each packet dropped, and is touched by no one else. -/
theorem step_tallied (hwf : s.Wf) (hph : s.Phases c) (h : s.Tallied) (e : Event) :
    (step c s e).Tallied ∧ s.overflowed ≤ (step c s e).overflowed := by
  by_cases hpush : ∃ pkt, e = .push pkt
  · obtain ⟨pkt, rfl⟩ := hpush
    rw [step, push]
    split
    · exact ⟨h, le_rfl⟩
    · rw [Tallied, overflowed, overflowed_push, PacketQueue.push_dropped_overflow, h]
      split
      · refine ⟨?_, Nat.le_add_right _ _⟩
        omega
      · exact ⟨rfl, Nat.le_add_right _ _⟩
  · have hno : ∀ pkt, e ≠ .push pkt := fun pkt he => hpush ⟨pkt, he⟩
    have hcount : (step c s e).overflowed = s.overflowed := by
      by_cases hpop : ∃ expired, e = .popTurn expired
      · obtain ⟨expired, rfl⟩ := hpop
        exact popTurn_overflowed expired
      · rw [overflowed, (step_departed s hno fun expired he => hpop ⟨expired, he⟩).1]
        rfl
    rw [Tallied, step_dropped_overflow hwf hph hno, hcount]
    exact ⟨h, le_rfl⟩

/-! ### The messages -/

theorem telemetries_begins {e : Event} (hlock : ∀ t, e ≠ .lock t) : telemetries (begins c s e) = [] := by
  cases e with
  | lock t => exact absurd rfl (hlock t)
  | keyframe expired =>
      rw [begins]
      split
      · split
        · rfl
        · rfl
      · rfl
  | _ => rfl

/-- What a task other than the pump still has to send is no telemetry. -/
theorem telemetries_unbegun (hwf : s.Wf) {t : Task} {w : Writing} (hwriter : s.writer = some (t, w))
    (ht : t ≠ .telemetryPump) (hrun : t = .run → s.run ≠ .greeting) : telemetries w.unbegun = [] := by
  have hsending := (hwf.holder t w hwriter).subset Writing.unbegun_subset
  apply telemetries_of_none
  intro f hf
  cases t with
  | telemetryPump => exact absurd rfl ht
  | run =>
      rcases hsending with hgreeting | ⟨-, hfs⟩
      · exact absurd hgreeting (hrun rfl)
      · rw [hfs f hf]
        decide
  | framePump =>
      obtain ⟨pkt, -, hfs⟩ := hsending
      rw [hfs f hf]
      exact (by decide : msgVideoFrame ≠ msgTelemetry)
  | readLoop =>
      obtain ⟨resp, -, hfs⟩ := hsending
      rw [hfs f hf]
      exact (by decide : msgTimeSyncResp ≠ msgTelemetry)

/-- The read loop is dropped with what it had to send. -/
theorem dropReadLoop_telemetries (hwf : s.Wf) :
    telemetries s.dropReadLoop.script = telemetries s.script := by
  rcases dropReadLoop_script s with hsame | ⟨t, w, hwriter, hscript, hrun, -⟩
  · rw [hsame]
  · cases t with
    | readLoop =>
        rw [hscript, telemetries_append, telemetries_unbegun hwf hwriter nofun nofun, List.append_nil]
    | _ =>
        have hsame : s.dropReadLoop.writer = s.writer := by
          rw [dropReadLoop, hwriter]
        rw [script, script, hsame]
        rfl

/-- A write fails: the task ends with what it had to send. -/
theorem writeFails_telemetries (hwf : s.Wf) (hgreeting : s.run = .greeting → telemetries s.script = []) :
    telemetries (writeFails c s).script = telemetries s.script ∨
      (writeFails c s).telemetry_pump = .returned ∧
        telemetries (writeFails c s).script <+: telemetries s.script := by
  rcases writeFails_script (c := c) s with hsame | ⟨t, w, hwriter, hscript, -, -⟩
  · rw [hsame]
    exact Or.inl rfl
  · have hfront : telemetries (writeFails c s).script <+: telemetries s.script := by
      rw [hscript, telemetries_append]
      exact List.prefix_append _ _
    by_cases hrun : t = .run ∧ s.run = .greeting
    · left
      rw [hgreeting hrun.2] at hfront ⊢
      exact List.prefix_nil.1 hfront
    by_cases ht : t = .telemetryPump
    · subst ht
      cases w with
      | frame f n next =>
          right
          refine ⟨?_, hfront⟩
          simp only [writeFails, hwriter]
          rfl
      | flush =>
          left
          simp only [writeFails, hwriter]
    · left
      rw [hscript, telemetries_append, telemetries_unbegun hwf hwriter ht fun h h' => hrun ⟨h, h'⟩,
        List.append_nil]

/-- A step of the others: the telemetry in the script stays, or the pump ends with a part of it. -/
theorem step_telemetries (hwf : s.Wf) (hph : s.Phases c) {e : Event} (hlock : ∀ t, e ≠ .lock t)
    (hgreeting : s.run = .greeting → telemetries s.script = []) :
    telemetries (step c s e).script = telemetries s.script ∨
      (step c s e).telemetry_pump = .returned ∧
        telemetries (step c s e).script <+: telemetries s.script := by
  by_cases hfails : e = .writeFails
  · rw [hfails]
    exact writeFails_telemetries hwf hgreeting
  by_cases hcancel : e = .cancel
  · left
    rw [hcancel, step, cancel]
    split
    · exact dropReadLoop_telemetries hwf
    · rfl
  by_cases hfinish : e = .finish
  · left
    rw [hfinish, step, finish]
    repeat' split
    · exact dropReadLoop_telemetries hwf
    · rfl
    · rfl
  · left
    rw [script_grows hwf hph hfails hcancel hfinish, telemetries_append, telemetries_begins hlock,
      List.append_nil]

/-- What the pump has sampled and not yet begun to send. -/
def pendingTelemetry (s : Session) : List Frame :=
  match s.telemetry_pump with
  | .locking tel => [telemetryFrame tel]
  | _ => []

/-- The telemetry in the script and the one in front of the writer are the frames sampled; a pump that has
ended may have left some out at the end. -/
structure Sends (s : Session) (sampled : List Frame) : Prop where
  sent : telemetries s.script ++ s.pendingTelemetry = sampled ∨
    s.telemetry_pump = .returned ∧ telemetries s.script <+: sampled
  unspawned : s.telemetry_pump = .unspawned → sampled = []

theorem Sends.front {sampled : List Frame} (h : s.Sends sampled) : telemetries s.script <+: sampled := by
  rcases h.sent with h | h
  · rw [← h]
    exact List.prefix_append _ _
  · exact h.2

theorem start_sends : (start c).Sends [] where
  sent := by
    left
    cases hoff : c.screen_off with
    | true =>
        rw [script, start, hoff]
        rfl
    | false =>
        rw [script, start, hoff]
        rfl
  unspawned := fun _ => rfl

theorem Quiet.pending {s' : Session} (h : s.Quiet s') : s'.pendingTelemetry = s.pendingTelemetry := by
  rw [pendingTelemetry, pendingTelemetry]
  cases hpump : s.telemetry_pump with
  | locking tel => rw [(h.locking tel).2 hpump]
  | _ =>
      cases hpump' : s'.telemetry_pump with
      | locking tel =>
          rw [(h.locking tel).1 hpump'] at hpump
          cases hpump
      | _ => rfl

theorem Quiet.sends {s' : Session} {sampled : List Frame} (hquiet : s.Quiet s') (h : s.Sends sampled)
    (hscript : telemetries s'.script = telemetries s.script ∨
      s'.telemetry_pump = .returned ∧ telemetries s'.script <+: telemetries s.script) :
    s'.Sends sampled where
  sent := by
    rcases hscript with hsame | ⟨hreturned, hfront⟩
    · rw [hsame, hquiet.pending]
      exact h.sent.imp_right fun h' => ⟨hquiet.returned h'.1, h'.2⟩
    · exact Or.inr ⟨hreturned, hfront.trans h.front⟩
  unspawned := fun hpump => h.unspawned (hquiet.unspawned hpump)

theorem telemetries_begins_lock {t : Task} (ht : t ≠ .telemetryPump) :
    telemetries (begins c s (.lock t)) = [] := by
  cases hwriter : s.writer with
  | some held => simp only [begins, hwriter, telemetries, List.filter_nil]
  | none =>
      cases t with
      | telemetryPump => exact absurd rfl ht
      | run =>
          simp only [begins, hwriter]
          split
          · rfl
          · rfl
      | framePump =>
          simp only [begins, hwriter]
          split
          · rfl
          · rfl
      | readLoop =>
          simp only [begins, hwriter]
          split
          · rfl
          · rfl

/-- The pump stays where it is, and so does the telemetry in the script. -/
theorem Sends.same {s' : Session} {sampled : List Frame} (h : s.Sends sampled)
    (hpump : s'.telemetry_pump = s.telemetry_pump)
    (hscript : telemetries s'.script = telemetries s.script) : s'.Sends sampled where
  sent := by
    rw [hscript, pendingTelemetry, hpump]
    exact h.sent
  unspawned := fun hun => h.unspawned (hpump.symm.trans hun)

/-- The pump gets the writer for its sample. -/
theorem lock_sends (c : SessionConfig) {sampled : List Frame} (t : Task) (h : s.Sends sampled) :
    (s.lock t).Sends sampled := by
  by_cases ht : t = .telemetryPump
  · subst ht
    cases hwriter : s.writer with
    | some held =>
        simp only [lock, hwriter]
        exact h
    | none =>
        cases hpump : s.telemetry_pump with
        | locking tel =>
            have hscript : (s.lock .telemetryPump).script = s.script ++ [telemetryFrame tel] := by
              rw [lock_script (c := c)]
              simp only [begins, hwriter, hpump]
            have hsent : telemetries s.script ++ [telemetryFrame tel] = sampled := by
              have hfirst := h.sent.resolve_right fun hr => by rw [hpump] at hr; cases hr.1
              rwa [pendingTelemetry, hpump] at hfirst
            have hnext : (s.lock .telemetryPump).telemetry_pump = .sending tel := by
              simp only [lock, hwriter, hpump]
            refine ⟨Or.inl ?_, fun hun => ?_⟩
            · rw [hscript, telemetries_append, pendingTelemetry, hnext, List.append_nil]
              exact hsent
            · rw [hnext] at hun
              cases hun
        | _ =>
            simp only [lock, hwriter, hpump]
            exact h
  · apply h.same
    · unfold lock
      repeat' split
      all_goals first
        | rfl
        | exact absurd rfl ht
    · rw [lock_script (c := c), telemetries_append, telemetries_begins_lock ht, List.append_nil]

/-- The pump takes a sample. -/
theorem selectTick_sends {sampled : List Frame} (h : s.Sends sampled) :
    s.selectTick.Sends (sampled ++ (s.sampled .selectTick).toList.map telemetryFrame) := by
  have hscript : s.selectTick.script = s.script := selectTick_sameRun.script
  cases hpump : s.telemetry_pump with
  | selecting notified =>
      have hsent : telemetries s.script = sampled := by
        have hfirst := h.sent.resolve_right fun hr => by rw [hpump] at hr; cases hr.1
        rwa [pendingTelemetry, hpump, List.append_nil] at hfirst
      have hnext : s.selectTick.telemetry_pump = .locking s.sample := by
        simp only [selectTick, hpump]
      have hsampled : s.sampled .selectTick = some s.sample := by
        simp only [Session.sampled, hpump]
      refine ⟨Or.inl ?_, fun hun => ?_⟩
      · rw [hscript, pendingTelemetry, hnext, hsampled, hsent]
        rfl
      · rw [hnext] at hun
        cases hun
  | _ =>
      have hsame : s.selectTick = s := by
        simp only [selectTick, hpump]
      have hsampled : s.sampled .selectTick = none := by
        simp only [Session.sampled, hpump]
      rw [hsame, hsampled, Option.toList_none, List.map_nil, List.append_nil]
      exact h

/-- **A step of the messages.** -/
theorem step_sends (hwf : s.Wf) (hph : s.Phases c) {sampled : List Frame} (h : s.Sends sampled)
    (e : Event) : (step c s e).Sends (sampled ++ (s.sampled e).toList.map telemetryFrame) := by
  by_cases htick : e = .selectTick
  · rw [htick]
    exact selectTick_sends h
  have hnone : s.sampled e = none := by
    cases e with
    | selectTick => exact absurd rfl htick
    | _ => rfl
  rw [hnone, Option.toList_none, List.map_nil, List.append_nil]
  by_cases hlock : ∃ t, e = .lock t
  · obtain ⟨t, rfl⟩ := hlock
    exact lock_sends c t h
  have hno : ∀ t, e ≠ .lock t := fun t he => hlock ⟨t, he⟩
  have hgreeting : s.run = .greeting → telemetries s.script = [] := by
    intro hrun
    have hempty := h.unspawned (hph.unspawned (.inr (.inl hrun))).2.1
    have hfront := h.front
    rw [hempty] at hfront
    exact List.prefix_nil.1 hfront
  by_cases hpush : ∃ pkt, e = .push pkt
  · obtain ⟨pkt, rfl⟩ := hpush
    apply h.same
    · rw [step, push]
      split
      · rfl
      · rfl
    · exact congrArg telemetries (push_sameRun pkt).script
  · exact (step_quiet hwf hph (fun pkt he => hpush ⟨pkt, he⟩) htick hno).sends h
      (step_telemetries hwf hph hno hgreeting)

end Session

/-! ### The ledger -/

/-- A session, what `frame_pump` has counted in it, and the samples it has taken. -/
structure Ledger where
  session : Session
  counted : ℕ
  samples : List Sample

namespace Ledger

def start (c : SessionConfig) : Ledger := ⟨.start c, 0, []⟩

/-- The sample of the step. -/
def sample (g : Ledger) (e : Event) : Option Sample :=
  (g.session.sampled e).map fun tel => ⟨tel, g.counted, g.session.overflowed⟩

def step (c : SessionConfig) (g : Ledger) (e : Event) : Ledger where
  session := g.session.step c e
  counted := g.counted + g.session.framesCounted e
  samples := g.samples ++ (g.sample e).toList

def after (c : SessionConfig) (es : List Event) : Ledger := es.foldl (step c) (start c)

/-- What the counters stood at, at the last sample. -/
def lastCounted (g : Ledger) : ℕ := (g.samples.map Sample.counted).getLastD 0

def lastDropped (g : Ledger) : ℕ := (g.samples.map Sample.dropped).getLastD 0

/-- Since the last sample, fewer than `2 ^ 32` frames were counted and fewer packets dropped. -/
def Interval (g : Ledger) (e : Event) : Prop :=
  ∀ x ∈ g.sample e, x.counted < g.lastCounted + 2 ^ 32 ∧ x.dropped < g.lastDropped + 2 ^ 32

instance (g : Ledger) (e : Event) : Decidable (g.Interval e) :=
  inferInstanceAs (Decidable (∀ x ∈ g.sample e, _))

/-- The fields of the messages up to each sample sum up to what the counters stood at. -/
structure PerInterval (g : Ledger) : Prop where
  frames : Readings.PerInterval (g.samples.map fun x => x.telemetry.frames.toNat)
    (g.samples.map Sample.counted)
  dropped : Readings.PerInterval (g.samples.map fun x => x.telemetry.dropped.toNat)
    (g.samples.map Sample.dropped)

variable {c : SessionConfig}

theorem after_session (c : SessionConfig) (es : List Event) :
    (after c es).session = Session.after c es := by
  have h : ∀ g : Ledger, (es.foldl (step c) g).session = es.foldl (Session.step c) g.session := by
    induction es with
    | nil => exact fun _ => rfl
    | cons e es ih => exact fun g => ih (step c g e)
  exact h (start c)

/-- **The invariant.** -/
structure Inv (c : SessionConfig) (g : Ledger) : Prop where
  wf : g.session.Wf
  phases : g.session.Phases c
  tallied : g.session.Tallied
  sends : g.session.Sends (g.samples.map fun x => telemetryFrame x.telemetry)
  frames : g.session.stats.frames = UInt32.ofNat (g.counted - g.lastCounted)
  counted_le : g.lastCounted ≤ g.counted
  dropped_le : g.lastDropped ≤ g.session.overflowed
  swapped : g.samples.map (fun x => x.telemetry.frames.toNat) =
    Readings.swapped (2 ^ 32) 0 (g.samples.map Sample.counted)
  narrowed : g.samples.map (fun x => x.telemetry.dropped.toNat) =
    (g.samples.map Sample.dropped).map fun d => min d (2 ^ 64 - 1) % 2 ^ 32
  spaced_counted : Readings.Spaced (2 ^ 32) 0 (g.samples.map Sample.counted)
  spaced_dropped : Readings.Spaced (2 ^ 32) 0 (g.samples.map Sample.dropped)

theorem inv_start : (start c).Inv c where
  wf := Session.start_wf
  phases := Session.start_phases
  tallied := Session.start_tallied
  sends := Session.start_sends
  frames := rfl
  counted_le := le_rfl
  dropped_le := Nat.zero_le _
  swapped := rfl
  narrowed := rfl
  spaced_counted := trivial
  spaced_dropped := trivial

theorem sampled_eq {s : Session} {e : Event} {tel : Telemetry} (h : s.sampled e = some tel) :
    e = .selectTick ∧ tel = s.sample := by
  cases e with
  | selectTick =>
      rw [Session.sampled] at h
      split at h
      · exact ⟨rfl, (Option.some.inj h).symm⟩
      · cases h
  | _ => cases h

/-- A step without a sample. -/
theorem inv_step_none {g : Ledger} {e : Event} (h : g.Inv c) (hnone : g.session.sampled e = none) :
    (step c g e).Inv c := by
  obtain ⟨htallied, hle⟩ := Session.step_tallied h.wf h.phases h.tallied e
  have hsends := Session.step_sends h.wf h.phases h.sends e
  have hframes := Session.step_frames (c := c) g.session e
  have hsamples : (step c g e).samples = g.samples := by
    simp only [step, sample, hnone, Option.map_none, Option.toList_none, List.append_nil]
  rw [hnone, Option.toList_none, List.map_nil, List.append_nil] at hsends
  have hcounted : g.counted + g.session.framesCounted e - g.lastCounted =
      g.counted - g.lastCounted + g.session.framesCounted e := by
    have := h.counted_le
    omega
  exact {
    wf := Session.step_wf h.wf e
    phases := Session.step_phases h.wf h.phases e
    tallied := htallied
    sends := by
      rw [hsamples]
      exact hsends
    frames := by
      rw [lastCounted, hsamples]
      show (g.session.step c e).stats.frames = UInt32.ofNat (g.counted + _ - g.lastCounted)
      rw [hframes, hnone, hcounted, UInt32.ofNat_add, h.frames]
      rfl
    counted_le := by
      rw [lastCounted, hsamples]
      exact h.counted_le.trans (Nat.le_add_right _ _)
    dropped_le := by
      rw [lastDropped, hsamples]
      exact h.dropped_le.trans hle
    swapped := by
      rw [hsamples]
      exact h.swapped
    narrowed := by
      rw [hsamples]
      exact h.narrowed
    spaced_counted := by
      rw [hsamples]
      exact h.spaced_counted
    spaced_dropped := by
      rw [hsamples]
      exact h.spaced_dropped }

/-- A sample. -/
theorem inv_step_some {g : Ledger} {e : Event} {tel : Telemetry} (h : g.Inv c)
    (hsome : g.session.sampled e = some tel) (hinterval : g.Interval e) : (step c g e).Inv c := by
  obtain ⟨htallied, hle⟩ := Session.step_tallied h.wf h.phases h.tallied e
  have hsends := Session.step_sends h.wf h.phases h.sends e
  have hframes := Session.step_frames (c := c) g.session e
  have hsample : g.sample e = some ⟨tel, g.counted, g.session.overflowed⟩ := by
    rw [sample, hsome]
    rfl
  have hsamples : (step c g e).samples = g.samples ++ [⟨tel, g.counted, g.session.overflowed⟩] := by
    simp only [step, hsample, Option.toList_some]
  obtain ⟨hcounted, hdropped⟩ := hinterval _ hsample
  rw [hsome] at hsends hframes
  obtain ⟨he, htel⟩ := sampled_eq hsome
  have hlastCounted : (step c g e).lastCounted = g.counted := by
    rw [lastCounted, hsamples, List.map_append]
    exact List.getLastD_concat ..
  have hlastDropped : (step c g e).lastDropped = g.session.overflowed := by
    rw [lastDropped, hsamples, List.map_append]
    exact List.getLastD_concat ..
  have hgoesOn : (step c g e).counted = g.counted := by
    rw [step, he]
    rfl
  have htelFrames : tel.frames.toNat = (g.counted - g.lastCounted) % 2 ^ 32 := by
    rw [htel]
    show g.session.stats.frames.toNat = _
    rw [h.frames]
    exact UInt32.toNat_ofNat'
  have htelDropped : tel.dropped.toNat = min g.session.overflowed (2 ^ 64 - 1) % 2 ^ 32 := by
    rw [htel]
    show (UInt32.ofNat g.session.queue.dropped_overflow).toNat = _
    rw [h.tallied]
    exact UInt32.toNat_ofNat'
  exact {
    wf := Session.step_wf h.wf e
    phases := Session.step_phases h.wf h.phases e
    tallied := htallied
    sends := by
      rw [hsamples, List.map_append]
      exact hsends
    frames := by
      rw [hlastCounted, hgoesOn, Nat.sub_self]
      exact hframes
    counted_le := by
      rw [hlastCounted, hgoesOn]
    dropped_le := by
      rw [hlastDropped]
      exact hle
    swapped := by
      rw [hsamples, List.map_append, List.map_append, h.swapped]
      show _ ++ [tel.frames.toNat] = _
      rw [htelFrames]
      exact (Readings.swapped_concat 0 g.counted _).symm
    narrowed := by
      rw [hsamples, List.map_append, List.map_append, List.map_append, h.narrowed]
      show _ ++ [tel.dropped.toNat] = _
      rw [htelDropped]
      rfl
    spaced_counted := by
      rw [hsamples, List.map_append]
      exact Readings.spaced_concat.2 ⟨h.spaced_counted, h.counted_le, hcounted⟩
    spaced_dropped := by
      rw [hsamples, List.map_append]
      exact Readings.spaced_concat.2 ⟨h.spaced_dropped, h.dropped_le, hdropped⟩ }

theorem inv_step (g : Ledger) (e : Event) (h : g.Inv c) (hinterval : g.Interval e) :
    (step c g e).Inv c := by
  cases hsampled : g.session.sampled e with
  | none => exact inv_step_none h hsampled
  | some tel => exact inv_step_some h hsampled hinterval

/-- A word of the queue's counter, as long as that is below `2 ^ 33`. -/
theorem narrow_eq {d : ℕ} (hd : d < 2 * 2 ^ 32) : min d (2 ^ 64 - 1) % 2 ^ 32 = d % 2 ^ 32 := by
  rw [Nat.min_eq_left (by omega)]

/-- The frames are per interval in any case. -/
theorem Inv.frames_perInterval {g : Ledger} (h : g.Inv c) :
    Readings.PerInterval (g.samples.map fun x => x.telemetry.frames.toNat)
      (g.samples.map Sample.counted) := by
  rw [h.swapped]
  exact Readings.perInterval_swapped h.spaced_counted

theorem Inv.dropped_perInterval_iff {g : Ledger} (h : g.Inv c) :
    g.PerInterval ↔ ∀ x ∈ g.samples.dropLast, x.dropped = 0 := by
  have hnarrowed := Readings.perInterval_narrowed_iff (Nat.two_pow_pos 32) (fun d => narrow_eq)
    h.spaced_dropped
  have hzero : (∀ d ∈ (g.samples.map Sample.dropped).dropLast, d = 0) ↔
      ∀ x ∈ g.samples.dropLast, x.dropped = 0 := by
    rw [← List.map_dropLast, List.forall_mem_map]
  constructor
  · intro hper
    have hdropped := hper.dropped
    rw [h.narrowed] at hdropped
    exact hzero.1 (hnarrowed.1 hdropped)
  · intro hdropped
    refine ⟨h.frames_perInterval, ?_⟩
    rw [h.narrowed]
    exact hnarrowed.2 (hzero.2 hdropped)

/-- **What the telemetry counts.**  The `TELEMETRY` messages are the samples in order, and their fields are
per interval exactly where the queue had dropped no packet by overflow at any sample but the last. -/
theorem perInterval_iff (c : SessionConfig) (es : List Event)
    (hinterval : Run.Steps (step c) Interval (start c) es) :
    telemetries ((Session.after c es).wire.map (·.frame)) <+:
        (after c es).samples.map (fun x => telemetryFrame x.telemetry) ∧
      ((after c es).PerInterval ↔ ∀ x ∈ (after c es).samples.dropLast, x.dropped = 0) := by
  have hinv : (after c es).Inv c := Run.Steps.invariant inv_step inv_start hinterval
  refine ⟨?_, hinv.dropped_perInterval_iff⟩
  -- the wire is the front of the script
  have hfront := hinv.sends.front
  rw [after_session, Session.script, telemetries_append] at hfront
  exact (List.prefix_append _ _).trans hfront

/-- A frame is counted at the first sample, and a packet dropped in front of the second. -/
theorem perInterval_one_overflow :
    (after (.fullHd false 1) [.push (.idr 0), .popTurn false, .keyframe false, .write 16, .write 9,
      .write 10, .write 24, .flush true, .push (.delta 1), .enterSelect .framePump,
      .enterSelect .telemetryPump, .popTurn false, .selectPop, .lock .framePump, .write 19, .flush true,
      .selectTick, .lock .telemetryPump, .write 26, .flush true, .enterSelect .telemetryPump,
      .push (.delta 2), .push (.delta 3), .selectTick]).PerInterval :=
  (perInterval_iff _ _ (by decide +kernel)).2.2 (by decide +kernel)

/-- A packet is dropped in front of the first sample: both messages report it. -/
theorem dropped_twice : ¬ ∀ (c : SessionConfig) (es : List Event),
    Run.Steps (step c) Interval (start c) es → (after c es).PerInterval := by
  intro h
  have hper := h (.fullHd false 1) [.push (.idr 0), .popTurn false, .keyframe false, .write 16,
    .write 9, .write 10, .write 24, .flush true, .enterSelect .telemetryPump, .push (.delta 1),
    .push (.delta 2), .selectTick, .lock .telemetryPump, .write 26, .flush true,
    .enterSelect .telemetryPump, .selectTick] (by decide +kernel)
  have hsum := hper.dropped 1 (by decide +kernel)
  revert hsum
  decide +kernel

end Ledger

end Penflow
