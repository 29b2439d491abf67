import Penflow.Server.Moves

/-!
# The writer of a session

One task at a time holds the writer and puts its frames on the wire.  `Wf` says what the holder sends and
how far it is.
-/

namespace Penflow

/-- The frames the holder has still to finish. -/
def Writing.frames : Writing → List Frame
  | .frame f _ next => f :: next
  | .flush => []

/-- The frames the holder has still to begin. -/
def Writing.unbegun : Writing → List Frame
  | .frame f 0 next => f :: next
  | .frame _ (_ + 1) next => next
  | .flush => []

theorem Writing.unbegun_subset {w : Writing} : ∀ f ∈ w.unbegun, f ∈ w.frames := by
  intro f hf
  cases w with
  | frame g written next =>
      cases written with
      | zero => exact hf
      | succ n => exact List.mem_cons_of_mem g hf
  | flush => cases hf

/-- The events that touch neither the run nor the writer. -/
def Event.aside : Event → Bool
  | .push _ | .popTurn _ | .popPanics | .enterSelect _ | .selectStop _ | .selectPop | .selectTick
  | .receive _ _ _ _ | .readEnds => true
  | _ => false

namespace Session

/-! ### The holder -/

/-- The task is sending, and these are frames of what it sends. -/
def Sending (s : Session) (fs : List Frame) : Task → Prop
  | .run => s.run = .greeting ∨ s.run = .goodbye ∧ ∀ f ∈ fs, f = goodbyeFrame
  | .framePump => ∃ pkt, s.frame_pump = .sending pkt ∧ ∀ f ∈ fs, f = pumpFrame pkt
  | .telemetryPump => ∃ tel, s.telemetry_pump = .sending tel ∧ ∀ f ∈ fs, f = telemetryFrame tel
  | .readLoop => ∃ resp, s.read_loop = .sending resp ∧ ∀ f ∈ fs, f = respFrame resp

theorem Sending.subset {s : Session} {t : Task} {fs gs : List Frame} (h : s.Sending fs t)
    (hsub : ∀ g ∈ gs, g ∈ fs) : s.Sending gs t := by
  cases t with
  | run =>
      rcases h with h | ⟨h, hfs⟩
      · exact .inl h
      · exact .inr ⟨h, fun g hg => hfs g (hsub g hg)⟩
  | framePump =>
      obtain ⟨pkt, h, hfs⟩ := h
      exact ⟨pkt, h, fun g hg => hfs g (hsub g hg)⟩
  | telemetryPump =>
      obtain ⟨tel, h, hfs⟩ := h
      exact ⟨tel, h, fun g hg => hfs g (hsub g hg)⟩
  | readLoop =>
      obtain ⟨resp, h, hfs⟩ := h
      exact ⟨resp, h, fun g hg => hfs g (hsub g hg)⟩

/-- Every task that sends goes on sending the same. -/
structure KeepsSending (s s' : Session) : Prop where
  run : s.run = .greeting ∨ s.run = .goodbye → s'.run = s.run
  frame_pump : ∀ pkt, s.frame_pump = .sending pkt → s'.frame_pump = .sending pkt
  telemetry_pump : ∀ tel, s.telemetry_pump = .sending tel → s'.telemetry_pump = .sending tel
  read_loop : ∀ resp, s.read_loop = .sending resp → s'.read_loop = .sending resp

theorem Sending.keep {s s' : Session} {t : Task} {fs : List Frame} (h : s.Sending fs t)
    (hkeep : s.KeepsSending s') : s'.Sending fs t := by
  cases t with
  | run =>
      rcases h with h | ⟨h, hfs⟩
      · exact .inl ((hkeep.run (.inl h)).trans h)
      · exact .inr ⟨(hkeep.run (.inr h)).trans h, hfs⟩
  | framePump =>
      obtain ⟨pkt, h, hfs⟩ := h
      exact ⟨pkt, hkeep.frame_pump pkt h, hfs⟩
  | telemetryPump =>
      obtain ⟨tel, h, hfs⟩ := h
      exact ⟨tel, hkeep.telemetry_pump tel h, hfs⟩
  | readLoop =>
      obtain ⟨resp, h, hfs⟩ := h
      exact ⟨resp, hkeep.read_loop resp h, hfs⟩

/-- The holder of the writer sends what its phase says, and its frame is the last on the wire as far as it
is written. -/
structure Wf (s : Session) : Prop where
  holder : ∀ t w, s.writer = some (t, w) → s.Sending w.frames t
  short : ∀ t f n next, s.writer = some (t, .frame f n next) →
    n < f.encode.length
  progress : s.broken = false → ∀ t f n next, s.writer = some (t, .frame f (n + 1) next) →
    ∃ pre, s.wire = pre ++ [⟨f, n + 1⟩]

theorem Wf.of_none {s : Session} (h : s.writer = none) : s.Wf := by
  refine ⟨?_, ?_, ?_⟩
  · intro t w hw
    rw [h] at hw
    cases hw
  · intro t f n next hw
    rw [h] at hw
    cases hw
  · intro _ t f n next hw
    rw [h] at hw
    cases hw

/-- The holder begins. -/
theorem Wf.of_begin {s : Session} {t : Task} {f : Frame} {next : List Frame}
    (h : s.writer = some (t, .frame f 0 next)) (hsending : s.Sending (f :: next) t) : s.Wf := by
  refine ⟨?_, ?_, ?_⟩
  · intro t' w hw
    rw [h] at hw
    cases hw
    exact hsending
  · intro t' g n next' hw
    rw [h] at hw
    cases hw
    rw [Frame.encode_length]
    omega
  · intro _ t' g n next' hw
    rw [h] at hw
    cases hw

theorem Wf.of_flush {s : Session} {t : Task} (h : s.writer = some (t, .flush))
    (hsending : s.Sending [] t) : s.Wf := by
  refine ⟨?_, ?_, ?_⟩
  · intro t' w hw
    rw [h] at hw
    cases hw
    exact hsending
  · intro t' g n next' hw
    rw [h] at hw
    cases hw
  · intro _ t' g n next' hw
    rw [h] at hw
    cases hw

/-- The writer is as it was. -/
theorem Wf.keep {s s' : Session} (h : s.Wf) (hkeep : s.KeepsSending s') (hwriter : s'.writer = s.writer)
    (hwire : s'.wire = s.wire) (hbroken : s'.broken = s.broken) : s'.Wf := by
  refine ⟨?_, ?_, ?_⟩
  · intro t w hw
    exact (h.holder t w (hwriter ▸ hw)).keep hkeep
  · intro t f n next hw
    exact h.short t f n next (hwriter ▸ hw)
  · intro hb t f n next hw
    rw [hwire]
    exact h.progress (hbroken ▸ hb) t f n next (hwriter ▸ hw)

variable {c : SessionConfig} {s : Session}

theorem start_wf : (start c).Wf := by
  cases hoff : c.screen_off with
  | true =>
      have hwriter : (start c).writer = some (.run, .frame c.helloFrame 0 [c.configFrame]) := by
        rw [start, hoff]
        rfl
      refine Wf.of_begin hwriter (.inl ?_)
      rw [start, hoff]
      rfl
  | false =>
      apply Wf.of_none
      rw [start, hoff]
      rfl

/-! ### Steps that leave the writer alone -/

/-- What a step leaves alone that does not touch the writer. -/
structure SameWriter (s s' : Session) : Prop extends KeepsSending s s' where
  writer : s'.writer = s.writer
  wire : s'.wire = s.wire
  broken : s'.broken = s.broken

theorem SameWriter.wf {s' : Session} (hsame : s.SameWriter s') (h : s.Wf) : s'.Wf :=
  h.keep hsame.toKeepsSending hsame.writer hsame.wire hsame.broken

theorem SameWriter.of {s' : Session}
    (run : s.run = .greeting ∨ s.run = .goodbye → s'.run = s.run)
    (frame_pump : ∀ pkt, s.frame_pump = .sending pkt → s'.frame_pump = .sending pkt)
    (telemetry_pump : ∀ tel, s.telemetry_pump = .sending tel → s'.telemetry_pump = .sending tel)
    (read_loop : ∀ resp, s.read_loop = .sending resp → s'.read_loop = .sending resp)
    (writer : s'.writer = s.writer) (wire : s'.wire = s.wire) (broken : s'.broken = s.broken) :
    s.SameWriter s' :=
  ⟨⟨run, frame_pump, telemetry_pump, read_loop⟩, writer, wire, broken⟩

/-- What the steps of the encoder, the pops and the pumps and the reads leave alone. -/
structure SameRun (s s' : Session) : Prop extends SameWriter s s' where
  same_run : s'.run = s.run
  aborted : s'.aborted = s.aborted
  stopped : s'.stopped = s.stopped
  frame_unspawned : s.frame_pump = .unspawned → s'.frame_pump = .unspawned
  telemetry_unspawned : s.telemetry_pump = .unspawned → s'.telemetry_pump = .unspawned
  read_unspawned : s.read_loop = .unspawned → s'.read_loop = .unspawned

theorem SameRun.of {s' : Session} (hsame : s.SameWriter s') (same_run : s'.run = s.run)
    (aborted : s'.aborted = s.aborted) (stopped : s'.stopped = s.stopped)
    (frame_unspawned : s.frame_pump = .unspawned → s'.frame_pump = .unspawned)
    (telemetry_unspawned : s.telemetry_pump = .unspawned → s'.telemetry_pump = .unspawned)
    (read_unspawned : s.read_loop = .unspawned → s'.read_loop = .unspawned) : s.SameRun s' :=
  ⟨hsame, same_run, aborted, stopped, frame_unspawned, telemetry_unspawned, read_unspawned⟩

theorem push_sameRun (pkt : EncodedPacket) : s.SameRun (push c s pkt) := by
  unfold push
  split <;> apply SameRun.of (SameWriter.of ..) <;> simp

theorem popTurn_sameRun (expired : Bool) : s.SameRun (s.popTurn expired) := by
  unfold popTurn
  repeat' split
  all_goals apply SameRun.of (SameWriter.of ..) <;> simp

theorem popPanics_sameRun : s.SameRun s.popPanics := by
  unfold popPanics
  split <;> apply SameRun.of (SameWriter.of ..) <;> simp

/-- A frame pump that does not send may go anywhere. -/
theorem SameRun.of_frame_pump (hsending : ∀ pkt, s.frame_pump ≠ .sending pkt)
    (hspawned : s.frame_pump ≠ .unspawned) (frame_pump : Pump EncodedPacket) (pop : PopTask) :
    s.SameRun { s with frame_pump := frame_pump, pop := pop } := by
  refine SameRun.of (SameWriter.of (fun _ => rfl) ?_ (fun _ => id) (fun _ => id) rfl rfl rfl) rfl rfl rfl ?_
    id id
  · intro pkt h
    exact absurd h (hsending pkt)
  · intro h
    exact absurd h hspawned

theorem SameRun.of_telemetry_pump (hsending : ∀ tel, s.telemetry_pump ≠ .sending tel)
    (hspawned : s.telemetry_pump ≠ .unspawned) (telemetry_pump : Pump Telemetry) (stats : Stats) :
    s.SameRun { s with telemetry_pump := telemetry_pump, stats := stats } := by
  refine SameRun.of (SameWriter.of (fun _ => rfl) (fun _ => id) ?_ (fun _ => id) rfl rfl rfl) rfl rfl rfl id
    ?_ id
  · intro tel h
    exact absurd h (hsending tel)
  · intro h
    exact absurd h hspawned

/-- So may a read loop that reads. -/
theorem SameRun.of_reading (hread : s.read_loop = .reading) (read_loop : ReadLoop) :
    s.SameRun { s with read_loop := read_loop } := by
  refine SameRun.of (SameWriter.of (fun _ => rfl) (fun _ => id) (fun _ => id) ?_ rfl rfl rfl) rfl rfl rfl id
    id ?_
  · intro resp h
    rw [hread] at h
    cases h
  · intro h
    rw [hread] at h
    cases h

theorem SameRun.refl (s : Session) : s.SameRun s :=
  .of (.of (fun _ => rfl) (fun _ => id) (fun _ => id) (fun _ => id) rfl rfl rfl) rfl rfl rfl id id id

theorem enterSelect_sameRun (t : Task) : s.SameRun (s.enterSelect t) := by
  rcases enterSelect_cases s t with h | ⟨hhead, h⟩ | ⟨hhead, h⟩
  · rw [h]
    exact .refl s
  · rw [h]
    exact .of_frame_pump (by simp [hhead]) (by simp [hhead]) _ _
  · rw [h]
    exact .of_telemetry_pump (by simp [hhead]) (by simp [hhead]) _ _

theorem selectStop_sameRun (t : Task) : s.SameRun (s.selectStop t) := by
  rcases selectStop_cases s t with h | ⟨hselect, h⟩ | ⟨hselect, h⟩
  · rw [h]
    exact .refl s
  · rw [h]
    exact .of_frame_pump (by simp [hselect]) (by simp [hselect]) _ _
  · rw [h]
    exact .of_telemetry_pump (by simp [hselect]) (by simp [hselect]) _ _

theorem selectPop_sameRun : s.SameRun s.selectPop := by
  rcases selectPop_cases s with h | ⟨notified, hselect, ⟨pkt, -, h⟩ | ⟨-, h⟩ | ⟨-, h⟩⟩
  · rw [h]
    exact .refl s
  all_goals
    rw [h]
    exact .of_frame_pump (by simp [hselect]) (by simp [hselect]) _ _

theorem selectTick_sameRun : s.SameRun s.selectTick := by
  rcases selectTick_cases s with h | ⟨notified, hselect, h⟩
  · rw [h]
    exact .refl s
  · rw [h]
    exact .of_telemetry_pump (by simp [hselect]) (by simp [hselect]) _ _

theorem receive_sameRun (msg_id : UInt8) (payload : List UInt8) (t2 t3 : Int64) :
    s.SameRun (receive c s msg_id payload t2 t3) := by
  rcases receive_cases c s msg_id payload t2 t3 with h | ⟨hread, h | ⟨resp, h⟩⟩
  · rw [h]
    exact .refl s
  · rw [h]
    exact .of_reading hread _
  · rw [h]
    exact .of_reading hread _

theorem readEnds_sameRun : s.SameRun s.readEnds := by
  rcases readEnds_cases s with h | ⟨hread, h⟩
  · rw [h]
    exact .refl s
  · rw [h]
    exact .of_reading hread _

theorem step_sameRun {e : Event} (haside : e.aside = true) : s.SameRun (step c s e) := by
  cases e with
  | push pkt => exact push_sameRun pkt
  | popTurn expired => exact popTurn_sameRun expired
  | popPanics => exact popPanics_sameRun
  | enterSelect t => exact enterSelect_sameRun t
  | selectStop t => exact selectStop_sameRun t
  | selectPop => exact selectPop_sameRun
  | selectTick => exact selectTick_sameRun
  | receive msg_id payload t2 t3 => exact receive_sameRun msg_id payload t2 t3
  | readEnds => exact readEnds_sameRun
  | _ => cases haside

/-- The run may go on that neither greets nor says goodbye. -/
theorem SameWriter.of_run (hgreet : s.run ≠ .greeting) (hgoodbye : s.run ≠ .goodbye) (run : RunPhase)
    (queue : PacketQueue EncodedPacket) : s.SameWriter { s with run := run, queue := queue } := by
  refine .of ?_ (fun _ => id) (fun _ => id) (fun _ => id) rfl rfl rfl
  rintro (h | h)
  · exact absurd h hgreet
  · exact absurd h hgoodbye

theorem readLoopEnded_sameWriter : s.SameWriter (readLoopEnded c s) := by
  unfold readLoopEnded
  split
  case isTrue h => exact .of_run (by simp [h.1]) (by simp [h.1]) _ _
  case isFalse => exact (SameRun.refl s).toSameWriter

theorem notify_sameWriter : s.SameWriter s.notify := by
  unfold notify
  split
  case isTrue hrun =>
    refine .of ?_ (fun pkt h => ?_) (fun tel h => ?_) (fun _ => id) rfl rfl rfl
    · rw [hrun]
      rintro (h | h) <;> cases h
    · exact congrArg Pump.notify h
    · exact congrArg Pump.notify h
  case isFalse => exact (SameRun.refl s).toSameWriter

theorem joined_sameWriter (timed_out : Bool) : s.SameWriter (s.joined timed_out) := by
  rcases joined_cases s timed_out with h | ⟨hrun, -, h⟩ | ⟨hrun, -, h⟩
  · rw [h]
    exact (SameRun.refl s).toSameWriter
  · rw [h]
    exact .of_run (by simp [hrun]) (by simp [hrun]) _ _
  · rw [h]
    exact .of_run (by simp [hrun]) (by simp [hrun]) _ _

theorem engineStop_sameWriter : s.SameWriter s.engineStop := by
  unfold engineStop
  split
  case isTrue hrun => exact .of_run (by simp [hrun]) (by simp [hrun]) _ _
  case isFalse => exact (SameRun.refl s).toSameWriter

/-! ### Steps of the writer -/

theorem lock_wf (h : s.Wf) (t : Task) : (s.lock t).Wf := by
  rcases lock_cases s t with hsame | ⟨-, ⟨-, -, heq⟩ | ⟨-, pkt, -, heq⟩ | ⟨-, tel, -, heq⟩ | ⟨-, resp, -, heq⟩⟩
  · rw [hsame]
    exact h
  · rw [heq]
    exact Wf.of_begin rfl (.inr ⟨rfl, by simp⟩)
  · rw [heq]
    exact Wf.of_begin rfl ⟨pkt, rfl, by simp⟩
  · rw [heq]
    exact Wf.of_begin rfl ⟨tel, rfl, by simp⟩
  · rw [heq]
    exact Wf.of_begin rfl ⟨resp, rfl, by simp⟩

/-- The wire behind a write: the frame is its last. -/
theorem put_eq (h : s.Wf) {t : Task} {f : Frame} {k : ℕ} {next : List Frame}
    (hwriter : s.writer = some (t, .frame f k next)) (hbroken : s.broken = false) (n : ℕ) :
    ∃ pre, put s.wire f k n = pre ++ [⟨f, k + n⟩] ∧
      s.wire = pre ++ if k = 0 then [] else [⟨f, k⟩] := by
  cases k with
  | zero => exact ⟨s.wire, by rw [put, if_pos rfl, Nat.zero_add], (List.append_nil _).symm⟩
  | succ k =>
      obtain ⟨pre, hpre⟩ := h.progress hbroken t f k next hwriter
      refine ⟨pre, ?_, hpre⟩
      rw [put, if_neg (Nat.succ_ne_zero k), hpre, List.dropLast_concat]

/-- What a write does to the wire: its frame stands last, with `n` more bytes. -/
theorem write_wire (h : s.Wf) (n : ℕ) :
    (s.write n).wire = s.wire ∨ ∃ t f k next pre, s.writer = some (t, .frame f k next) ∧
      (s.wire = pre ++ if k = 0 then [] else [⟨f, k⟩]) ∧ (s.write n).wire = pre ++ [⟨f, k + n⟩] := by
  rcases write_cases s n with hsame | ⟨t, f, k, next, hwriter, hbroken, -, hpart⟩
  · exact .inl (congrArg wire hsame)
  · obtain ⟨pre, hput, hwire⟩ := put_eq h hwriter hbroken n
    refine .inr ⟨t, f, k, next, pre, hwriter, hwire, ?_⟩
    rcases hpart with ⟨-, heq⟩ | ⟨-, heq⟩
    · rw [heq]
      exact hput
    · rw [heq]
      exact hput

theorem write_wf (h : s.Wf) (n : ℕ) : (s.write n).Wf := by
  rcases write_cases s n with hsame | ⟨t, f, k, next, hwriter, hbroken, hpos, hpart | hall⟩
  · rw [hsame]
    exact h
  · obtain ⟨hlt, heq⟩ := hpart
    obtain ⟨pre, hput, -⟩ := put_eq h hwriter hbroken n
    have hsending := h.holder t _ hwriter
    rw [heq]
    refine ⟨?_, ?_, ?_⟩
    · rintro t' w ⟨rfl⟩
      exact hsending
    · rintro t' g m next' ⟨rfl⟩
      exact hlt
    · intro _ t' g m next' hw
      obtain ⟨-, hframe⟩ := Prod.mk.injEq .. ▸ Option.some.inj hw
      obtain ⟨rfl, hm, -⟩ := Writing.frame.inj hframe
      rw [← hm]
      exact ⟨pre, hput⟩
  · obtain ⟨-, heq⟩ := hall
    have hsending := h.holder t _ hwriter
    rw [heq]
    cases next with
    | nil => exact Wf.of_flush rfl (hsending.subset fun g hg => by cases hg)
    | cons g next => exact Wf.of_begin rfl (hsending.subset fun _ hg => List.mem_cons_of_mem f hg)

/-- The run fails, ends or greets, so its guard is dropped or it only flushes. -/
theorem sendFailed_wf (h : s.Wf) {t : Task} {w : Writing} (hwriter : s.writer = some (t, w))
    (flushing : Bool) : (sendFailed c s flushing t).Wf := by
  cases t with
  | run =>
      rw [sendFailed]
      split
      case isTrue => exact Wf.of_none rfl
      case isFalse hgreet =>
        have hrun : s.run = .goodbye := by
          rcases h.holder _ _ hwriter with hrun | ⟨hrun, -⟩
          · exact absurd hrun hgreet
          · exact hrun
        cases flushing with
        | true => exact Wf.of_none (by rw [if_pos rfl, sent, if_neg hgreet])
        | false => exact Wf.of_flush rfl (.inr ⟨hrun, fun f hf => by cases hf⟩)
  | framePump => exact Wf.of_none rfl
  | telemetryPump => exact Wf.of_none rfl
  | readLoop => cases flushing <;> exact Wf.of_none rfl

theorem Wf.broken (h : s.Wf) : Wf { s with broken := true } :=
  ⟨fun t w hw => h.holder t w hw, h.short, fun hb => by cases hb⟩

theorem writeFails_wf (h : s.Wf) : (writeFails c s).Wf := by
  rcases writeFails_cases c s with heq | ⟨t, f, k, next, hwriter, heq⟩
  · rw [heq]
    exact h
  · rw [heq]
    exact sendFailed_wf h.broken hwriter false

theorem sent_wf (h : s.Wf) (t : Task) : (sent c s t).Wf := by
  cases t with
  | run =>
      rw [sent]
      split <;> exact Wf.of_none rfl
  | framePump =>
      rw [sent]
      split
      case h_1 => exact Wf.of_none rfl
      case h_2 => exact h
  | telemetryPump => exact Wf.of_none rfl
  | readLoop => exact Wf.of_none rfl

theorem flush_wf (h : s.Wf) (ok : Bool) : (flush c s ok).Wf := by
  rcases flush_cases c s ok with heq | ⟨t, hwriter, ⟨-, heq⟩ | ⟨-, heq⟩⟩
  · rw [heq]
    exact h
  · rw [heq]
    exact sent_wf h t
  · rw [heq]
    exact sendFailed_wf h hwriter true

theorem dropReadLoop_wf (h : s.Wf) : s.dropReadLoop.Wf := by
  cases hwriter : s.writer with
  | none => exact Wf.of_none (by rw [dropReadLoop, hwriter])
  | some held =>
      obtain ⟨t, w⟩ := held
      by_cases ht : t = .readLoop
      · subst ht
        exact Wf.of_none (by rw [dropReadLoop, hwriter])
      · have hsame : s.dropReadLoop.writer = s.writer := by
          rw [dropReadLoop, hwriter]
          cases t with
          | readLoop => exact absurd rfl ht
          | _ => rfl
        refine ⟨?_, ?_, ?_⟩
        · intro t' w' hw
          rw [hsame, hwriter] at hw
          obtain ⟨rfl, rfl⟩ := Prod.mk.inj (Option.some.inj hw)
          have hsending := h.holder _ _ hwriter
          cases t with
          | readLoop => exact absurd rfl ht
          | run => exact hsending
          | framePump => exact hsending
          | telemetryPump => exact hsending
        · intro t' f n next hw
          exact h.short t' f n next (hsame ▸ hw)
        · intro hbroken t' f n next hw
          exact h.progress hbroken t' f n next (hsame ▸ hw)

theorem cancel_wf (h : s.Wf) : s.cancel.Wf := by
  unfold cancel
  split
  · exact dropReadLoop_wf h
  · exact h

theorem leave_wf (h : s.Wf) (hrun : s.run = .serving) : (leave c s).Wf := by
  refine h.keep ⟨?_, fun _ => id, fun _ => id, fun _ => id⟩ rfl rfl rfl
  rw [hrun]
  rintro (hrun | hrun) <;> cases hrun

theorem finish_wf (h : s.Wf) : (finish c s).Wf := by
  unfold finish
  split
  case isTrue hrun =>
    split
    · exact leave_wf (dropReadLoop_wf h) hrun
    · exact leave_wf (s := { s with aborted := true }) ⟨h.holder, h.short, h.progress⟩ hrun
  case isFalse => exact h

theorem waitForKeyframe_wf (h : s.Wf) (expired : Bool) : (waitForKeyframe c s expired).Wf := by
  rcases waitForKeyframe_cases c s expired with heq | ⟨-, heq | heq | ⟨pkt, -, -, -, heq⟩⟩
  · rw [heq]
    exact h
  · rw [heq]
    exact Wf.of_none rfl
  · rw [heq]
    exact ⟨h.holder, h.short, h.progress⟩
  · rw [heq]
    exact Wf.of_begin rfl (.inl rfl)

theorem step_wf (h : s.Wf) (e : Event) : (step c s e).Wf := by
  by_cases haside : e.aside = true
  · exact (step_sameRun haside).toSameWriter.wf h
  cases e with
  | keyframe expired => exact waitForKeyframe_wf h expired
  | lock t => exact lock_wf h t
  | write n => exact write_wf h n
  | writeFails => exact writeFails_wf h
  | flush ok => exact flush_wf h ok
  | cancel => exact cancel_wf h
  | readLoopEnded => exact readLoopEnded_sameWriter.wf h
  | finish => exact finish_wf h
  | notify => exact notify_sameWriter.wf h
  | joined timed_out => exact (joined_sameWriter timed_out).wf h
  | engineStop => exact engineStop_sameWriter.wf h
  | _ => exact absurd rfl haside

end Session

end Penflow
