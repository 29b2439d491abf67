import Penflow.Server.Session

/-!
# What the events of a session do

One lemma for each event with several branches: the event cannot happen and leaves the session as it is,
or its guard holds and the session behind it is the one given.
-/

namespace Penflow

namespace Session

variable (c : SessionConfig) (s : Session)

theorem popPanics_cases :
    s.popPanics = s ∨ s.pop = .running ∧ s.popPanics = { s with pop := .panicked } := by
  unfold popPanics
  split
  case h_1 hrunning => exact .inr ⟨hrunning, rfl⟩
  case h_2 => exact .inl rfl

/-! ### The pumps -/

theorem enterSelect_cases (t : Task) : s.enterSelect t = s ∨
    (s.frame_pump = .head ∧
      s.enterSelect t = { s with frame_pump := .selecting false, pop := .running }) ∨
    (s.telemetry_pump = .head ∧ s.enterSelect t = { s with telemetry_pump := .selecting false }) := by
  cases t with
  | run => exact .inl rfl
  | framePump =>
      rw [enterSelect]
      split
      case h_1 hpump => exact .inr (.inl ⟨hpump, rfl⟩)
      case h_2 => exact .inl rfl
  | telemetryPump =>
      rw [enterSelect]
      split
      case h_1 hpump => exact .inr (.inr ⟨hpump, rfl⟩)
      case h_2 => exact .inl rfl
  | readLoop => exact .inl rfl

theorem selectStop_cases (t : Task) : s.selectStop t = s ∨
    (s.frame_pump = .selecting true ∧ s.selectStop t = { s with frame_pump := .returned }) ∨
    (s.telemetry_pump = .selecting true ∧ s.selectStop t = { s with telemetry_pump := .returned }) := by
  cases t with
  | run => exact .inl rfl
  | framePump =>
      rw [selectStop]
      split
      case h_1 hpump => exact .inr (.inl ⟨hpump, rfl⟩)
      case h_2 => exact .inl rfl
  | telemetryPump =>
      rw [selectStop]
      split
      case h_1 hpump => exact .inr (.inr ⟨hpump, rfl⟩)
      case h_2 => exact .inl rfl
  | readLoop => exact .inl rfl

theorem selectPop_cases : s.selectPop = s ∨ ∃ notified, s.frame_pump = .selecting notified ∧
    ((∃ pkt, s.pop = .done (some pkt) ∧
        s.selectPop = { s with frame_pump := .locking pkt, pop := .idle }) ∨
      (s.pop = .done none ∧ s.selectPop = { s with frame_pump := .head, pop := .idle }) ∨
      (s.pop = .panicked ∧ s.selectPop = { s with frame_pump := .returned, pop := .idle })) := by
  unfold selectPop
  split
  case h_1 notified pkt hpump hpop => exact .inr ⟨notified, hpump, .inl ⟨pkt, hpop, rfl⟩⟩
  case h_2 notified hpump hpop => exact .inr ⟨notified, hpump, .inr (.inl ⟨hpop, rfl⟩)⟩
  case h_3 notified hpump hpop => exact .inr ⟨notified, hpump, .inr (.inr ⟨hpop, rfl⟩)⟩
  case h_4 => exact .inl rfl

theorem selectTick_cases : s.selectTick = s ∨ ∃ notified, s.telemetry_pump = .selecting notified ∧
    s.selectTick = { s with
      telemetry_pump := .locking s.sample
      stats := { s.stats with frames := 0 } } := by
  unfold selectTick
  split
  case h_1 notified hpump => exact .inr ⟨notified, hpump, rfl⟩
  case h_2 => exact .inl rfl

/-! ### The read loop -/

theorem receive_cases (msg_id : UInt8) (payload : List UInt8) (t2 t3 : Int64) :
    receive c s msg_id payload t2 t3 = s ∨ s.read_loop = .reading ∧
      (receive c s msg_id payload t2 t3 = { s with read_loop := .returned } ∨
        ∃ resp, receive c s msg_id payload t2 t3 = { s with read_loop := .locking resp }) := by
  unfold receive
  split
  case h_1 hread =>
    split
    case h_1 => exact .inr ⟨hread, .inl rfl⟩
    case h_2 =>
      split
      case isTrue =>
        split
        case h_1 => exact .inr ⟨hread, .inr ⟨_, rfl⟩⟩
        case h_2 => exact .inl rfl
      case isFalse => exact .inl rfl
  case h_2 => exact .inl rfl

theorem readEnds_cases :
    s.readEnds = s ∨ s.read_loop = .reading ∧ s.readEnds = { s with read_loop := .returned } := by
  unfold readEnds
  split
  case h_1 hread => exact .inr ⟨hread, rfl⟩
  case h_2 => exact .inl rfl

/-! ### The writer -/

theorem lock_cases (t : Task) : s.lock t = s ∨ s.writer = none ∧
    ((t = .run ∧ s.run = .lockingGoodbye ∧
        s.lock t = { s with run := .goodbye, writer := some (.run, .frame goodbyeFrame 0 []) }) ∨
      (t = .framePump ∧ ∃ pkt, s.frame_pump = .locking pkt ∧ s.lock t =
        { s with frame_pump := .sending pkt, writer := some (.framePump, .frame (pumpFrame pkt) 0 []) }) ∨
      (t = .telemetryPump ∧ ∃ tel, s.telemetry_pump = .locking tel ∧ s.lock t =
        { s with
          telemetry_pump := .sending tel
          writer := some (.telemetryPump, .frame (telemetryFrame tel) 0 []) }) ∨
      (t = .readLoop ∧ ∃ resp, s.read_loop = .locking resp ∧ s.lock t =
        { s with read_loop := .sending resp, writer := some (.readLoop, .frame (respFrame resp) 0 []) })) := by
  unfold lock
  split
  case h_1 => exact .inl rfl
  case h_2 hwriter =>
    cases t with
    | run =>
        by_cases hrun : s.run = .lockingGoodbye
        · rw [if_pos hrun]
          exact .inr ⟨hwriter, .inl ⟨rfl, hrun, rfl⟩⟩
        · rw [if_neg hrun]
          exact .inl rfl
    | framePump =>
        simp only
        split
        case h_1 pkt hpump => exact .inr ⟨hwriter, .inr (.inl ⟨trivial, pkt, hpump, rfl⟩)⟩
        case h_2 => exact .inl rfl
    | telemetryPump =>
        simp only
        split
        case h_1 tel hpump => exact .inr ⟨hwriter, .inr (.inr (.inl ⟨trivial, tel, hpump, rfl⟩))⟩
        case h_2 => exact .inl rfl
    | readLoop =>
        simp only
        split
        case h_1 resp hread => exact .inr ⟨hwriter, .inr (.inr (.inr ⟨trivial, resp, hread, rfl⟩))⟩
        case h_2 => exact .inl rfl

/-- What a write does: a part of the frame, or the rest of it. -/
theorem write_cases (n : ℕ) :
    s.write n = s ∨ ∃ t f k next, s.writer = some (t, .frame f k next) ∧ s.broken = false ∧ 0 < n ∧
      ((k + n < f.encode.length ∧
          s.write n = { s with wire := put s.wire f k n, writer := some (t, .frame f (k + n) next) }) ∨
        (k + n = f.encode.length ∧
          s.write n = { s with wire := put s.wire f k n, writer := some (t, nextWriting next) })) := by
  unfold write
  split
  case h_1 t f k next hwriter =>
    simp only
    split
    case isTrue hn =>
      obtain ⟨hbroken, hpos, hle⟩ := hn
      refine .inr ⟨t, f, k, next, hwriter, hbroken, hpos, ?_⟩
      by_cases hlt : k + n < f.encode.length
      · exact .inl ⟨hlt, by rw [if_pos hlt]⟩
      · exact .inr ⟨by omega, by rw [if_neg hlt]⟩
    case isFalse => exact .inl rfl
  case h_2 => exact .inl rfl

theorem writeFails_cases : writeFails c s = s ∨ ∃ t f k next, s.writer = some (t, .frame f k next) ∧
    writeFails c s = sendFailed c { s with broken := true } false t := by
  unfold writeFails
  split
  case h_1 t f k next hwriter => exact .inr ⟨t, f, k, next, hwriter, rfl⟩
  case h_2 => exact .inl rfl

theorem flush_cases (ok : Bool) : flush c s ok = s ∨ ∃ t, s.writer = some (t, .flush) ∧
    ((ok = true ∧ flush c s ok = sent c s t) ∨ (ok = false ∧ flush c s ok = sendFailed c s true t)) := by
  unfold flush
  split
  case h_1 t hwriter =>
    cases ok with
    | true => exact .inr ⟨t, hwriter, .inl ⟨rfl, rfl⟩⟩
    | false => exact .inr ⟨t, hwriter, .inr ⟨rfl, rfl⟩⟩
  case h_2 => exact .inl rfl

/-! ### The run -/

theorem waitForKeyframe_cases (expired : Bool) : waitForKeyframe c s expired = s ∨
    s.run = .awaitKeyframe ∧ (waitForKeyframe c s expired = s.failRun ∨
      waitForKeyframe c s expired = { s with pop := .running } ∨
      ∃ pkt, s.pop = .done (some pkt) ∧ pkt.is_keyframe = true ∧ (c.csd0 pkt.bytes).isEmpty = false ∧
        waitForKeyframe c s expired = { s with
          pop := .idle
          run := .greeting
          writer := some (.run,
            .frame c.helloFrame 0 [c.configFrame, c.csd0Frame pkt, firstFrame pkt]) }) := by
  unfold waitForKeyframe
  split
  case h_1 pkt hrun hpop =>
    refine .inr ⟨hrun, ?_⟩
    by_cases hkey : pkt.is_keyframe = true
    · rw [if_pos hkey, greet]
      by_cases hempty : (c.csd0 pkt.bytes).isEmpty = true
      · rw [if_pos hempty]
        exact .inl rfl
      · rw [if_neg hempty]
        exact .inr (.inr ⟨pkt, hpop, hkey, Bool.eq_false_iff.2 hempty, rfl⟩)
    · rw [if_neg hkey]
      cases expired with
      | true => exact .inl rfl
      | false => exact .inr (.inl rfl)
  case h_2 hrun hpop =>
    refine .inr ⟨hrun, ?_⟩
    cases expired with
    | true => exact .inl rfl
    | false => exact .inr (.inl rfl)
  case h_3 hrun hpop => exact .inr ⟨hrun, .inl rfl⟩
  case h_4 => exact .inl rfl

theorem joined_cases (timed_out : Bool) : s.joined timed_out = s ∨
    (s.run = .joiningFrame ∧ (timed_out = true ∨ s.frame_pump = .returned) ∧
      s.joined timed_out = { s with run := .joiningTelemetry }) ∨
    (s.run = .joiningTelemetry ∧ (timed_out = true ∨ s.telemetry_pump = .returned) ∧
      s.joined timed_out = { s with run := .lockingGoodbye }) := by
  unfold joined
  split
  case h_1 hrun =>
    split
    case isTrue hjoin => exact .inr (.inl ⟨hrun, hjoin, rfl⟩)
    case isFalse => exact .inl rfl
  case h_2 hrun =>
    split
    case isTrue hjoin => exact .inr (.inr ⟨hrun, hjoin, rfl⟩)
    case isFalse => exact .inl rfl
  case h_3 => exact .inl rfl

end Session

end Penflow
