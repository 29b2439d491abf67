import Mathlib.Algebra.Ring.Int.Defs
import Penflow.Encoder.MfSession

/-!
# The input credits of the transform

Each `METransformNeedInput` event permits one `ProcessInput`.  A credit that `GetEvent` has taken out is
spent, held in `have_need_input_credit`, in the hand of the running `submit_frame`, or lost; a step loses
one when `drain_events_nowait` takes the event out, when `submit_frame` fails between its wait and
`ProcessInput`, and when `GetType` fails on the event.
-/

namespace Penflow

/-- `submit_frame` has a credit that it has not spent. -/
def EncodePhase.credit : EncodePhase → ℕ
  | .feed _ _ => 1
  | _ => 0

/-- `submit_frame` is running. -/
def EncodePhase.submitting : EncodePhase → Bool
  | .initialWait _ _ => true
  | .feed _ _ => true
  | .prefetchWait => true
  | _ => false

/-- `submit_frame` waits for a credit. -/
def EncodePhase.waiting : EncodePhase → Bool
  | .initialWait _ _ => true
  | .prefetchWait => true
  | _ => false

namespace Encoding

/-- The credits at hand: the one of `have_need_input_credit`, and the one of the running `submit_frame`. -/
def credits (s : Encoding) : ℕ :=
  (if s.session.have_need_input_credit then 1 else 0) + s.phase.credit

/-- The credits that were taken out and are neither spent nor at hand. -/
def unaccounted (s : Encoding) : ℤ :=
  s.needInputsDequeued - s.processInputs.length - s.credits

/-- The running `submit_frame` waits in `GetEvent` for an event. -/
def Blocked (s : Encoding) : Prop := s.events = [] ∧ s.phase.waiting = true

/-- No credit is lost: those taken out are spent or at hand, and when `submit_frame` blocks, all that were
granted are spent. -/
def CreditsKept (s : Encoding) : Prop :=
  s.needInputsDequeued = s.processInputs.length + s.credits ∧
    (s.Blocked → s.needInputs = s.processInputs.length)

/-- The step loses a credit. -/
def losesCredit (s : Encoding) : EncodeLabel → Bool
  | .turn a =>
    match s.phase with
    | .initialWait _ _ => a.get_event && decide (s.events.head? = some .needInput) && !a.get_type
    | .prefetchWait => a.get_event && decide (s.events.head? = some .needInput) && !a.get_type
    | .feed _ _ => !a.make_sample
    | .drain => a.get_event && decide (s.events.head? = some .needInput)
    | _ => false
  | _ => false

/-- What holds in every run: a grant is in the event queue until it is taken out, and `submit_frame` runs
without a credit in `have_need_input_credit`. -/
structure Granting (s : Encoding) : Prop where
  granted : s.needInputs = s.needInputsDequeued + s.events.count .needInput
  taken : s.phase.submitting = true → s.session.have_need_input_credit = false

theorem granting_start (cfg : EncodeConfig) : (start cfg).Granting where
  granted := rfl
  taken := fun _ => rfl

/-! ### What a step does to the credits -/

/-- The step from `s` to `s'` takes `taken` credits out of the event queue, spends `spent`, and loses one
if `lost`. -/
structure Ledger (s s' : Encoding) (lost : Bool) : Prop where
  granting : s'.Granting
  balance : s'.needInputsDequeued + s.processInputs.length + s.credits =
    s.needInputsDequeued + s'.processInputs.length + s'.credits + if lost then 1 else 0

theorem Ledger.unaccounted_eq {s s' : Encoding} {lost : Bool} (h : Ledger s s' lost) :
    s'.unaccounted = s.unaccounted + if lost then 1 else 0 := by
  have hbalance := h.balance
  rw [unaccounted, unaccounted]
  cases lost with
  | true =>
      rw [if_pos rfl] at hbalance ⊢
      omega
  | false =>
      rw [if_neg Bool.false_ne_true] at hbalance ⊢
      omega

variable {s : Encoding}

theorem credits_of_taken (h : s.session.have_need_input_credit = false) :
    s.credits = s.phase.credit := by
  rw [credits, h, if_neg Bool.false_ne_true, Nat.zero_add]

/-- A step that takes no credit out and spends none. -/
theorem ledger_kept {s' : Encoding} (hs' : s'.Granting)
    (hdequeued : s'.needInputsDequeued = s.needInputsDequeued)
    (hspent : s'.processInputs = s.processInputs) (hcredits : s'.credits = s.credits) :
    Ledger s s' false where
  granting := hs'
  balance := by
    rw [hdequeued, hspent, hcredits]
    rfl

theorem ledger_refl (hs : s.Granting) : Ledger s s false := ledger_kept hs rfl rfl rfl

/-- A call that returns. -/
theorem ledger_returns {session : MfSession} {returned : List EncodedPacket} (hs : s.Granting)
    (hsession : session.have_need_input_credit = s.session.have_need_input_credit)
    (hbefore : s.phase.credit = 0) :
    Ledger s { s with phase := .idle, returned := returned, session := session } false := by
  refine ledger_kept { granted := hs.granted, taken := fun h => absurd h Bool.false_ne_true } rfl rfl ?_
  rw [credits, credits, hsession, hbefore]
  rfl

/-- The count of the grants in the event queue and behind it is the same after the head is taken out. -/
theorem Granting.dequeue {e : MediaEvent} {events : List MediaEvent} (hs : s.Granting)
    (hevents : s.events = e :: events) : (s.dequeue e events).Granting where
  granted := by
    have h := hs.granted
    rw [hevents, List.count_cons] at h
    show s.needInputs = s.needInputsDequeued + _ + events.count .needInput
    rw [h]
    cases e with
    | needInput =>
        show _ = s.needInputsDequeued + 1 + events.count .needInput
        rw [beq_self_eq_true, if_pos rfl]
        omega
    | haveOutput => rfl
    | other => rfl
  taken := hs.taken

/-- An event that is no grant, and the call may end with it. -/
theorem ledger_event {e : MediaEvent} {events : List MediaEvent} {session : MfSession}
    {phase : EncodePhase} (hs : s.Granting) (hevents : s.events = e :: events) (he : e ≠ .needInput)
    (hsession : session.have_need_input_credit = s.session.have_need_input_credit)
    (hbefore : s.phase.credit = 0)
    (hphase : phase = s.phase ∨ phase = .idle ∨ phase = .unwound) :
    Ledger s { s.dequeue e events with session := session, phase := phase } false where
  granting :=
    { granted := (hs.dequeue hevents).granted
      taken := by
        intro h
        show session.have_need_input_credit = false
        rw [hsession]
        rcases hphase with rfl | rfl | rfl
        · exact hs.taken h
        · cases h
        · cases h }
  balance := by
    have hcredit : phase.credit = s.phase.credit := by
      rcases hphase with rfl | rfl | rfl
      · rfl
      · exact hbefore.symm
      · exact hbefore.symm
    show s.needInputsDequeued + (if e = .needInput then 1 else 0) + _ + s.credits = s.needInputsDequeued + _ +
      ((if session.have_need_input_credit then 1 else 0) + phase.credit) + _
    rw [if_neg he, hsession, hcredit]
    rfl

/-- The call takes a grant out, and ends with an error or goes on without it. -/
theorem ledger_dropped {events : List MediaEvent} {phase : EncodePhase} (hs : s.Granting)
    (hevents : s.events = .needInput :: events) (hbefore : s.phase.credit = 0)
    (hphase : phase = s.phase ∨ phase = .idle) :
    Ledger s { s.dequeue .needInput events with phase := phase } true where
  granting :=
    { granted := (hs.dequeue hevents).granted
      taken := by
        intro h
        rcases hphase with rfl | rfl
        · exact hs.taken h
        · cases h }
  balance := by
    have hcredit : phase.credit = s.phase.credit := by
      rcases hphase with rfl | rfl
      · rfl
      · exact hbefore.symm
    show s.needInputsDequeued + 1 + _ + s.credits = s.needInputsDequeued + _ +
      ((if s.session.have_need_input_credit then 1 else 0) + phase.credit) + 1
    rw [hcredit, Nat.add_right_comm _ 1, Nat.add_right_comm _ 1]
    rfl

/-- The grant that `submit_frame` waits for. -/
theorem ledger_granted {events : List MediaEvent} (hs : s.Granting)
    (hevents : s.events = .needInput :: events) (hwaiting : s.phase.waiting = true) :
    Ledger s (s.dequeue .needInput events).granted false := by
  have hgranted := (hs.dequeue hevents).granted
  cases hphase : s.phase with
  | initialWait pts_ns force_idr =>
      have hcredit : s.session.have_need_input_credit = false := hs.taken (by rw [hphase]; rfl)
      have hstep : (s.dequeue .needInput events).granted =
          { s.dequeue .needInput events with phase := .feed pts_ns force_idr } := by
        simp only [granted, dequeue, hphase]
      rw [hstep]
      refine ⟨⟨hgranted, fun _ => hcredit⟩, ?_⟩
      rw [credits_of_taken hcredit, credits_of_taken (s := { s.dequeue .needInput events with
        phase := .feed pts_ns force_idr }) hcredit, hphase]
      show s.needInputsDequeued + 1 + _ + 0 = s.needInputsDequeued + s.processInputs.length + 1 + 0
      omega
  | prefetchWait =>
      have hcredit : s.session.have_need_input_credit = false := hs.taken (by rw [hphase]; rfl)
      have hstep : (s.dequeue .needInput events).granted =
          { s.dequeue .needInput events with
            phase := .idle
            session := { s.session with have_need_input_credit := true } } := by
        simp only [granted, dequeue, hphase]
      rw [hstep]
      refine ⟨⟨hgranted, fun h => absurd h Bool.false_ne_true⟩, ?_⟩
      rw [credits_of_taken hcredit, hphase]
      show s.needInputsDequeued + 1 + _ + 0 = s.needInputsDequeued + s.processInputs.length + 1 + 0
      omega
  | _ =>
      rw [hphase] at hwaiting
      cases hwaiting

/-- The transform queues an event that is no grant. -/
theorem ledger_posted {e : MediaEvent} {outputs : List OutputSample} (hs : s.Granting)
    (he : e ≠ .needInput) :
    Ledger s { s with events := s.events ++ [e], outputs := outputs } false := by
  refine ledger_kept { granted := ?_, taken := hs.taken } rfl rfl rfl
  show s.needInputs = s.needInputsDequeued + (s.events ++ [e]).count .needInput
  rw [List.count_append, List.count_singleton, beq_false_of_ne he, hs.granted]
  rfl

variable [BuildProfile]

/-- Collecting an output touches no credit; it may end the call. -/
theorem collect_eq (s : Encoding) (a : OutputAnswers) :
    ∃ session phase, s.collect a = { s with session := session, phase := phase } ∧
      session.have_need_input_credit = s.session.have_need_input_credit ∧
      (phase = s.phase ∨ phase = .idle ∨ phase = .unwound) := by
  cases hr : s.session.collectOutputPacket a with
  | error fault =>
      cases fault with
      | err e => exact ⟨s.session, .idle, by simp only [collect, hr, fails], rfl, .inr (.inl rfl)⟩
      | panic => exact ⟨s.session, .unwound, by simp only [collect, hr], rfl, .inr (.inr rfl)⟩
  | ok r =>
      obtain ⟨pkt, session⟩ := r
      obtain ⟨-, rfl, rfl⟩ | ⟨sample, p, -, rfl, hp⟩ := MfSession.collectOutputPacket_eq_ok hr
      · exact ⟨s.session, s.phase, by simp only [collect, hr], rfl, .inl rfl⟩
      · obtain ⟨-, -, -, -, -, hcredit⟩ := MfSession.packetOf_eq_ok hp
        exact ⟨{ session with output_queue := session.output_queue ++ [p] }, s.phase,
          by simp only [collect, hr], hcredit, .inl rfl⟩

theorem ledger_collect {events : List MediaEvent} (a : OutputAnswers) (hs : s.Granting)
    (hevents : s.events = .haveOutput :: events) (hbefore : s.phase.credit = 0) :
    Ledger s ((s.dequeue .haveOutput events).collect a) false := by
  obtain ⟨session, phase, hstep, hsession, hphase⟩ := collect_eq (s.dequeue .haveOutput events) a
  rw [hstep]
  exact ledger_event hs hevents (by decide) hsession hbefore hphase

omit [BuildProfile] in
/-- An event whose `GetType` fails ends the call, with the credit if it was a grant. -/
theorem ledger_unread {e : MediaEvent} {events : List MediaEvent} (hs : s.Granting)
    (hevents : s.events = e :: events) (hbefore : s.phase.credit = 0) :
    Ledger s (s.dequeue e events).fails (decide (some e = some .needInput)) := by
  cases e with
  | needInput => exact ledger_dropped hs hevents hbefore (.inr rfl)
  | haveOutput => exact ledger_event hs hevents (by decide) rfl hbefore (.inr (.inl rfl))
  | other => exact ledger_event hs hevents (by decide) rfl hbefore (.inr (.inl rfl))

/-- A turn of `wait_for_need_input` loses the credit of an event whose `GetType` fails. -/
theorem ledger_waitForNeedInput (a : Answers) (hs : s.Granting) (hwaiting : s.phase.waiting = true) :
    Ledger s (s.waitForNeedInput a)
      (a.get_event && decide (s.events.head? = some .needInput) && !a.get_type) := by
  have hbefore : s.phase.credit = 0 := by
    cases hphase : s.phase with
    | feed pts_ns force_idr =>
        rw [hphase] at hwaiting
        cases hwaiting
    | _ => rfl
  rw [waitForNeedInput]
  cases a.get_event with
  | false => exact ledger_returns hs rfl hbefore
  | true =>
      cases hevents : s.events with
      | nil => exact ledger_refl hs
      | cons e events =>
          cases a.get_type with
          | false =>
              have hunread := ledger_unread hs hevents hbefore
              rwa [← Bool.and_true (decide _)] at hunread
          | true =>
              cases e with
              | needInput => exact ledger_granted hs hevents hwaiting
              | haveOutput => exact ledger_collect _ hs hevents hbefore
              | other => exact ledger_event hs hevents (by decide) rfl hbefore (.inl rfl)

/-- A turn of `drain_events_nowait` loses every credit it takes out. -/
theorem ledger_drainEventsNowait (a : Answers) (hs : s.Granting) (hphase : s.phase = .drain) :
    Ledger s (s.drainEventsNowait a)
      (a.get_event && decide (s.events.head? = some .needInput)) := by
  have hbefore : s.phase.credit = 0 := by
    rw [hphase]
    rfl
  rw [drainEventsNowait]
  cases a.get_event with
  | false => exact ledger_returns hs rfl hbefore
  | true =>
      cases hevents : s.events with
      | nil => exact ledger_returns hs rfl hbefore
      | cons e events =>
          cases a.get_type with
          | false => exact ledger_unread hs hevents hbefore
          | true =>
              cases e with
              | needInput => exact ledger_dropped hs hevents hbefore (.inl rfl)
              | haveOutput => exact ledger_collect _ hs hevents hbefore
              | other => exact ledger_event hs hevents (by decide) rfl hbefore (.inl rfl)

omit [BuildProfile] in
/-- `submit_frame` spends its credit with `ProcessInput`, and loses it where it has no sample. -/
theorem ledger_feed (a : Answers) (hs : s.Granting) {pts_ns : Int64} {force_idr : Bool}
    (hphase : s.phase = .feed pts_ns force_idr) :
    Ledger s (s.feed pts_ns force_idr a) (!a.make_sample) := by
  have hcredit : s.session.have_need_input_credit = false := hs.taken (by rw [hphase]; rfl)
  have hcredits : s.credits = 1 := by
    rw [credits_of_taken hcredit, hphase]
    rfl
  rw [feed]
  cases a.make_sample with
  | false =>
      refine ⟨{ granted := hs.granted, taken := fun h => absurd h Bool.false_ne_true }, ?_⟩
      rw [hcredits]
      show _ = s.needInputsDequeued + s.processInputs.length +
        ((if s.session.have_need_input_credit then 1 else 0) + 0) + 1
      rw [hcredit]
      rfl
  | true =>
      cases a.process_input with
      | false =>
          refine ⟨{ granted := hs.granted, taken := fun h => absurd h Bool.false_ne_true }, ?_⟩
          rw [hcredits]
          show _ = s.needInputsDequeued + (s.processInputs ++ [_]).length +
            ((if s.session.have_need_input_credit then 1 else 0) + 0) + 0
          rw [hcredit, if_neg Bool.false_ne_true, List.length_append]
          rfl
      | true =>
          refine ⟨{ granted := hs.granted, taken := fun _ => hcredit }, ?_⟩
          rw [hcredits]
          show _ = s.needInputsDequeued + (s.processInputs ++ [_]).length +
            ((if s.session.have_need_input_credit then 1 else 0) + 0) + 0
          rw [hcredit, if_neg Bool.false_ne_true, List.length_append]
          rfl

omit [BuildProfile] in
theorem ledger_submitFrame (pts_ns : Int64) (force_idr : Bool) (hs : s.Granting) :
    Ledger s (s.submitFrame pts_ns force_idr) false := by
  cases hphase : s.phase with
  | idle =>
      have hcredits : s.credits = if s.session.have_need_input_credit then 1 else 0 := by
        rw [credits, hphase]
        rfl
      cases hcredit : s.session.have_need_input_credit with
      | true =>
          simp only [submitFrame, hphase, hcredit, if_true]
          refine ledger_kept { granted := hs.granted, taken := fun _ => rfl } rfl rfl ?_
          rw [hcredits, hcredit]
          rfl
      | false =>
          simp only [submitFrame, hphase, hcredit]
          refine ledger_kept { granted := hs.granted, taken := fun _ => hcredit } rfl rfl ?_
          rw [hcredits, credits]
          rfl
  | _ =>
      simp only [submitFrame, hphase]
      exact ledger_refl hs

theorem ledger_step (l : EncodeLabel) (hs : s.Granting) : Ledger s (s.step l) (s.losesCredit l) := by
  cases l with
  | needInput =>
      refine ledger_kept { granted := ?_, taken := hs.taken } rfl rfl rfl
      show s.needInputs + 1 = s.needInputsDequeued + (s.events ++ [MediaEvent.needInput]).count _
      rw [List.count_append, hs.granted]
      rfl
  | haveOutput sample => exact ledger_posted hs (by decide)
  | otherEvent => exact ledger_posted hs (by decide)
  | submitFrame pts_ns force_idr => exact ledger_submitFrame pts_ns force_idr hs
  | tryPacket =>
      cases hphase : s.phase with
      | idle =>
          show Ledger s s.tryPacket false
          simp only [tryPacket, hphase]
          refine ledger_kept { granted := hs.granted, taken := fun h => absurd h Bool.false_ne_true } rfl rfl ?_
          rw [credits, credits, hphase]
          rfl
      | _ =>
          show Ledger s s.tryPacket false
          simp only [tryPacket, hphase]
          exact ledger_refl hs
  | turn a =>
      cases hphase : s.phase with
      | initialWait pts_ns force_idr =>
          have h := ledger_waitForNeedInput a hs (by rw [hphase]; rfl)
          simpa only [step, turn, losesCredit, hphase] using h
      | feed pts_ns force_idr =>
          have h := ledger_feed a hs hphase
          simpa only [step, turn, losesCredit, hphase] using h
      | prefetchWait =>
          have h := ledger_waitForNeedInput a hs (by rw [hphase]; rfl)
          simpa only [step, turn, losesCredit, hphase] using h
      | drain =>
          have h := ledger_drainEventsNowait a hs hphase
          simpa only [step, turn, losesCredit, hphase] using h
      | _ =>
          simp only [step, turn, losesCredit, hphase]
          exact ledger_refl hs

/-! ### Runs -/

omit [BuildProfile] in
theorem creditsKept_iff (hs : s.Granting) : s.CreditsKept ↔ s.unaccounted = 0 := by
  have hiff : s.needInputsDequeued = s.processInputs.length + s.credits ↔ s.unaccounted = 0 := by
    rw [unaccounted]
    omega
  constructor
  · rintro ⟨h, -⟩
    exact hiff.1 h
  · intro h
    have hkept := hiff.2 h
    refine ⟨hkept, ?_⟩
    rintro ⟨hevents, hwaiting⟩
    have hcredits : s.credits = 0 := by
      cases hphase : s.phase with
      | initialWait pts_ns force_idr =>
          rw [credits_of_taken (hs.taken (by rw [hphase]; rfl)), hphase]
          rfl
      | prefetchWait =>
          rw [credits_of_taken (hs.taken (by rw [hphase]; rfl)), hphase]
          rfl
      | _ =>
          rw [hphase] at hwaiting
          cases hwaiting
    rw [hs.granted, hevents, hkept, hcredits]
    rfl

theorem granting_run (cfg : EncodeConfig) (is : List EncodeLabel) :
    (is.foldl step (start cfg)).Granting := by
  have hstep : ∀ (s : Encoding) (l : EncodeLabel), s.Granting → (s.step l).Granting :=
    fun s l hs => (ledger_step l hs).granting
  exact Run.invariant hstep is (granting_start cfg)

/-- A step that starts with no credit lost ends so exactly when it loses none. -/
theorem unaccounted_step_iff (l : EncodeLabel) (hs : s.Granting) (h : s.unaccounted = 0) :
    (s.step l).unaccounted = 0 ↔ s.losesCredit l = false := by
  rw [(ledger_step l hs).unaccounted_eq, h]
  cases s.losesCredit l with
  | true => exact ⟨fun h => absurd h (by decide), fun h => absurd h (by decide)⟩
  | false => exact ⟨fun _ => rfl, fun _ => rfl⟩

/-- **No credit is lost, exactly when no step loses one.** -/
theorem credits_kept_iff {cfg : EncodeConfig} {is : List EncodeLabel} :
    (∀ pre, pre <+: is → (pre.foldl step (start cfg)).CreditsKept) ↔
      Run.Steps step (fun s l => s.losesCredit l = false) (start cfg) is := by
  have hstep : ∀ (s : Encoding) (l : EncodeLabel), s.Granting ∧ s.unaccounted = 0 →
      ((s.step l).Granting ∧ (s.step l).unaccounted = 0 ↔ s.losesCredit l = false) := by
    intro s l hs
    rw [and_iff_right (ledger_step l hs.1).granting]
    exact unaccounted_step_iff l hs.1 hs.2
  rw [← Run.always_iff hstep ⟨granting_start cfg, rfl⟩]
  constructor
  · intro h pre hpre
    exact ⟨granting_run cfg pre, (creditsKept_iff (granting_run cfg pre)).1 (h pre hpre)⟩
  · intro h pre hpre
    exact (creditsKept_iff (h pre hpre).1).2 (h pre hpre).2

/-- The transform grants two inputs, `try_packet` drains them, and `submit_frame` waits for a third. -/
def drainedGrants : List EncodeLabel :=
  let a := goodAnswers none 0
  [.needInput, .needInput, .tryPacket, .turn a, .turn a, .turn a, .submitFrame 100 true, .turn a]

omit [BuildProfile] in
theorem drained_grants_lost :
    letI : BuildProfile := ⟨true⟩
    let s := drainedGrants.foldl step (start ⟨.h264, 1920, 1080, 60⟩)
    s.Blocked ∧ s.needInputs = 2 ∧ s.needInputsDequeued = 2 ∧ s.processInputs = [] ∧
      s.session.have_need_input_credit = false ∧ ¬ s.CreditsKept := by
  refine ⟨⟨by decide +kernel, by decide +kernel⟩, by decide +kernel, by decide +kernel,
    by decide +kernel, by decide +kernel, ?_⟩
  intro h
  exact absurd h.1 (by decide +kernel)

end Encoding

end Penflow
