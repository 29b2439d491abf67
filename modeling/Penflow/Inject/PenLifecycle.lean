import Penflow.Inject.Dispatch
import Penflow.Lib.Run

/-!
# The life of the pen on the synthetic-pointer path

Windows knows the pen by the last frame it accepted.  `PenState.Agrees` says when the transition flags
of a frame agree with that, and the main result that all frames of a run do, as long as Windows takes
no flush frame: the injector records the sample behind a flush, not the flush, so the next frame is
made for a pen that is still in range.
-/

namespace Penflow

open InjectM

/-! ### Frames and the pen's state -/

/-- Whether a flag is among the flags of a frame. -/
def hasFlag (flags flag : UInt32) : Bool := flags &&& flag != 0

/-- What Windows holds of the pen. -/
structure PenState where
  inRange : Bool
  inContact : Bool
  deriving DecidableEq, Repr

/-- Before the first frame. -/
def PenState.away : PenState := ⟨false, false⟩

/-- The state a frame leaves, with the verdict of Windows on it. -/
def PenState.next (s : PenState) (frame : UInt32 × Bool) : PenState :=
  if frame.2 then ⟨hasFlag frame.1 pointerFlagInrange, hasFlag frame.1 pointerFlagIncontact⟩ else s

/-- The transition flags of a frame agree with the pen's state. -/
structure PenState.Agrees (s : PenState) (flags : UInt32) : Prop where
  /-- NEW: the pen was away and is in range. -/
  new : hasFlag flags pointerFlagNew ↔ s.inRange = false ∧ hasFlag flags pointerFlagInrange
  /-- DOWN: the pen is in contact and was not. -/
  down : hasFlag flags pointerFlagDown ↔ hasFlag flags pointerFlagIncontact ∧ s.inContact = false
  /-- UPDATE: the contact did not change. -/
  update : hasFlag flags pointerFlagUpdate → hasFlag flags pointerFlagIncontact = s.inContact
  /-- UP in range: the pen was in contact. -/
  up : hasFlag flags pointerFlagInrange → hasFlag flags pointerFlagUp → s.inContact
  /-- Out of range: the pen was in range. -/
  leave : hasFlag flags pointerFlagInrange = false → s.inRange

/-- The flags of the pen frames among the calls, with the verdicts. -/
def penFrames (log : List (OsCall × Bool)) : List (UInt32 × Bool) :=
  log.filterMap fun c =>
    match c.1 with
    | .injectPen frame => some (frame.pointerInfo.pointerFlags, c.2)
    | _ => none

/-- The pen's state after these frames. -/
def penState (frames : List (UInt32 × Bool)) : PenState := frames.foldl PenState.next .away

/-- Every frame agrees with the state the frames before it left. -/
def Lifecycle (frames : List (UInt32 × Bool)) : Prop :=
  Run.Steps PenState.next (fun s frame => s.Agrees frame.1) .away frames

theorem lifecycle_concat {frames : List (UInt32 × Bool)} {frame : UInt32 × Bool} :
    Lifecycle (frames ++ [frame]) ↔ Lifecycle frames ∧ (penState frames).Agrees frame.1 := by
  rw [Lifecycle, Run.steps_append, Run.Steps, Run.Steps, and_true]
  rfl

theorem penState_concat (frames : List (UInt32 × Bool)) (frame : UInt32 × Bool) :
    penState (frames ++ [frame]) = (penState frames).next frame := List.foldl_concat ..

/-- **The transition matrix.**  For a pen in the recorded state the flags agree and lead to the state of
the sample. -/
theorem penPointerFlags_agrees {was_in_range was_in_contact in_range in_contact : Bool}
    (hwas : was_in_contact → was_in_range) (hnow : in_contact → in_range)
    (h : ¬ (!was_in_range && !in_range)) :
    PenState.Agrees ⟨was_in_range, was_in_contact⟩
        (penPointerFlags was_in_range was_in_contact in_range in_contact) ∧
      PenState.next ⟨was_in_range, was_in_contact⟩
        (penPointerFlags was_in_range was_in_contact in_range in_contact, true) =
        ⟨in_range, in_contact⟩ := by
  refine ⟨⟨?_, ?_, ?_, ?_, ?_⟩, ?_⟩ <;> revert was_in_range was_in_contact in_range in_contact <;> decide

/-! ### The injector's record -/

/-- The injector's record of the pen. -/
def InputInjector.penState (self : InputInjector) : PenState :=
  ⟨self.last_pen_in_range, self.last_pen_in_contact⟩

/-- All frames agreed, and the injector's record is what Windows holds. -/
structure PenTracked (w : World) : Prop where
  lifecycle : Lifecycle (penFrames w.log)
  record : penState (penFrames w.log) = w.inj.penState
  contact : w.inj.last_pen_in_contact → w.inj.last_pen_in_range
  synthetic : w.inj.vmulti = none

theorem PenTracked.new : PenTracked (.new false) where
  lifecycle := trivial
  record := rfl
  contact := by simp [World.new, InputInjector.new]
  synthetic := rfl

theorem penFrames_append (xs ys : List (OsCall × Bool)) :
    penFrames (xs ++ ys) = penFrames xs ++ penFrames ys := List.filterMap_append

/-- Nothing changes for the pen where no frame is added and the record stays. -/
theorem PenTracked.of_log {w w' : World} (h : PenTracked w) {more : List (OsCall × Bool)}
    (hlog : w'.log = w.log ++ more) (hmore : penFrames more = [])
    (hrecord : w'.inj.penState = w.inj.penState) (hvmulti : w'.inj.vmulti = w.inj.vmulti) :
    PenTracked w' := by
  have hframes : penFrames w'.log = penFrames w.log := by
    rw [hlog, penFrames_append, hmore, List.append_nil]
  obtain ⟨hrange, hcontact⟩ := PenState.mk.inj hrecord
  refine ⟨?_, ?_, ?_, hvmulti.trans h.synthetic⟩
  · rw [hframes]
    exact h.lifecycle
  · rw [hframes, hrecord]
    exact h.record
  · rw [hrange, hcontact]
    exact h.contact

theorem PenTracked.of_sent {w w' : World} (h : PenTracked w) (hsent : w.Sent w') : PenTracked w' := by
  obtain ⟨⟨sent, hlog⟩, sticky, hinj⟩ := hsent
  refine h.of_log hlog ?_ (by rw [hinj]; rfl) (by rw [hinj])
  rw [penFrames, List.filterMap_map]
  exact List.filterMap_eq_nil_iff.2 fun _ _ => rfl

/-! ### One frame -/

section Frame

variable [Windows] [BuildProfile]

omit [Windows] in
theorem penFrame_flags {self : InputInjector} {screen : VirtualScreen} {sample : PenSample}
    {eraser : Bool} {frame : PointerPenInfo} (h : penFrame self screen sample eraser = .ok frame) :
    frame.pointerInfo.pointerFlags = penPointerFlags self.last_pen_in_range
      self.last_pen_in_contact sample.in_range sample.in_contact := by
  obtain ⟨x, -, h⟩ := Outcome.bind_eq_ok.1 h
  obtain ⟨y, -, hret⟩ := Outcome.bind_eq_ok.1 h
  cases hret
  rfl

/-- **What `write_pen` does.** -/
theorem writePen_exec (sample : PenSample) (eraser : Bool) (w : World) :
    exec (writePen sample eraser) w =
      if !w.inj.last_pen_in_range && !sample.in_range then (.ok (), w)
      else
        match penFrame w.inj (Windows.screen w.log.length) sample eraser with
        | .error e => (.error e, w)
        | .ok frame => exec (callOk (.injectPen frame)) w := by
  rw [writePen, exec_bind_of_ok (exec_self w)]
  by_cases h : !w.inj.last_pen_in_range && !sample.in_range
  · rw [if_pos h, if_pos h]
    rfl
  · rw [if_neg h, if_neg h, exec_bind_of_ok (exec_virtualScreen w), exec_bind, exec_ofOutcome]
    cases penFrame w.inj (Windows.screen w.log.length) sample eraser with
    | error e => rfl
    | ok frame => rfl

theorem writePen_exec_of_frame {sample : PenSample} {eraser : Bool} {w : World}
    (hsent : ¬ (!w.inj.last_pen_in_range && !sample.in_range)) {frame : PointerPenInfo}
    (hframe : penFrame w.inj (Windows.screen w.log.length) sample eraser = .ok frame) :
    exec (writePen sample eraser) w =
      (if Windows.accepts w.log.length (.injectPen frame) then .ok () else .error (.err .win32),
        w.after (.injectPen frame)) := by
  rw [writePen_exec, if_neg hsent, hframe]
  exact exec_callOk _ w

theorem writePen_exec_of_error {sample : PenSample} {eraser : Bool} {w : World}
    (hsent : ¬ (!w.inj.last_pen_in_range && !sample.in_range)) {e : Fault}
    (hframe : penFrame w.inj (Windows.screen w.log.length) sample eraser = .error e) :
    exec (writePen sample eraser) w = (.error e, w) := by
  rw [writePen_exec, if_neg hsent, hframe]

/-- A frame in the recorded state agrees; where Windows rejects it the record still stands, and where
it takes it the pen is in the state of the sample. -/
theorem PenTracked.frame {w : World} (h : PenTracked w) {sample : PenSample} {eraser : Bool}
    (hcontact : sample.in_contact → sample.in_range)
    (hsent : ¬ (!w.inj.last_pen_in_range && !sample.in_range)) {frame : PointerPenInfo}
    (hframe : penFrame w.inj (Windows.screen w.log.length) sample eraser = .ok frame) :
    Lifecycle (penFrames (w.after (.injectPen frame)).log) ∧
      penState (penFrames (w.after (.injectPen frame)).log) =
        if Windows.accepts w.log.length (.injectPen frame) then ⟨sample.in_range, sample.in_contact⟩
        else w.inj.penState := by
  have hlog : penFrames (w.after (.injectPen frame)).log = penFrames w.log ++
      [(frame.pointerInfo.pointerFlags, Windows.accepts w.log.length (.injectPen frame))] :=
    penFrames_append _ _
  obtain ⟨hagrees, hnext⟩ := penPointerFlags_agrees h.contact hcontact hsent
  rw [hlog, lifecycle_concat, penState_concat, h.record, penFrame_flags hframe]
  refine ⟨⟨h.lifecycle, hagrees⟩, ?_⟩
  cases Windows.accepts w.log.length (.injectPen frame) with
  | true => exact hnext
  | false => rfl

/-- `write_pen` fails with the record still true, or leaves the pen in the state of the sample. -/
theorem PenTracked.writePen {w : World} (h : PenTracked w) {sample : PenSample} {eraser : Bool}
    (hcontact : sample.in_contact → sample.in_range) :
    (∃ e w', exec (writePen sample eraser) w = (.error e, w') ∧ PenTracked w') ∨
      ∃ w', exec (writePen sample eraser) w = (.ok (), w') ∧ w'.inj = w.inj ∧
        Lifecycle (penFrames w'.log) ∧
        penState (penFrames w'.log) = ⟨sample.in_range, sample.in_contact⟩ := by
  by_cases hsent : !w.inj.last_pen_in_range && !sample.in_range
  · -- the pen was away and stays away
    right
    refine ⟨w, by rw [writePen_exec, if_pos hsent], rfl, h.lifecycle, h.record.trans ?_⟩
    have hwas := h.contact
    rw [InputInjector.penState]
    revert hsent hcontact hwas
    cases w.inj.last_pen_in_range <;> cases w.inj.last_pen_in_contact <;>
      cases sample.in_range <;> cases sample.in_contact <;> simp
  · cases hframe : penFrame w.inj (Windows.screen w.log.length) sample eraser with
    | error e => exact .inl ⟨e, w, writePen_exec_of_error hsent hframe, h⟩
    | ok frame =>
        obtain ⟨hlife, hstate⟩ := h.frame hcontact hsent hframe
        rw [writePen_exec_of_frame hsent hframe]
        by_cases hok : Windows.accepts w.log.length (.injectPen frame)
        · rw [if_pos hok] at hstate
          rw [if_pos hok]
          exact .inr ⟨_, rfl, rfl, hlife, hstate⟩
        · rw [if_neg hok] at hstate
          rw [if_neg hok]
          exact .inl ⟨_, _, rfl, ⟨hlife, hstate, h.contact, h.synthetic⟩⟩

/-! ### The flush -/

/-- In this state the sample is preceded by a flush, and Windows takes it. -/
def World.TakesFlush (w : World) (sample : PenSample) (effective_eraser : Bool) : Prop :=
  effective_eraser ≠ w.inj.last_pen_eraser ∧ w.inj.last_pen_in_range ∧
    ∃ frame, penFrame w.inj (Windows.screen w.log.length) sample.flush w.inj.last_pen_eraser =
        .ok frame ∧ Windows.accepts w.log.length (.injectPen frame)

/-- A flush that Windows does not take ends the call, with the record still true. -/
theorem PenTracked.flushEraser {w : World} (h : PenTracked w) {sample : PenSample}
    {effective_eraser : Bool} (hflush : ¬ w.TakesFlush sample effective_eraser) :
    exec (flushEraser sample effective_eraser) w = (.ok (), w) ∨
      ∃ e w', exec (flushEraser sample effective_eraser) w = (.error e, w') ∧ PenTracked w' := by
  rw [Penflow.flushEraser, exec_bind_of_ok (exec_self w)]
  by_cases hflip : effective_eraser != w.inj.last_pen_eraser && w.inj.last_pen_in_range
  · right
    rw [if_pos hflip]
    obtain ⟨hne, hrange⟩ := Bool.and_eq_true_iff.1 hflip
    have hsent : ¬ (!w.inj.last_pen_in_range && !sample.flush.in_range) := by simp [hrange]
    have hwrite := @PenTracked.writePen _ _ w h sample.flush w.inj.last_pen_eraser fun hc => hc
    rcases hwrite with herror | ⟨w', hexec, -⟩
    · exact herror
    · -- it returned, so Windows took the frame
      cases hframe : penFrame w.inj (Windows.screen w.log.length) sample.flush
          w.inj.last_pen_eraser with
      | error e =>
          rw [writePen_exec_of_error hsent hframe] at hexec
          cases hexec
      | ok frame =>
          rw [writePen_exec_of_frame hsent hframe] at hexec
          by_cases hok : Windows.accepts w.log.length (.injectPen frame)
          · exact absurd ⟨bne_iff_ne.1 hne, hrange, frame, hframe, hok⟩ hflush
          · rw [if_neg hok] at hexec
            cases hexec
  · left
    rw [if_neg hflip]
    rfl

/-! ### One call -/

/-- **The step that goes wrong.**  Windows takes the events of the sample and then a flush in front of
it. -/
def World.FlushAccepted (w : World) (sample : PenSample) : Prop :=
  Windows.acceptsAll w.log.length ((dispatchInputs w sample).map .sendInput) ∧
    (w.dispatched sample).TakesFlush sample
      (sample.eraser || (w.dispatched sample).inj.pen_eraser_sticky)

omit [BuildProfile] in
theorem PenTracked.dispatched {w : World} (h : PenTracked w) (sample : PenSample) :
    PenTracked (w.dispatched sample) := by
  have hsent := h.of_sent (.sent w (dispatchInputs w sample) (dispatchToggle w sample))
  exact hsent.of_log (List.append_nil _).symm rfl rfl rfl

theorem PenTracked.writeSample {w : World} (h : PenTracked w) {sample : PenSample}
    (hcontact : sample.in_contact → sample.in_range) {effective_eraser : Bool}
    (hflush : ¬ w.TakesFlush sample effective_eraser) :
    (∃ e w', exec (writeSample sample effective_eraser) w = (.error e, w') ∧ PenTracked w') ∨
      ∃ w', exec (writeSample sample effective_eraser) w = (.ok (), w') ∧ w'.inj = w.inj ∧
        Lifecycle (penFrames w'.log) ∧
        penState (penFrames w'.log) = ⟨sample.in_range, sample.in_contact⟩ := by
  have hpath : ¬ w.inj.vmulti.isSome := by simp [h.synthetic]
  rw [Penflow.writeSample, exec_bind_of_ok (exec_self w), if_neg hpath]
  rcases h.flushEraser hflush with hexec | ⟨e, w', hexec, htracked⟩
  · rw [exec_bind_of_ok hexec]
    exact h.writePen hcontact
  · rw [exec_bind_of_error hexec]
    exact .inl ⟨e, w', rfl, htracked⟩

theorem PenTracked.injectPen {w : World} (h : PenTracked w) {sample : PenSample}
    (hcontact : sample.in_contact → sample.in_range) (hflush : ¬ w.FlushAccepted sample) :
    PenTracked (w.step (.injectPen sample)) := by
  rw [World.step, Call.method, Penflow.injectPen]
  have hdispatch := dispatchPenButtons_exec w sample
  by_cases haccepts : Windows.acceptsAll w.log.length ((dispatchInputs w sample).map .sendInput)
  · rw [if_pos haccepts] at hdispatch
    rw [exec_bind_of_ok hdispatch, exec_bind_of_ok (exec_self _)]
    rcases (h.dispatched sample).writeSample hcontact fun hf => hflush ⟨haccepts, hf⟩ with
      ⟨e, w', hexec, htracked⟩ | ⟨w', hexec, hinj, hlife, hstate⟩
    · rw [exec_bind_of_error hexec]
      exact htracked
    · rw [exec_bind_of_ok hexec]
      -- the record is the sample
      refine ⟨hlife, hstate, hcontact, ?_⟩
      show w'.inj.vmulti = none
      rw [hinj]
      exact h.synthetic
  · rw [if_neg haccepts] at hdispatch
    obtain ⟨w', hexec, hsent⟩ := hdispatch
    rw [exec_bind_of_error hexec]
    exact h.of_sent hsent

theorem PenTracked.setPenProfile {w : World} (h : PenTracked w) (profile : PenButtonProfile) :
    PenTracked (w.step (.setPenProfile profile)) := by
  rw [World.step, Call.method, setPenProfile_exec]
  have htried := h.of_sent (.tried w (swapInputs w.inj))
  exact ⟨htried.lifecycle, htried.record.trans (by rw [World.tried_inj]; rfl), h.contact, h.synthetic⟩

theorem PenTracked.injectTouch {w : World} (h : PenTracked w) (snapshot : List TouchPoint) :
    PenTracked (w.step (.injectTouch snapshot)) := by
  obtain ⟨⟨frames, hlog⟩, pos, hinj⟩ := injectTouch_touched snapshot w
  refine h.of_log hlog ?_ (by rw [World.step, Call.method, hinj]; rfl)
    (by rw [World.step, Call.method, hinj])
  rw [penFrames, List.filterMap_map]
  exact List.filterMap_eq_nil_iff.2 fun _ _ => rfl

/-! ### Runs -/

/-- **The frames of a run agree with what Windows holds of the pen**, as long as it takes no flush. -/
theorem injectPen_lifecycle {calls : List Call}
    (hcontact : ∀ c ∈ calls, ∀ sample, c = .injectPen sample → sample.in_contact → sample.in_range)
    (hflush : Run.Steps World.step (fun w c => ∀ sample, c = .injectPen sample →
      ¬ w.FlushAccepted sample) (.new false) calls) :
    Lifecycle (penFrames (calls.foldl World.step (.new false)).log) := by
  have hsteps := hflush.and_mem hcontact
  refine (hsteps.invariant (fun w c h hc => ?_) PenTracked.new).lifecycle
  cases c with
  | injectPen sample => exact h.injectPen (hc.2 sample rfl) (hc.1 sample rfl)
  | injectTouch snapshot => exact h.injectTouch snapshot
  | setPenProfile profile => exact h.setPenProfile profile

end Frame

/-- The pen leaves, and comes back with its eraser end. -/
theorem injectPen_lifecycle_leave :
    letI := Windows.acceptsEvery
    letI : BuildProfile := ⟨true⟩
    Lifecycle (penFrames ([Call.injectPen (.hover false 0), .injectPen (PenSample.hover false 0).flush,
      .injectPen (.hover true 0)].foldl World.step (.new false)).log) := by
  let _ := Windows.acceptsEvery
  let _ : BuildProfile := ⟨true⟩
  apply injectPen_lifecycle
  · intro c hc sample hsample hcontact
    simp only [List.mem_cons, List.not_mem_nil, or_false] at hc
    rcases hc with rfl | rfl | rfl <;> cases hsample <;> cases hcontact
  · refine ⟨fun sample hsample hf => ?_, fun sample hsample hf => ?_, fun sample hsample hf => ?_,
      trivial⟩ <;> cases hsample
    · exact hf.2.1 (by decide +kernel)
    · exact hf.2.1 (by decide +kernel)
    · exact absurd hf.2.2.1 (by decide +kernel)

/-- **A flush that Windows takes.**  The pen is turned to its eraser end in range: the flush takes it out
of range, and the frame behind the flush does not say NEW. -/
theorem injectPen_flush_lifecycle :
    letI := Windows.acceptsEvery
    letI : BuildProfile := ⟨true⟩
    ¬ Lifecycle (penFrames
      ([Call.injectPen (.hover false 0), .injectPen (.hover true 0)].foldl World.step (.new false)).log) := by
  let _ := Windows.acceptsEvery
  let _ : BuildProfile := ⟨true⟩
  intro h
  have hframes : penFrames
      ([Call.injectPen (.hover false 0), .injectPen (.hover true 0)].foldl World.step (.new false)).log =
        [(0x22003, true), (0x42000, true), (0x22002, true)] := by
    decide +kernel
  rw [hframes] at h
  exact absurd (h.2.2.1.new.2 ⟨rfl, rfl⟩) (by decide)

end Penflow
