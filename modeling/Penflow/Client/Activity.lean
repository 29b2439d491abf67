import Penflow.Client.PenInput
import Penflow.Client.TouchInput
import Penflow.Lib.Run

/-!
# The activity and its captures

`MainActivity` offers every event to the pen capture first and then, where it is a touch event, to the touch
capture.  A step of the activity is one event, with the rectangle that the video covers then; the activity
goes with what Android knows of its panel, and with all that the captures have emitted.
-/

namespace Penflow.Client

open TouchInputCapture

/-- An event with the active rectangle. -/
structure Input (F : Type) where
  rect : Rect
  ev : MotionEvent F

/-- An event while the video covers 100 by 100. -/
def Input.square (action : MotionAction) (actionIndex : ℕ) (eventTime : Int64) (buttonState : Int32)
    (pointers : List (Pointer ℚ)) : Input ℚ :=
  ⟨⟨0, 0, 100, 100⟩, ⟨1, action, actionIndex, eventTime, buttonState, pointers⟩⟩

structure Activity (F : Type) where
  /-- the pointers on the panel -/
  touching : Touching
  penCapture : PenInputCapture F
  /-- what `sendPenEvent` was given -/
  samples : List (PenSample F)
  /-- what `sendTouchSnapshot` was given, with the device it came from -/
  snapshots : List (Int32 × TouchSnapshot F)

namespace Activity

variable {F : Type} [PanelFloat F]

def start : Activity F := ⟨fun _ => [], .start, [], []⟩

/-- `penCapture.consume(ev)` -/
def offerPen (s : Activity F) (i : Input F) : Bool × Activity F :=
  let (consumed, penCapture, out) := s.penCapture.consume i.rect i.ev
  (consumed, { s with penCapture := penCapture, samples := s.samples ++ out })

/-- `touchCapture.consume(ev)` -/
def offerTouch (s : Activity F) (i : Input F) : Activity F :=
  match TouchInputCapture.consume i.rect i.ev with
  | none => s
  | some snap => { s with snapshots := s.snapshots ++ [(i.ev.deviceId, snap)] }

def dispatchTouchEvent (s : Activity F) (i : Input F) : Activity F :=
  let (consumed, s) := s.offerPen i
  if consumed then s else s.offerTouch i

def dispatchGenericMotionEvent (s : Activity F) (i : Input F) : Activity F := (s.offerPen i).2

def step (s : Activity F) (i : Input F) : Activity F :=
  let next := if i.ev.action.isTouch then s.dispatchTouchEvent i else s.dispatchGenericMotionEvent i
  { next with touching := s.touching.after i.ev }

/-- Android may deliver the event. -/
def Legal (s : Activity F) (i : Input F) : Prop := i.ev.Legal s.touching

/-- The samples of the next event. -/
def emits (s : Activity F) (i : Input F) : List (PenSample F) := (s.penCapture.consume i.rect i.ev).2.2

variable {s : Activity F} {i : Input F}

theorem offerTouch_samples : (s.offerTouch i).samples = s.samples := by
  unfold offerTouch
  split <;> rfl

theorem step_samples : (s.step i).samples = s.samples ++ s.emits i := by
  show (if i.ev.action.isTouch then s.dispatchTouchEvent i else s.dispatchGenericMotionEvent i).samples = _
  unfold dispatchTouchEvent dispatchGenericMotionEvent offerPen
  dsimp only
  repeat' split
  · rfl
  · exact offerTouch_samples
  · rfl

theorem step_touching : (s.step i).touching = s.touching.after i.ev := rfl

/-! ### A pen lift -/

/-- The event ends the contact of its pen: UP or POINTER_UP of the pen, CANCEL, HOVER_EXIT. -/
def EndsContact (ev : MotionEvent F) (penIndex : ℕ) : Prop :=
  match ev.action with
  | .up | .pointerUp => ev.actionIndex = penIndex
  | .cancel | .hoverExit => True
  | _ => False

/-- The last sample of the pen is none in contact. -/
def Lifted (s : Activity F) : Prop := ∀ x ∈ s.samples.getLast?, x.inContact = false

/-- Behind an event that ends the contact of its pen, the pen is lifted. -/
def LiftArrives (s : Activity F) (i : Input F) : Prop :=
  ∀ p penIndex, i.ev.findPen = some (p, penIndex) → EndsContact i.ev penIndex → (s.step i).Lifted

/-- The pen is in the video when its contact ends, or is lifted already. -/
def LiftSeen (s : Activity F) (i : Input F) : Prop :=
  ∀ p penIndex, i.ev.findPen = some (p, penIndex) → EndsContact i.ev penIndex →
    i.rect.inBar p.x p.y = false ∨ s.Lifted

omit [PanelFloat F] in
theorem mapPhase_of_endsContact {ev : MotionEvent F} {penIndex : ℕ} (h : EndsContact ev penIndex) :
    ev.mapPhase penIndex = 3 ∨ ev.mapPhase penIndex = 4 := by
  unfold EndsContact at h
  unfold MotionEvent.mapPhase
  cases hact : ev.action with
  | up =>
      rw [hact] at h
      exact .inl (if_pos h)
  | pointerUp =>
      rw [hact] at h
      exact .inl (if_pos h)
  | cancel => exact .inr rfl
  | hoverExit => exact .inr rfl
  | _ =>
      rw [hact] at h
      exact h.elim

/-- An event that ends the contact is emitted unless the pen is in a bar. -/
theorem emits_of_endsContact {p : Pointer F} {penIndex : ℕ} (hpen : i.ev.findPen = some (p, penIndex))
    (h : EndsContact i.ev penIndex) :
    s.emits i = if i.rect.inBar p.x p.y then []
      else PenInputCapture.samples i.rect i.ev p (i.ev.mapPhase penIndex)
        (sampleButtons s.penCapture.lastButtonsRaw i.ev.buttonState) := by
  have hfresh : s.penCapture.inDeadZone (i.ev.mapPhase penIndex) p.x p.y i.ev.eventTime = false := by
    rcases mapPhase_of_endsContact h with hphase | hphase
    · rw [hphase]
      exact PenInputCapture.inDeadZone_eq_false (by decide) (by decide) _ _ _
    · rw [hphase]
      exact PenInputCapture.inDeadZone_eq_false (by decide) (by decide) _ _ _
  rw [emits, PenInputCapture.consume_of_pen hpen, hfresh, Bool.false_or]

theorem liftArrives_iff : s.LiftArrives i ↔ s.LiftSeen i := by
  refine forall_congr' fun p => forall_congr' fun penIndex => forall_congr' fun hpen =>
    forall_congr' fun hends => ?_
  rw [Lifted, step_samples, emits_of_endsContact hpen hends]
  cases hbar : i.rect.inBar p.x p.y with
  | true =>
      rw [if_pos rfl, List.append_nil]
      simp [Lifted]
  | false =>
      rw [if_neg Bool.false_ne_true]
      refine iff_of_true (fun x hx => ?_) (.inl rfl)
      obtain ⟨y, hlast, hphase⟩ := PenInputCapture.samples_getLast? i.rect i.ev p
        (i.ev.mapPhase penIndex) (sampleButtons s.penCapture.lastButtonsRaw i.ev.buttonState)
      rw [List.getLast?_append, hlast] at hx
      obtain rfl : y = x := Option.some.inj hx
      rw [PenSample.inContact, hphase]
      rcases mapPhase_of_endsContact hends with h | h
      · rw [h]
        decide
      · rw [h]
        decide

/-- **When every lift of the pen arrives.** -/
theorem lifts_arrive_iff (is : List (Input F)) :
    Run.Steps step LiftArrives start is ↔ Run.Steps step LiftSeen start is := by
  rw [Run.steps_iff, Run.steps_iff]
  simp only [liftArrives_iff]

/-- A stroke that ends in the bar below the video. -/
theorem lift_in_bar : ¬ ∀ is : List (Input ℚ), Run.Steps step LiftArrives start is := by
  intro h
  have hlift := (h [.square .down 0 1000 0 [.still 0 .stylus 50 50 1],
    .square .up 0 1050 0 [.still 0 .stylus 50 150 0]]).2.1 _ 0 rfl rfl
  have hcontact : ((step (step start (.square .down 0 1000 0 [.still 0 .stylus 50 50 1]))
      (.square .up 0 1050 0 [.still 0 .stylus 50 150 0])).samples.getLast?.any PenSample.inContact) = true := by
    decide +kernel
  obtain ⟨x, hx, hin⟩ := (Option.any_eq_true _ _).1 hcontact
  rw [hlift x hx] at hin
  cases hin

/-! ### The pen in contact -/

/-- The actions that `mapPhase` does not name. -/
def unnamed : MotionAction → Bool
  | .outside | .scroll | .buttonPress | .buttonRelease => true
  | _ => false

/-- Samples in contact are those of a pen that touches the panel. -/
def ContactTouches (s : Activity F) (i : Input F) : Prop :=
  ∀ p penIndex, i.ev.findPen = some (p, penIndex) → ∀ x ∈ s.emits i, x.inContact = true →
    p.id ∈ (s.step i).touching i.ev.deviceId

/-- A pen that is in the video at an event of an action that is not named touches the panel. -/
def NoStray (s : Activity F) (i : Input F) : Prop :=
  ∀ p penIndex, i.ev.findPen = some (p, penIndex) → unnamed i.ev.action = true →
    i.rect.inBar p.x p.y = false → p.id ∈ s.touching i.ev.deviceId

theorem touching_device (s : Activity F) (i : Input F) :
    (s.step i).touching i.ev.deviceId = i.ev.touchingAfter (s.touching i.ev.deviceId) := by
  rw [step_touching, Touching.after, Function.update_self]

omit [PanelFloat F] in
theorem findPen_getElem? {ev : MotionEvent F} {p : Pointer F} {penIndex : ℕ}
    (h : ev.findPen = some (p, penIndex)) : ev.ids[penIndex]? = some p.id := by
  have hmem : (p, penIndex) ∈ ev.pointers.zipIdx := List.mem_of_find?_eq_some h
  rw [MotionEvent.ids, List.getElem?_map, List.mem_zipIdx_iff_getElem?.1 hmem]
  rfl

theorem emits_inContact {p : Pointer F} {penIndex : ℕ} (hpen : i.ev.findPen = some (p, penIndex)) :
    ∀ x ∈ s.emits i, x.phase = i.ev.mapPhase penIndex := by
  intro x hx
  rw [emits, PenInputCapture.consume_of_pen hpen] at hx
  split at hx
  · cases hx
  · exact PenInputCapture.samples_phase x hx

/-- An action that is named has a phase in contact only where it lists a pen that touches. -/
theorem contactTouches_of_named (hlegal : s.Legal i) (hnamed : unnamed i.ev.action = false) :
    s.ContactTouches i := by
  intro p penIndex hpen x hx hcontact
  rw [PenSample.inContact, emits_inContact hpen x hx] at hcontact
  rw [touching_device]
  refine MotionEvent.mem_touchingAfter hlegal.nodup hlegal.action ?_ ?_ (findPen_getElem? hpen) ?_
  · cases hact : i.ev.action <;> simp_all [MotionEvent.mapPhase, MotionAction.isTouch, unnamed]
  · intro hact
    simp [MotionEvent.mapPhase, hact] at hcontact
  · rintro hup rfl
    rcases hup with hact | hact <;> simp [MotionEvent.mapPhase, hact] at hcontact

theorem contactTouches_of_unnamed (hunnamed : unnamed i.ev.action = true) :
    s.ContactTouches i ↔ s.NoStray i := by
  have hphase : ∀ penIndex, i.ev.mapPhase penIndex = 2 := by
    intro penIndex
    unfold MotionEvent.mapPhase
    cases hact : i.ev.action <;> simp_all [unnamed]
  have hsame : i.ev.touchingAfter (s.touching i.ev.deviceId) = s.touching i.ev.deviceId := by
    unfold MotionEvent.touchingAfter
    cases hact : i.ev.action <;> simp_all [unnamed]
  refine forall_congr' fun p => forall_congr' fun penIndex => forall_congr' fun hpen => ?_
  have hfresh := PenInputCapture.inDeadZone_eq_false (c := s.penCapture)
    (by decide : (2 : Int32) ≠ 1) (by decide) p.x p.y i.ev.eventTime
  rw [touching_device, hsame, emits, PenInputCapture.consume_of_pen hpen, hphase, hfresh, Bool.false_or]
  constructor
  · intro h _ hbar
    rw [hbar, if_neg Bool.false_ne_true] at h
    obtain ⟨x, hlast, hx⟩ := PenInputCapture.samples_getLast? i.rect i.ev p 2
      (sampleButtons s.penCapture.lastButtonsRaw i.ev.buttonState)
    refine h x (List.mem_of_getLast? hlast) ?_
    rw [PenSample.inContact, hx]
    rfl
  · intro h x hx _
    split at hx
    · cases hx
    · exact h hunnamed (Bool.eq_false_iff.2 ‹_›)

theorem contactTouches_iff (hlegal : s.Legal i) : s.ContactTouches i ↔ s.NoStray i := by
  cases hunnamed : unnamed i.ev.action with
  | true => exact contactTouches_of_unnamed hunnamed
  | false =>
      refine iff_of_true (contactTouches_of_named hlegal hunnamed) fun p penIndex hpen h => ?_
      rw [hunnamed] at h
      cases h

/-- **When the pen is in contact only while it touches**, in a run that Android may deliver. -/
theorem contact_touches_iff {is : List (Input F)} (h : Run.Steps step Legal start is) :
    Run.Steps step ContactTouches start is ↔ Run.Steps step NoStray start is :=
  h.congr fun _ _ hlegal => contactTouches_iff hlegal

/-- A stylus draws, and presses its button meanwhile. -/
theorem contact_touches_iff_stroke :
    Run.Steps step ContactTouches start
        [.square .down 0 1000 0 [.still 0 .stylus 50 50 1],
          .square .buttonPress 0 1010 32 [.still 0 .stylus 50 50 1],
          .square .up 0 1050 32 [.still 0 .stylus 60 60 0]] := by
  refine (contact_touches_iff ?_).2 ⟨?_, ?_, ?_, trivial⟩
  · exact ⟨⟨by decide, List.cons_ne_nil _ _, rfl, rfl, rfl⟩,
      ⟨by decide, List.cons_ne_nil _ _, .inr (.refl _)⟩,
      ⟨by decide, List.cons_ne_nil _ _, rfl, rfl, .refl _⟩, trivial⟩
  · intro p penIndex _ hunnamed
    cases hunnamed
  · intro p penIndex hpen _ _
    cases hpen
    decide
  · intro p penIndex _ hunnamed
    cases hunnamed

/-- The barrel button of a stylus that hovers: the sample of the press is a move. -/
theorem button_press_draws : ¬ ∀ is : List (Input ℚ), Run.Steps step Legal start is →
    Run.Steps step ContactTouches start is := by
  intro h
  have hlegal : Run.Steps step Legal start
      [.square .hoverEnter 0 1000 0 [.still 0 .stylus 50 50 0],
        .square .buttonPress 0 1010 32 [.still 0 .stylus 50 50 0]] :=
    ⟨⟨by decide, List.cons_ne_nil _ _, rfl⟩, ⟨by decide, List.cons_ne_nil _ _, .inl rfl⟩, trivial⟩
  have hpress := (contactTouches_of_unnamed rfl).1 (h _ hlegal).2.1
  have hnone := hpress _ 0 rfl rfl (by decide +kernel)
  cases hnone

/-! ### The fingers on the panel -/

/-- The last snapshot lists only pointers that touch the panel. -/
def NoStuck (s : Activity F) : Prop :=
  ∀ x ∈ s.snapshots.getLast?, ∀ id ∈ x.2.ids, id ∈ s.touching x.1

/-- An event behind which a finger of the last snapshot is not on the panel any more has no stylus in it, and
a finger at index 0. -/
def LiftsReachTouch (s : Activity F) (i : Input F) : Prop :=
  ∀ x ∈ s.snapshots.getLast?, x.1 = i.ev.deviceId →
    ∀ id ∈ x.2.ids, id ∉ i.ev.touchingAfter (s.touching x.1) →
      i.ev.findPen = none ∧ firstIsFinger i.ev = true

/-- The snapshot of the next event. -/
def snapshot (i : Input F) : Option (TouchSnapshot F) :=
  if i.ev.action.isTouch && i.ev.findPen.isNone then TouchInputCapture.consume i.rect i.ev else none

theorem step_snapshots : (s.step i).snapshots =
    s.snapshots ++ (snapshot i).toList.map fun snap => (i.ev.deviceId, snap) := by
  have hconsumed : (s.penCapture.consume i.rect i.ev).1 = i.ev.findPen.isSome :=
    PenInputCapture.consume_fst
  show (if i.ev.action.isTouch then s.dispatchTouchEvent i
    else s.dispatchGenericMotionEvent i).snapshots = _
  rw [snapshot]
  cases i.ev.action.isTouch with
  | false => exact (List.append_nil _).symm
  | true =>
      rw [if_pos rfl, dispatchTouchEvent, offerPen]
      dsimp only
      rw [hconsumed]
      cases i.ev.findPen with
      | some p => exact (List.append_nil _).symm
      | none =>
          show (offerTouch _ i).snapshots = s.snapshots ++ _
          rw [offerTouch]
          show _ = _ ++ (TouchInputCapture.consume i.rect i.ev).toList.map _
          cases TouchInputCapture.consume i.rect i.ev with
          | none => exact (List.append_nil _).symm
          | some snap => rfl

omit [PanelFloat F] in
theorem start_noStuck : (start : Activity F).NoStuck := by
  intro x hx
  cases hx

theorem noStuck_of_snapshot (hlegal : s.Legal i) {snap : TouchSnapshot F} (h : snapshot i = some snap) :
    (s.step i).NoStuck := by
  intro x hx
  rw [step_snapshots, h, List.getLast?_append] at hx
  obtain rfl : (i.ev.deviceId, snap) = x := Option.some.inj hx
  rw [snapshot] at h
  split at h
  · rw [touching_device]
    rename_i htouch
    rw [Bool.and_eq_true] at htouch
    exact mem_touchingAfter_of_consume hlegal.nodup hlegal.action htouch.1 h
  · cases h

/-- **One event.** -/
theorem step_noStuck_iff (s : Activity F) (i : Input F) (h : s.NoStuck) (hlegal : s.Legal i) :
    (s.step i).NoStuck ↔ s.LiftsReachTouch i := by
  cases hsnap : snapshot i with
  | some snap =>
      refine iff_of_true (noStuck_of_snapshot hlegal hsnap) fun x _ _ id _ _ => ?_
      rw [snapshot] at hsnap
      split at hsnap
      · rename_i htouch
        rw [Bool.and_eq_true, Option.isNone_iff_eq_none] at htouch
        rw [TouchInputCapture.consume] at hsnap
        split at hsnap
        · exact ⟨htouch.2, ‹_›⟩
        · cases hsnap
      · cases hsnap
  | none =>
      -- the last snapshot stays the last one
      have hsame : (s.step i).snapshots = s.snapshots := by
        rw [step_snapshots, hsnap]
        exact List.append_nil _
      rw [NoStuck, hsame]
      refine forall_congr' fun x => forall_congr' fun hx => ?_
      by_cases hdevice : x.1 = i.ev.deviceId
      · have hafter : (s.step i).touching x.1 = i.ev.touchingAfter (s.touching x.1) := by
          rw [hdevice, touching_device]
        rw [hafter]
        constructor
        · intro hall _ id hid hnot
          exact absurd (hall id hid) hnot
        · intro hreach id hid
          by_contra hnot
          obtain ⟨hpen, hfinger⟩ := hreach hdevice id hid hnot
          have htouch : i.ev.action.isTouch = false := by
            rw [Bool.eq_false_iff]
            intro htouch
            simp [snapshot, htouch, hpen, TouchInputCapture.consume, hfinger] at hsnap
          apply hnot
          have hkeep : i.ev.touchingAfter (s.touching x.1) = s.touching x.1 := by
            unfold MotionEvent.touchingAfter
            cases hact : i.ev.action <;> simp_all [MotionAction.isTouch]
          rw [hkeep]
          exact h x hx id hid
      · have hafter : (s.step i).touching x.1 = s.touching x.1 := by
          rw [step_touching, Touching.after, Function.update_of_ne hdevice]
        rw [hafter]
        exact iff_of_true (h x hx) fun heq => absurd heq hdevice

omit [PanelFloat F] in
/-- Once no pointer is on the panel, the last snapshot lists none. -/
theorem NoStuck.empty (h : s.NoStuck) (hup : ∀ device, s.touching device = []) :
    ∀ x ∈ s.snapshots.getLast?, x.2.ids = [] := by
  intro x hx
  refine List.eq_nil_iff_forall_not_mem.2 fun id hid => ?_
  have hmem := h x hx id hid
  rw [hup] at hmem
  cases hmem

/-- **When no touch is stuck**, in a run that Android may deliver. -/
theorem no_stuck_iff {is : List (Input F)} (h : Run.Steps step Legal start is) :
    (∀ pre, pre <+: is → (pre.foldl step start).NoStuck) ↔ Run.Steps step LiftsReachTouch start is :=
  Run.Steps.always_iff step_noStuck_iff h start_noStuck

/-- Two fingers come and go, and none is left in the last snapshot. -/
theorem no_stuck_iff_fingers :
    (([.square .down 0 1000 0 [.still 0 .finger 20 20 1],
        .square .pointerDown 1 1010 0 [.still 0 .finger 20 20 1, .still 1 .finger 80 80 1],
        .square .pointerUp 0 1020 0 [.still 0 .finger 20 20 1, .still 1 .finger 80 80 1],
        .square .up 0 1030 0 [.still 1 .finger 80 80 1]] : List (Input ℚ)).foldl step start).NoStuck := by
  refine (no_stuck_iff ?_).2 ?_ _ List.prefix_rfl
  · exact ⟨⟨by decide, List.cons_ne_nil _ _, rfl, rfl, rfl⟩,
      ⟨by decide, List.cons_ne_nil _ _, List.cons_ne_nil _ _, ⟨1, rfl⟩, .refl _⟩,
      ⟨by decide, List.cons_ne_nil _ _, ⟨0, rfl⟩, le_refl 2, .refl _⟩,
      ⟨by decide, List.cons_ne_nil _ _, rfl, rfl, .refl _⟩, trivial⟩
  · refine ⟨?_, ?_, ?_, ?_, trivial⟩
    all_goals exact fun _ _ _ _ _ _ => ⟨rfl, rfl⟩

/-- A finger and then the stylus come, and the finger goes first. -/
theorem stuck_finger : ¬ ∀ is : List (Input ℚ), Run.Steps step Legal start is →
    ∀ pre, pre <+: is → (pre.foldl step start).NoStuck := by
  intro h
  have hlegal : Run.Steps step Legal start
      [.square .down 0 1000 0 [.still 0 .finger 20 20 1],
        .square .pointerDown 1 1010 0 [.still 0 .finger 20 20 1, .still 1 .stylus 80 80 1],
        .square .pointerUp 0 1020 0 [.still 0 .finger 20 20 1, .still 1 .stylus 80 80 1],
        .square .up 0 1030 0 [.still 1 .stylus 80 80 1]] :=
    ⟨⟨by decide, List.cons_ne_nil _ _, rfl, rfl, rfl⟩,
      ⟨by decide, List.cons_ne_nil _ _, List.cons_ne_nil _ _, ⟨1, rfl⟩, .refl _⟩,
      ⟨by decide, List.cons_ne_nil _ _, ⟨0, rfl⟩, le_refl 2, .refl _⟩,
      ⟨by decide, List.cons_ne_nil _ _, rfl, rfl, .refl _⟩, trivial⟩
  have hend := h _ hlegal _ (List.prefix_refl _)
  have hlast : ((([.square .down 0 1000 0 [.still 0 .finger 20 20 1],
      .square .pointerDown 1 1010 0 [.still 0 .finger 20 20 1, .still 1 .stylus 80 80 1],
      .square .pointerUp 0 1020 0 [.still 0 .finger 20 20 1, .still 1 .stylus 80 80 1],
      .square .up 0 1030 0 [.still 1 .stylus 80 80 1]] : List (Input ℚ)).foldl step start).snapshots.getLast?.any
        fun x => x.1 = 1 && x.2.ids.contains 0) = true := by
    decide +kernel
  obtain ⟨x, hx, hcontact⟩ := (Option.any_eq_true _ _).1 hlast
  rw [Bool.and_eq_true, decide_eq_true_eq, List.contains_iff_mem] at hcontact
  have hmem := hend x hx 0 hcontact.2
  rw [hcontact.1] at hmem
  revert hmem
  decide

end Activity

end Penflow.Client
