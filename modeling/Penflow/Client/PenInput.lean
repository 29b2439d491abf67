import Penflow.Client.MotionEvent

/-!
# The pen capture

`PenInputCapture.consume` takes the events with a stylus in them and makes pen samples of them; the phase of
a sample comes from the action of the event and from whether the action is about the pen.  Two filters drop
events: a pen that comes down or hovers where it was just lifted, and a pen in the bars around the video.
-/

namespace Penflow.Client

variable {F : Type} [PanelFloat F]

structure PenSample (F : Type) where
  tsNs : Int64
  /-- 0 hover, 1 down, 2 move, 3 up, 4 leave -/
  phase : Int32
  xNorm : F
  yNorm : F
  pressure : F
  tiltX : Float32
  tiltY : Float32
  buttons : Int32
  tool : Int32

/-- The phases in which the PC holds the pen in contact. -/
def PenSample.inContact (x : PenSample F) : Bool := x.phase == 1 || x.phase == 2

/-- `PenInputCapture` -/
structure PenInputCapture (F : Type) where
  lastButtonsRaw : Int32
  /-- where and when the pen was lifted last -/
  lastUp : Option (F × F × Int64)

def PenInputCapture.start : PenInputCapture F := ⟨0, none⟩

/-- A member of `TOOL_TYPES`. -/
def ToolType.isPen : ToolType → Bool
  | stylus | eraser => true
  | _ => false

namespace MotionEvent

/-- `findPenIndex`, with the pointer there. -/
def findPen (ev : MotionEvent F) : Option (Pointer F × ℕ) :=
  ev.pointers.zipIdx.find? fun p => p.1.tool.isPen

/-- `mapPhase` -/
def mapPhase (ev : MotionEvent F) (penIndex : ℕ) : Int32 :=
  match ev.action with
  | .hoverEnter | .hoverMove => 0
  | .down | .pointerDown => if ev.actionIndex = penIndex then 1 else 2
  | .move => 2
  | .up | .pointerUp => if ev.actionIndex = penIndex then 3 else 2
  | .hoverExit | .cancel => 4
  | _ => 2

end MotionEvent

def buttonStylusPrimary : Int32 := 0x20
def buttonStylusSecondary : Int32 := 0x40
def buttonTertiary : Int32 := 0x04

/-- `decodeButtons` -/
def decodeButtons (nowPrimary nowSecondary nowTertiary chordTransition : Bool) : Int32 :=
  if chordTransition then 0b100
  else
    (if nowPrimary then 0b001 else 0) ||| (if nowSecondary then 0b010 else 0) |||
      (if nowTertiary then 0b100 else 0)

/-- The buttons of a sample: both stylus buttons pressed at once are the third one. -/
def sampleButtons (lastButtonsRaw rawButtons : Int32) : Int32 :=
  let newPrimary := rawButtons &&& buttonStylusPrimary != 0
  let newSecondary := rawButtons &&& buttonStylusSecondary != 0
  let newTertiary := rawButtons &&& buttonTertiary != 0
  let oldPrimary := lastButtonsRaw &&& buttonStylusPrimary != 0
  let oldSecondary := lastButtonsRaw &&& buttonStylusSecondary != 0
  decodeButtons newPrimary newSecondary newTertiary
    ((newPrimary && !oldPrimary) && (newSecondary && !oldSecondary))

/-- `AXIS_TILT` and `AXIS_ORIENTATION`, in radians, as tilt along both axes, in degrees. -/
def tiltXY (tiltRad orient : Float32) : Float32 × Float32 :=
  let tiltDeg := tiltRad.toFloat * 57.29577951308232
  ((orient.toFloat.sin * tiltDeg).toFloat32, (-orient.toFloat.cos * tiltDeg).toFloat32)

namespace PenInputCapture

/-- `DEAD_ZONE_PX_SQ` -/
def deadZonePxSq : F := PanelFloat.ofInt 25

/-- `DEAD_ZONE_MS` -/
def deadZoneMs : Int64 := 80

/-- A pen that comes down or hovers close to where it was lifted just before. -/
def inDeadZone (c : PenInputCapture F) (phase : Int32) (penX penY : F) (eventTime : Int64) : Bool :=
  (phase == 1 || phase == 0) &&
    match c.lastUp with
    | none => false
    | some (lastUpX, lastUpY, lastUpTimeMs) =>
      let dx := penX - lastUpX
      let dy := penY - lastUpY
      decide (eventTime - lastUpTimeMs < deadZoneMs) && decide (dx * dx + dy * dy < deadZonePxSq)

/-- The sample of the pen at a point. -/
def sampleAt (rect : Rect) (p : Pointer F) (phase buttons : Int32) (timeMs : Int64)
    (x y pressure : F) : PenSample F where
  tsNs := timeMs * 1000000
  phase := phase
  xNorm := coerceUnit ((x - rect.rectL) / rect.rectW)
  yNorm := coerceUnit ((y - rect.rectT) / rect.rectH)
  pressure := coerceUnit pressure
  tiltX := (tiltXY p.tilt p.orientation).1
  tiltY := (tiltXY p.tilt p.orientation).2
  buttons := buttons
  tool := if p.tool = .eraser then 1 else 0

/-- The batched samples outside of the bars, and the event's own. -/
def samples (rect : Rect) (ev : MotionEvent F) (p : Pointer F) (phase buttons : Int32) :
    List (PenSample F) :=
  ((p.history.filter fun h => !rect.inBar h.x h.y).map fun h =>
    sampleAt rect p phase buttons h.eventTime h.x h.y h.pressure) ++
  [sampleAt rect p phase buttons ev.eventTime p.x p.y p.pressure]

/-- What `consume` returns, the capture behind it, and the samples it has emitted. -/
def consume (c : PenInputCapture F) (rect : Rect) (ev : MotionEvent F) :
    Bool × PenInputCapture F × List (PenSample F) :=
  match ev.findPen with
  | none => (false, c, [])
  | some (p, penIndex) =>
    let phase := ev.mapPhase penIndex
    if c.inDeadZone phase p.x p.y ev.eventTime then (true, c, [])
    else
      let c := if phase = 3 then { c with lastUp := some (p.x, p.y, ev.eventTime) } else c
      if rect.inBar p.x p.y then (true, c, [])
      else
        (true, { c with lastButtonsRaw := ev.buttonState },
          samples rect ev p phase (sampleButtons c.lastButtonsRaw ev.buttonState))

/-! ### What it emits -/

variable {c : PenInputCapture F} {rect : Rect} {ev : MotionEvent F}

theorem samples_phase {p : Pointer F} {phase buttons : Int32} :
    ∀ x ∈ samples rect ev p phase buttons, x.phase = phase := by
  intro x hx
  rcases List.mem_append.1 hx with hx | hx
  · obtain ⟨h, -, rfl⟩ := List.mem_map.1 hx
    rfl
  · rw [List.mem_singleton.1 hx]
    rfl

theorem samples_getLast? (rect : Rect) (ev : MotionEvent F) (p : Pointer F) (phase buttons : Int32) :
    ∃ x, (samples rect ev p phase buttons).getLast? = some x ∧ x.phase = phase :=
  ⟨_, List.getLast?_concat, rfl⟩

/-- The samples of an event with a pen: none, or all of them of the event's phase. -/
theorem consume_of_pen {p : Pointer F} {penIndex : ℕ} (hpen : ev.findPen = some (p, penIndex)) :
    (c.consume rect ev).2.2 =
      if c.inDeadZone (ev.mapPhase penIndex) p.x p.y ev.eventTime || rect.inBar p.x p.y then []
      else samples rect ev p (ev.mapPhase penIndex) (sampleButtons c.lastButtonsRaw ev.buttonState) := by
  rw [consume, hpen]
  dsimp only
  cases c.inDeadZone (ev.mapPhase penIndex) p.x p.y ev.eventTime with
  | true => rfl
  | false =>
      cases rect.inBar p.x p.y with
      | true => rfl
      | false =>
          by_cases hup : ev.mapPhase penIndex = 3
          · simp [hup]
          · simp [hup]

theorem consume_of_none (hpen : ev.findPen = none) : c.consume rect ev = (false, c, []) := by
  rw [consume, hpen]

/-- An event is consumed just when there is a pen in it. -/
theorem consume_fst : (c.consume rect ev).1 = ev.findPen.isSome := by
  cases hpen : ev.findPen with
  | none => rw [consume_of_none hpen]; rfl
  | some p =>
      rw [consume, hpen]
      dsimp only
      repeat' split
      all_goals rfl

/-- Only a pen that comes down or hovers is in the dead zone. -/
theorem inDeadZone_eq_false {phase : Int32} (h1 : phase ≠ 1) (h0 : phase ≠ 0) (x y : F) (t : Int64) :
    c.inDeadZone phase x y t = false := by
  rw [inDeadZone, beq_false_of_ne h1, beq_false_of_ne h0]
  rfl

end PenInputCapture

end Penflow.Client
