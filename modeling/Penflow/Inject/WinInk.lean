import Penflow.Inject.Injector
import Mathlib.Data.List.Basic
import Mathlib.Data.Int.Order.Basic

/-!
# Pen and touch injection

`injectPen` dispatches the button edges of a sample through the binding profile and then puts the
sample on the desktop, as a synthetic-pointer frame or as a VMulti report; `injectTouch` injects a touch
snapshot.  A run of the injector is a list of calls, each of which may fail on the way.
-/

namespace Penflow

open InjectM

/-- One pen sample after the coordinate transform. -/
structure PenSample where
  x : ℤ
  y : ℤ
  x_logical : UInt16
  y_logical : UInt16
  pressure : Float32
  tilt_x_deg : ℤ
  tilt_y_deg : ℤ
  in_range : Bool
  in_contact : Bool
  eraser : Bool
  buttons : UInt8

/-- A pen that hovers, with its tip or its eraser end and with these buttons. -/
def PenSample.hover (eraser : Bool) (buttons : UInt8) : PenSample where
  x := 100
  y := 100
  x_logical := 1000
  y_logical := 1000
  pressure := 0.0
  tilt_x_deg := 0
  tilt_y_deg := 0
  in_range := true
  in_contact := false
  eraser := eraser
  buttons := buttons

/-- `x.clamp(lo, hi)` on `f32`; a NaN stays one. -/
def clampF32 (x lo hi : Float32) : Float32 := if x < lo then lo else if x > hi then hi else x

/-- `x.clamp(lo, hi)` on integers. -/
def clampInt (x lo hi : ℤ) : ℤ := min (max x lo) hi

/-! ### Keyboard and mouse -/

section Methods

variable [Windows]

def sendKey (vk : VirtualKey) (down : Bool) : InjectM Unit :=
  callOk (.sendInput (.keyboard vk (if down then 0 else keyeventfKeyup)))

/-- The flags of a mouse-button event. -/
def mouseButtonFlags : MouseButtonKind → Bool → UInt32
  | .left, true => mouseeventfLeftdown
  | .left, false => mouseeventfLeftup
  | .right, true => mouseeventfRightdown
  | .right, false => mouseeventfRightup
  | .middle, true => mouseeventfMiddledown
  | .middle, false => mouseeventfMiddleup

def sendMouseButton (kind : MouseButtonKind) (down : Bool) : InjectM Unit :=
  callOk (.sendInput (.mouse 0 0 (mouseButtonFlags kind down)))

def normalizeAbsoluteMouseCoord (pos origin span : ℤ) : ℤ :=
  if span ≤ 1 then 0
  else
    let max_index := span - 1
    let rel := clampInt (pos - origin) 0 max_index
    (rel * 65535 + max_index / 2) / max_index

/-- The event that moves the mouse cursor to a pixel. -/
def mouseMoveInput (screen : VirtualScreen) (x y : ℤ) : Input :=
  .mouse (normalizeAbsoluteMouseCoord x screen.x screen.cx)
    (normalizeAbsoluteMouseCoord y screen.y screen.cy)
    (mouseeventfMove ||| mouseeventfAbsolute ||| mouseeventfVirtualdesk)

def sendMouseMoveTo (x y : ℤ) : InjectM Unit := do
  let screen ← virtualScreen
  callOk (.sendInput (mouseMoveInput screen x y))

/-! ### Bindings -/

/-- What `dispatch_pen_buttons` does at the rising edge of a slot. -/
def pressBinding : Binding → InjectM Unit
  | .none => pure ()
  | .keyTap vk => do
    sendKey vk true
    sendKey vk false
  | .keyHold keys => keys.forM fun vk => sendKey vk true
  | .keyChord keys => do
    keys.forM fun vk => sendKey vk true
    keys.reverse.forM fun vk => sendKey vk false
  | .mouseButton kind => sendMouseButton kind true
  | .eraserToggle => update fun self => { self with pen_eraser_sticky := !self.pen_eraser_sticky }

/-- What it does at the falling edge. -/
def releaseBinding : Binding → InjectM Unit
  | .keyHold keys => keys.reverse.forM fun vk => sendKey vk false
  | .mouseButton kind => sendMouseButton kind false
  | _ => pure ()

def dispatchSlot (binding : Binding) (pressed released : Bool) : InjectM Unit := do
  if pressed then pressBinding binding
  if released then releaseBinding binding

/-- `matches!(binding, Binding::MouseButton(_))` -/
def Binding.isMouseButton : Binding → Bool
  | mouseButton _ => true
  | _ => false

/-- Whether the mouse cursor follows the pen in this sample. -/
def syncMouseToPen (profile : PenButtonProfile) (prev now_bits : UInt8) : Bool :=
  slots.any fun slot =>
    (profile.binding slot).isMouseButton &&
      (isSet now_bits slot || isSet (prev &&& ~~~now_bits) slot)

/-- The loop over the slots. -/
def dispatchEdges (profile : PenButtonProfile) (prev now_bits : UInt8) : InjectM Unit :=
  let pressed_now := ~~~prev &&& now_bits
  let released_now := prev &&& ~~~now_bits
  slots.forM fun slot =>
    dispatchSlot (profile.binding slot) (isSet pressed_now slot) (isSet released_now slot)

/-- What comes before the loop. -/
def syncMouse (profile : PenButtonProfile) (prev : UInt8) (sample : PenSample) : InjectM Unit :=
  if syncMouseToPen profile prev sample.buttons then sendMouseMoveTo sample.x sample.y else pure ()

def dispatchPenButtons (sample : PenSample) : InjectM Unit := do
  let self ← self
  syncMouse self.pen_profile self.last_pen_buttons sample
  dispatchEdges self.pen_profile self.last_pen_buttons sample.buttons
  update fun self => { self with last_pen_buttons := sample.buttons }

/-- Send a release whose failure is ignored. -/
def release : Binding → InjectM Unit
  | .keyHold keys => keys.reverse.forM fun vk => do
    let _ ← call (.sendInput (.keyboard vk keyeventfKeyup))
  | .mouseButton kind => do
    let _ ← call (.sendInput (.mouse 0 0 (mouseButtonFlags kind false)))
  | _ => pure ()

def setPenProfile (profile : PenButtonProfile) : InjectM Unit := do
  let self ← self
  let bits_to_release := self.last_pen_buttons
  slots.forM fun slot => do
    if isSet bits_to_release slot then release (self.pen_profile.binding slot)
  update fun self => { self with last_pen_buttons := 0, pen_profile := profile }

/-! ### The synthetic pointer -/

def penPointerFlags (was_in_range was_in_contact in_range in_contact : Bool) : UInt32 :=
  if !in_range then pointerFlagUp ||| pointerFlagPrimary
  else
    (pointerFlagInrange ||| pointerFlagPrimary) |||
      (if !was_in_range then pointerFlagNew else 0) |||
      (if in_contact then
        (pointerFlagIncontact ||| pointerFlagFirstbutton) |||
          (if was_in_contact then pointerFlagUpdate else pointerFlagDown)
      else if was_in_contact then pointerFlagUp
      else pointerFlagUpdate)

variable [BuildProfile]

/-- The frame `write_pen` hands to Windows. -/
def penFrame (self : InputInjector) (screen : VirtualScreen) (sample : PenSample) (eraser : Bool) :
    Outcome PointerPenInfo := do
  let flags := penPointerFlags self.last_pen_in_range self.last_pen_in_contact sample.in_range
    sample.in_contact
  let x ← subI32 sample.x screen.x
  let y ← subI32 sample.y screen.y
  pure {
    pointerInfo := { pointerId := 1, pointerFlags := flags, ptPixelLocation := ⟨x, y⟩ }
    penFlags := if eraser then penFlagInverted else 0
    penMask := penMaskPressure ||| penMaskTiltX ||| penMaskTiltY
    pressure := ((clampF32 sample.pressure 0.0 1.0) * 1024.0).round.toUInt32
    rotation := 0
    tiltX := clampInt sample.tilt_x_deg (-90) 90
    tiltY := clampInt sample.tilt_y_deg (-90) 90 }

def writePen (sample : PenSample) (eraser : Bool) : InjectM Unit := do
  let self ← self
  if !self.last_pen_in_range && !sample.in_range then pure ()
  else do
    let screen ← virtualScreen
    let frame ← ofOutcome (penFrame self screen sample eraser)
    callOk (.injectPen frame)

/-! ### VMulti -/

/-- `to_le_bytes` of a `u16`. -/
def leBytes (x : UInt16) : List UInt8 := [x.toUInt8, (x >>> 8).toUInt8]

structure VMultiPenSample where
  x : UInt16
  y : UInt16
  pressure : UInt16
  tilt_x_deg : Int8
  tilt_y_deg : Int8
  tip_down : Bool
  barrel : Bool
  eraser : Bool
  inverted : Bool
  in_range : Bool

/-- `DIGI_PAYLOAD_LEN` -/
def digiPayloadLen : ℕ := 12

/-- `OFF_BUTTONS` -/
def offButtons : ℕ := 3

def btnTip : UInt8 := 1
def btnBarrel : UInt8 := 2
def btnEraser : UInt8 := 4
def btnInvert : UInt8 := 8
def btnInRange : UInt8 := 16

def vmultiLogicalMax : UInt16 := 32767
def vmultiPressureMaxExtended : UInt16 := 16383

/-- The buttons byte of a report. -/
def VMultiPenSample.buttons (s : VMultiPenSample) : UInt8 :=
  (if s.tip_down then btnTip else 0) ||| (if s.barrel then btnBarrel else 0) |||
    (if s.eraser then btnEraser else 0) ||| (if s.inverted then btnInvert else 0) |||
    (if s.in_range then btnInRange else 0)

/-- The report of a sample: its payload at the front of the buffer. -/
def VMultiPenSample.report (s : VMultiPenSample) (buf : List UInt8) : List UInt8 :=
  -- header, report length, report id
  [0x40, 11, 0x06, s.buttons] ++ leBytes (min s.x vmultiLogicalMax) ++
    leBytes (min s.y vmultiLogicalMax) ++ leBytes (min s.pressure vmultiPressureMaxExtended) ++
    [s.tilt_x_deg.toUInt8, s.tilt_y_deg.toUInt8] ++ buf.drop digiPayloadLen

/-- The sample `write_pen_vmulti` hands to the device. -/
def vmultiSample (sample : PenSample) (eraser : Bool) : VMultiPenSample where
  x := sample.x_logical
  y := sample.y_logical
  pressure := ((clampF32 sample.pressure 0.0 1.0) * 16383.0).round.toUInt16
  tilt_x_deg := Int8.ofInt (clampInt sample.tilt_x_deg (-90) 90)
  tilt_y_deg := Int8.ofInt (clampInt sample.tilt_y_deg (-90) 90)
  tip_down := sample.in_contact
  barrel := false
  eraser := eraser
  inverted := eraser
  in_range := sample.in_range

def writePenVMulti (sample : PenSample) (eraser : Bool) : InjectM Unit := do
  let self ← self
  match self.vmulti with
  | none => throw .panic
  | some vmulti => do
    let report := (vmultiSample sample eraser).report vmulti.buf
    update fun self => { self with vmulti := some ⟨report⟩ }
    callOk (.writeFile report)

/-! ### One sample -/

/-- The out-of-range frame in front of an eraser transition. -/
def PenSample.flush (sample : PenSample) : PenSample :=
  { sample with in_range := false, in_contact := false, pressure := 0.0 }

/-- The flip-then-flush of `inject_pen`. -/
def flushEraser (sample : PenSample) (effective_eraser : Bool) : InjectM Unit := do
  let self ← self
  if effective_eraser != self.last_pen_eraser && self.last_pen_in_range then
    writePen sample.flush self.last_pen_eraser
  else pure ()

/-- The back end's part of `inject_pen`. -/
def writeSample (sample : PenSample) (effective_eraser : Bool) : InjectM Unit := do
  let self ← self
  if self.vmulti.isSome then
    writePenVMulti sample effective_eraser
  else do
    flushEraser sample effective_eraser
    writePen sample effective_eraser

def injectPen (sample : PenSample) : InjectM Unit := do
  dispatchPenButtons sample
  let self ← self
  let effective_eraser := sample.eraser || self.pen_eraser_sticky
  writeSample sample effective_eraser
  update fun self => { self with
    last_pen_eraser := effective_eraser
    last_pen_in_range := sample.in_range
    last_pen_in_contact := sample.in_contact }

/-! ### Touch -/

/-- `MAX_TOUCH_CONTACTS` -/
def maxTouchContacts : ℕ := 10

structure TouchPoint where
  id : UInt32
  x : ℤ
  y : ℤ
  deriving DecidableEq, Repr

def makeTouchInfo (screen : VirtualScreen) (id : UInt32) (x y : ℤ) (flags : UInt32) :
    Outcome PointerTouchInfo := do
  let kx ← subI32 x screen.x
  let ky ← subI32 y screen.y
  let right ← addI32 kx 1
  let bottom ← addI32 ky 1
  pure {
    pointerInfo := { pointerId := id, pointerFlags := flags, ptPixelLocation := ⟨kx, ky⟩ }
    rcContact := ⟨kx, ky, right, bottom⟩
    rcContactRaw := ⟨kx, ky, right, bottom⟩
    orientation := 0
    pressure := 0 }

/-- The flags of a contact of the snapshot, at index `i` of it. -/
def touchFlags (was_down : Bool) (i : ℕ) : UInt32 :=
  (pointerFlagInrange ||| pointerFlagIncontact ||| pointerFlagFirstbutton) |||
    (if was_down then pointerFlagUpdate else pointerFlagNew ||| pointerFlagDown) |||
    (if i = 0 then pointerFlagPrimary else 0)

/-- The frames of a snapshot: the contacts in it, and the lost ones in the order `lost`. -/
def touchFrames (screen : VirtualScreen) (last lost : List (UInt32 × ℤ × ℤ))
    (snapshot : List TouchPoint) : Outcome (List PointerTouchInfo) := do
  let down ← snapshot.zipIdx.mapM fun (tp, i) =>
    makeTouchInfo screen tp.id tp.x tp.y (touchFlags (last.any fun pos => pos.1 == tp.id) i)
  let up ← lost.mapM fun (id, x, y) => makeTouchInfo screen id x y pointerFlagUp
  pure (down ++ up)

/-- `HashMap::insert` -/
def insertPos (m : List (UInt32 × ℤ × ℤ)) (tp : TouchPoint) : List (UInt32 × ℤ × ℤ) :=
  (tp.id, tp.x, tp.y) :: m.filter fun pos => pos.1 != tp.id

def injectTouch (snapshot : List TouchPoint) : InjectM Unit := do
  let w ← get
  let last := w.inj.last_touch_pos
  if snapshot.isEmpty && last.isEmpty then pure ()
  else do
    let screen ← virtualScreen
    let lost := (Windows.touchOrder w.log.length last).filter fun pos =>
      !snapshot.any fun tp => tp.id == pos.1
    let infos ← ofOutcome (touchFrames screen last lost snapshot)
    if infos.isEmpty then pure ()
    else do
      ofOutcome (debugAssert (infos.length ≤ maxTouchContacts))
      callOk (.injectTouch infos)
      update fun self => { self with last_touch_pos := snapshot.foldl insertPos [] }

/-! ### Runs -/

/-- A call of the injector's interface. -/
inductive Call where
  | injectPen (sample : PenSample)
  | injectTouch (snapshot : List TouchPoint)
  | setPenProfile (profile : PenButtonProfile)

def Call.method : Call → InjectM Unit
  | injectPen sample => Penflow.injectPen sample
  | injectTouch snapshot => Penflow.injectTouch snapshot
  | setPenProfile profile => Penflow.setPenProfile profile

/-- The world behind a call, whatever the call returns. -/
def World.step (w : World) (c : Call) : World := (exec c.method w).2

end Methods

/-- `impl Drop for InputInjector`, and the drop of its VMulti device behind it. -/
def drop [Windows] : InjectM Unit := do
  let self ← self
  let _ ← call .destroyTouchDevice
  let _ ← call .destroyPenDevice
  if self.vmulti.isSome then
    let _ ← call .closeHandle

end Penflow
