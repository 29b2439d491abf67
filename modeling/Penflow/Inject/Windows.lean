import Penflow.Inject.Binding
import Mathlib.Data.Nat.Notation
import Mathlib.Data.Int.Notation

/-!
# The Windows calls of the injector

Each call the injector makes into Windows with what it hands over, and `Windows`, which says what
Windows does: which calls it accepts, and what `GetSystemMetrics` says.  Both may depend on everything
that was called before, so `accepts` and `screen` take the number of the call.  The bottom half says
what a `SendInput` event does to a key or a mouse button.
-/

namespace Penflow

/-! ### Keyboard and mouse events -/

def keyeventfKeyup : UInt32 := 0x2

def mouseeventfMove : UInt32 := 0x1
def mouseeventfLeftdown : UInt32 := 0x2
def mouseeventfLeftup : UInt32 := 0x4
def mouseeventfRightdown : UInt32 := 0x8
def mouseeventfRightup : UInt32 := 0x10
def mouseeventfMiddledown : UInt32 := 0x20
def mouseeventfMiddleup : UInt32 := 0x40
def mouseeventfVirtualdesk : UInt32 := 0x4000
def mouseeventfAbsolute : UInt32 := 0x8000

/-- `INPUT` -/
inductive Input where
  | keyboard (wVk : VirtualKey) (dwFlags : UInt32)
  | mouse (dx dy : ℤ) (dwFlags : UInt32)
  deriving DecidableEq, Repr

/-! ### Pointer frames -/

def pointerFlagNew : UInt32 := 0x1
def pointerFlagInrange : UInt32 := 0x2
def pointerFlagIncontact : UInt32 := 0x4
def pointerFlagFirstbutton : UInt32 := 0x10
def pointerFlagPrimary : UInt32 := 0x2000
def pointerFlagDown : UInt32 := 0x10000
def pointerFlagUpdate : UInt32 := 0x20000
def pointerFlagUp : UInt32 := 0x40000

def penFlagInverted : UInt32 := 0x2
def penMaskPressure : UInt32 := 0x1
def penMaskTiltX : UInt32 := 0x4
def penMaskTiltY : UInt32 := 0x8

/-- `POINT` -/
structure Point where
  x : ℤ
  y : ℤ
  deriving DecidableEq, Repr

/-- `RECT` -/
structure Rect where
  left : ℤ
  top : ℤ
  right : ℤ
  bottom : ℤ
  deriving DecidableEq, Repr

/-- `POINTER_INFO` of a synthetic pointer. -/
structure PointerInfo where
  pointerId : UInt32
  pointerFlags : UInt32
  ptPixelLocation : Point
  deriving DecidableEq, Repr

/-- `POINTER_PEN_INFO` -/
structure PointerPenInfo where
  pointerInfo : PointerInfo
  penFlags : UInt32
  penMask : UInt32
  pressure : UInt32
  rotation : UInt32
  tiltX : ℤ
  tiltY : ℤ
  deriving DecidableEq, Repr

/-- `POINTER_TOUCH_INFO` -/
structure PointerTouchInfo where
  pointerInfo : PointerInfo
  rcContact : Rect
  rcContactRaw : Rect
  orientation : UInt32
  pressure : UInt32
  deriving DecidableEq, Repr

/-! ### Calls -/

inductive OsCall where
  | sendInput (input : Input)
  | injectPen (frame : PointerPenInfo)
  | injectTouch (frames : List PointerTouchInfo)
  /-- An output report of the VMulti device. -/
  | writeFile (report : List UInt8)
  | destroyTouchDevice
  | destroyPenDevice
  | closeHandle
  deriving DecidableEq, Repr

/-- `SM_XVIRTUALSCREEN`, `SM_YVIRTUALSCREEN`, `SM_CXVIRTUALSCREEN` and `SM_CYVIRTUALSCREEN` -/
structure VirtualScreen where
  x : ℤ
  y : ℤ
  cx : ℤ
  cy : ℤ
  deriving DecidableEq, Repr

/-- What Windows does.  The numbers count the calls that were made before. -/
class Windows where
  accepts : ℕ → OsCall → Bool
  screen : ℕ → VirtualScreen
  /-- The order in which the contacts of a touch map are walked. -/
  touchOrder : ℕ → List (UInt32 × ℤ × ℤ) → List (UInt32 × ℤ × ℤ)
  touchOrder_perm : ∀ n contacts, (touchOrder n contacts).Perm contacts

/-- Windows when it accepts every call, with one screen. -/
abbrev Windows.acceptsEvery : Windows where
  accepts := fun _ _ => true
  screen := fun _ => ⟨0, 0, 1920, 1080⟩
  touchOrder := fun _ contacts => contacts
  touchOrder_perm := fun _ contacts => .refl contacts

/-- Windows accepts all these calls, the first of them being call number `n`. -/
def Windows.acceptsAll [Windows] (n : ℕ) : List OsCall → Bool
  | [] => true
  | c :: cs => Windows.accepts n c && acceptsAll (n + 1) cs

/-! ### What the events do -/

/-- The flag of a button going up, and of it going down. -/
def MouseButtonKind.upFlag : MouseButtonKind → UInt32
  | left => mouseeventfLeftup
  | right => mouseeventfRightup
  | middle => mouseeventfMiddleup

def MouseButtonKind.downFlag : MouseButtonKind → UInt32
  | left => mouseeventfLeftdown
  | right => mouseeventfRightdown
  | middle => mouseeventfMiddledown

/-- Whether an event leaves a button down or up, and nothing where it is not about the button. -/
def Input.leaves (k : Button) : Input → Option Bool
  | keyboard wVk dwFlags => if k = .key wVk then some (dwFlags &&& keyeventfKeyup == 0) else none
  | mouse _ _ dwFlags =>
    match k with
    | .key _ => none
    | .mouse kind =>
      if dwFlags &&& kind.upFlag != 0 then some false
      else if dwFlags &&& kind.downFlag != 0 then some true
      else none

end Penflow
