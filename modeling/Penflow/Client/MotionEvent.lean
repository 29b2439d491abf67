import Mathlib.Algebra.Order.Field.Rat
import Mathlib.Data.List.Basic
import Mathlib.Logic.Function.Basic

/-!
# Motion events

What Android tells of the pointers on its panel: who they are, where they are, and what one of them has just
done.  `Touching` is which pointers touch the panel, device by device, and `MotionEvent.Legal` which events
Android may deliver then; the events of different devices may come in any order.
-/

namespace Penflow.Client

/-- The arithmetic of `Float` that the input captures use. -/
class PanelFloat (F : Type) extends Add F, Sub F, Mul F, Div F, LT F where
  ofInt : ℤ → F
  decLt : DecidableLT F

attribute [reducible, instance] PanelFloat.decLt

instance : PanelFloat Float32 where
  ofInt i := .ofInt i
  decLt := inferInstance

/-- Exact coordinates. -/
instance : PanelFloat ℚ where
  ofInt i := i
  decLt := inferInstance

/-- `TOOL_TYPE_…` -/
inductive ToolType where
  | unknown
  | finger
  | stylus
  | mouse
  | eraser
  | palm
  deriving DecidableEq, Repr

/-- `ACTION_…`, the `actionMasked` of an event. -/
inductive MotionAction where
  | down
  | up
  | move
  | cancel
  | outside
  | pointerDown
  | pointerUp
  | hoverMove
  | scroll
  | hoverEnter
  | hoverExit
  | buttonPress
  | buttonRelease
  deriving DecidableEq, Repr

/-- `isTouchEvent`: the event goes to `dispatchTouchEvent`, the other ones to `dispatchGenericMotionEvent`. -/
def MotionAction.isTouch : MotionAction → Bool
  | down | up | move | cancel | outside | pointerDown | pointerUp => true
  | _ => false

/-- A batched sample of a pointer. -/
structure Historical (F : Type) where
  eventTime : Int64
  x : F
  y : F
  pressure : F

structure Pointer (F : Type) where
  id : Int32
  tool : ToolType
  x : F
  y : F
  pressure : F
  /-- `AXIS_TILT` and `AXIS_ORIENTATION` -/
  tilt : Float32
  orientation : Float32
  history : List (Historical F)

structure MotionEvent (F : Type) where
  deviceId : Int32
  action : MotionAction
  actionIndex : ℕ
  eventTime : Int64
  buttonState : Int32
  pointers : List (Pointer F)

/-- A pointer that lies still, with nothing batched. -/
def Pointer.still {F : Type} (id : Int32) (tool : ToolType) (x y pressure : F) : Pointer F where
  id := id
  tool := tool
  x := x
  y := y
  pressure := pressure
  tilt := 0
  orientation := 0
  history := []

/-- `android.graphics.Rect`, whose four are `int`s; here they are integers without bound -/
structure Rect where
  left : ℤ
  top : ℤ
  right : ℤ
  bottom : ℤ
  deriving DecidableEq, Repr

namespace Rect

def width (r : Rect) : ℤ := r.right - r.left

def height (r : Rect) : ℤ := r.bottom - r.top

variable {F : Type} [PanelFloat F]

/-- `width().coerceAtLeast(1).toFloat()` -/
def rectW (r : Rect) : F := PanelFloat.ofInt (max r.width 1)

def rectH (r : Rect) : F := PanelFloat.ofInt (max r.height 1)

def rectL (r : Rect) : F := PanelFloat.ofInt r.left

def rectT (r : Rect) : F := PanelFloat.ofInt r.top

/-- A point in the bars around the video; an empty rectangle has no bars. -/
def inBar (r : Rect) (x y : F) : Bool :=
  decide (0 < r.width ∧ 0 < r.height) &&
    (decide (x < r.rectL) || decide (r.rectL + r.rectW < x) || decide (y < r.rectT) ||
      decide (r.rectT + r.rectH < y))

end Rect

/-- `x.coerceIn(0f, 1f)` -/
def coerceUnit {F : Type} [PanelFloat F] (x : F) : F :=
  if x < PanelFloat.ofInt 0 then PanelFloat.ofInt 0
  else if PanelFloat.ofInt 1 < x then PanelFloat.ofInt 1
  else x

/-! ### What Android delivers -/

/-- The pointers that touch the panel, by device. -/
abbrev Touching := Int32 → List Int32

namespace MotionEvent

variable {F : Type} (ev : MotionEvent F)

def ids : List Int32 := ev.pointers.map Pointer.id

/-- The pointer that the action is about. -/
def actionId : Option Int32 := ev.ids[ev.actionIndex]?

/-- The pointers of the device that touch the panel behind the event. -/
def touchingAfter (t : List Int32) : List Int32 :=
  match ev.action with
  | .down | .pointerDown => t ++ ev.actionId.toList
  | .up | .pointerUp => t.filter fun id => some id ≠ ev.actionId
  | .cancel => []
  | _ => t

/-- Android may deliver the event while the pointers `t` of its device touch the panel.  A touch event lists
the pointers that touch: one that goes down from its down on, and one that goes up for the last time in its
up.  A hover event comes when none touches, and a button event lists the pointers that touch, or some that
hover when none does. -/
def LegalAction (t : List Int32) : Prop :=
  match ev.action with
  | .down => t = [] ∧ ev.pointers.length = 1 ∧ ev.actionIndex = 0
  | .pointerDown => t ≠ [] ∧ (∃ id, ev.actionId = some id) ∧ ev.ids.Perm (t ++ ev.actionId.toList)
  | .move => t ≠ [] ∧ ev.ids.Perm t
  | .pointerUp => (∃ id, ev.actionId = some id) ∧ 2 ≤ ev.pointers.length ∧ ev.ids.Perm t
  | .up => ev.pointers.length = 1 ∧ ev.actionIndex = 0 ∧ ev.ids.Perm t
  | .cancel => ev.ids.Perm t
  | .hoverEnter | .hoverMove | .hoverExit => t = []
  | .buttonPress | .buttonRelease => t = [] ∨ ev.ids.Perm t
  | .scroll => True
  -- the window does not watch touches outside of it
  | .outside => False

/-- Android may deliver the event. -/
structure Legal (t : Touching) : Prop where
  nodup : ev.ids.Nodup
  nonempty : ev.pointers ≠ []
  action : ev.LegalAction (t ev.deviceId)

end MotionEvent

/-- The pointers that touch the panel behind an event. -/
def Touching.after {F : Type} (t : Touching) (ev : MotionEvent F) : Touching :=
  Function.update t ev.deviceId (ev.touchingAfter (t ev.deviceId))

namespace MotionEvent

variable {F : Type} {ev : MotionEvent F} {t : List Int32}

/-- **What a touch event lists** touches the panel behind it, but for the pointer that goes up. -/
theorem mem_touchingAfter (hnodup : ev.ids.Nodup) (h : ev.LegalAction t) (htouch : ev.action.isTouch = true)
    (hcancel : ev.action ≠ .cancel) {i : ℕ} {id : Int32} (hi : ev.ids[i]? = some id)
    (hup : ev.action = .up ∨ ev.action = .pointerUp → i ≠ ev.actionIndex) : id ∈ ev.touchingAfter t := by
  have hmem : id ∈ ev.ids := List.mem_of_getElem? hi
  unfold LegalAction at h
  unfold touchingAfter
  have hlifted : ev.action = .up ∨ ev.action = .pointerUp → ev.ids.Perm t →
      id ∈ t.filter fun id => some id ≠ ev.actionId := by
    intro hact hperm
    refine List.mem_filter.2 ⟨hperm.mem_iff.1 hmem, decide_eq_true fun hsame => hup hact ?_⟩
    have hbound : i < ev.ids.length := (List.getElem?_eq_some_iff.1 hi).1
    exact (List.getElem?_inj hbound hnodup).1 (hi.trans hsame)
  cases hact : ev.action with
  | down =>
      rw [hact] at h
      obtain ⟨-, hlen, hindex⟩ := h
      have hzero : i = 0 := by
        have hbound : i < ev.ids.length := (List.getElem?_eq_some_iff.1 hi).1
        rw [ids, List.length_map] at hbound
        omega
      rw [actionId, hindex, ← hzero, hi]
      exact List.mem_append_right t (List.mem_singleton.2 rfl)
  | up =>
      rw [hact] at h
      exact hlifted (.inl hact) h.2.2
  | move =>
      rw [hact] at h
      exact h.2.mem_iff.1 hmem
  | cancel => exact absurd hact hcancel
  | outside =>
      rw [hact] at h
      exact h.elim
  | pointerDown =>
      rw [hact] at h
      exact h.2.2.mem_iff.1 hmem
  | pointerUp =>
      rw [hact] at h
      exact hlifted (.inr hact) h.2.2
  | _ =>
      rw [hact] at htouch
      cases htouch

end MotionEvent

end Penflow.Client
