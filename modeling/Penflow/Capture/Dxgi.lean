import Penflow.Capture.Keepalive
import Penflow.Lib.Custody

/-!
# The duplication of the desktop

Windows lends the frames of an output through a duplication: a frame has to be released before the next one is
acquired, and the shape of the pointer can be asked for while a frame is held.  `DxgiCapturer` keeps to this for
whatever its client does with the frames and whatever Windows answers (`capturer_custody`): a frame that cannot be
used, one that is lost with its duplication and one that the client forgets are released as well, and at the end
nothing is left.

The duplications are numbered in the order in which they are made.
-/

namespace Penflow

open Custody

/-! ### What Windows answers -/

/-- `DXGI_OUTDUPL_FRAME_INFO` -/
structure FrameInfo where
  last_present_time : Int64
  last_mouse_update_time : Int64
  pointer_x : Int32
  pointer_y : Int32
  pointer_visible : Bool
  pointer_shape_buffer_size : UInt32
  deriving DecidableEq, Repr

namespace FrameInfo

def isCursorOnly (info : FrameInfo) : Bool := info.last_present_time == 0

def pointerPosition (info : FrameInfo) : Option PointerPosition :=
  if info.last_mouse_update_time = 0 then none
  else some ⟨info.pointer_x, info.pointer_y, info.pointer_visible⟩

end FrameInfo

def dxgiErrorWaitTimeout : UInt32 := 0x887A0027
def waitTimeout : UInt32 := 258
def dxgiErrorAccessLost : UInt32 := 0x887A0026
def dxgiErrorAccessDenied : UInt32 := 0x887A002B
def dxgiStatusOccluded : UInt32 := 0x087A0001

/-- `AcquireNextFrame`: a frame, which may come without its resource or with one that is no texture, or an
error code. -/
inductive AcquireAnswer where
  | frame (info : FrameInfo) (resource cast : Bool)
  | error (code : UInt32)
  deriving DecidableEq, Repr

/-- Which of the calls that lead to a new duplication succeed. -/
structure ReinitAnswer where
  open_output : Bool
  output5 : Bool
  duplicate_output1 : Bool
  output1 : Bool
  duplicate_output : Bool
  deriving DecidableEq, Repr

/-- `GetFramePointerShape`; `written` is what it puts into the buffer. -/
inductive ShapeAnswer where
  | shape (written : List UInt8) (required kind width height pitch : UInt32) (hot_x hot_y : Int32)
  | error
  deriving DecidableEq, Repr

/-! ### The capturer -/

/-- `made` counts the duplications, `calls` are the calls so far, and `frame` is the `AcquiredFrame` that the
client has. -/
structure DxgiCapturer where
  duplication : ℕ
  frame_held : Bool
  display_required : Bool
  made : ℕ
  calls : List (Custody.Event ℕ)
  frame : Option FrameInfo

namespace DxgiCapturer

/-- A frame that is held is released. -/
def releaseHeld (s : DxgiCapturer) : DxgiCapturer :=
  if s.frame_held then { s with frame_held := false, calls := s.calls ++ [.returns s.duplication] } else s

/-- `create_duplication` makes one through `IDXGIOutput5`, or else through `IDXGIOutput1`. -/
def createDuplication (a : ReinitAnswer) : Bool :=
  (a.output5 && a.duplicate_output1) || (a.output1 && a.duplicate_output)

/-- The old duplication goes when the new one takes its place. -/
def reinit (s : DxgiCapturer) (a : ReinitAnswer) : Except EngineError Unit × DxgiCapturer :=
  let s := s.releaseHeld
  if a.open_output && createDuplication a then
    (.ok (), { s with
      duplication := s.made
      made := s.made + 1
      calls := s.calls ++ [.opens s.made] ++ [.closes s.duplication] })
  else (.error .win32, s)

/-- What it returns is the frame of the client, too. -/
def acquireFrame (s : DxgiCapturer) (answer : AcquireAnswer) (a : ReinitAnswer) :
    Except EngineError (Option FrameInfo) × DxgiCapturer :=
  let s := s.releaseHeld
  match answer with
  | .frame info resource cast =>
    let s := { s with frame_held := true, calls := s.calls ++ [.lends s.duplication] }
    if resource && cast then (.ok (some info), { s with frame := some info })
    else (.error .win32, s)
  | .error code =>
    if code = dxgiErrorWaitTimeout ∨ code = waitTimeout then (.ok none, s)
    else if code = dxgiErrorAccessLost ∨ code = dxgiErrorAccessDenied ∨ code = dxgiStatusOccluded then
      match s.reinit a with
      | (.ok (), s) => (.ok none, s)
      | (.error e, s) => (.error e, s)
    else (.error .win32, s)

/-- The pixels of the frame are read. -/
def copy (s : DxgiCapturer) : DxgiCapturer := { s with calls := s.calls ++ [.uses s.duplication] }

theorem length_take_le_isizeMax (bytes : List UInt8) (required : UInt32) :
    (bytes.take required.toNat).length ≤ isizeMax := by
  have hrequired : required.toNat < 4294967296 := required.toNat_lt
  simp only [List.length_take, isizeMax]
  omega

/-- What `decode_shape` gets of the buffer. -/
def shapeBytes (needed required : UInt32) (written : List UInt8) : ByteSlice where
  bytes := ((written ++ List.replicate needed.toNat 0).take needed.toNat).take required.toNat
  length_le := length_take_le_isizeMax _ required

def takeShapeUpdate [BuildProfile] (s : DxgiCapturer) (info : FrameInfo) (answer : ShapeAnswer) :
    Outcome (Option CursorShape) × DxgiCapturer :=
  let needed := info.pointer_shape_buffer_size
  if needed = 0 then (.ok none, s)
  else
    let s := { s with calls := s.calls ++ [.uses s.duplication] }
    match answer with
    | .error => (.error (.err .win32), s)
    | .shape written required kind width height pitch hot_x hot_y =>
      ((decodeShape kind width height pitch hot_x.toInt hot_y.toInt (shapeBytes needed required written)).map some,
        s)

/-- The drop of an `AcquiredFrame`. -/
def dropFrame (s : DxgiCapturer) : DxgiCapturer := { s.releaseHeld with frame := none }

/-- `DxgiCapturer::new`, where the output and the device are on one adapter. -/
def new (adapter_luid device_luid : Int64) (a : ReinitAnswer) (state_set : Bool) : Option DxgiCapturer :=
  if device_luid ≠ adapter_luid then none
  else if a.open_output && createDuplication a then
    some {
      duplication := 0
      frame_held := false
      display_required := state_set
      made := 1
      calls := [.opens 0]
      frame := none }
  else none

/-- The calls behind the drop of the capturer, with which its duplication goes. -/
def dropCalls (s : DxgiCapturer) : List (Custody.Event ℕ) := s.releaseHeld.calls ++ [.closes s.duplication]

/-! ### Its clients -/

/-- What a client can do.  A frame borrows the capturer, so that the capturer is not to be had before the frame
is dropped, or forgotten. -/
inductive Use where
  | acquireFrame (answer : AcquireAnswer) (a : ReinitAnswer)
  | reinit (a : ReinitAnswer)
  | copy
  | takeShapeUpdate (answer : ShapeAnswer)
  | dropFrame
  | forgetFrame
  deriving DecidableEq, Repr

/-- A step of the client; what the borrow does not allow is no step. -/
def step [BuildProfile] (s : DxgiCapturer) (u : Use) : DxgiCapturer :=
  match s.frame, u with
  | none, .acquireFrame answer a => (s.acquireFrame answer a).2
  | none, .reinit a => (s.reinit a).2
  | some _, .copy => s.copy
  | some info, .takeShapeUpdate answer => (s.takeShapeUpdate info answer).2
  | some _, .dropFrame => s.dropFrame
  | some _, .forgetFrame => { s with frame := none }
  | _, _ => s

/-! ### Custody -/

/-- What the capturer has of Windows. -/
def custody (s : DxgiCapturer) : State ℕ := ⟨[s.duplication], if s.frame_held then some s.duplication else none⟩

/-- The calls so far are allowed, and lead to what the capturer has; a frame of the client is held. -/
structure Wf (s : DxgiCapturer) : Prop where
  lawful : Lawful State.empty s.calls s.custody
  fresh : s.duplication < s.made
  held : s.frame.isSome = true → s.frame_held = true

variable {s : DxgiCapturer}

theorem releaseHeld_frame_held (s : DxgiCapturer) : s.releaseHeld.frame_held = false := by
  rw [releaseHeld]
  split
  case isTrue => rfl
  case isFalse hheld => exact Bool.eq_false_iff.2 hheld

theorem releaseHeld_duplication (s : DxgiCapturer) :
    s.releaseHeld.duplication = s.duplication ∧ s.releaseHeld.made = s.made ∧ s.releaseHeld.frame = s.frame := by
  rw [releaseHeld]
  split <;> exact ⟨rfl, rfl, rfl⟩

/-- Behind it the duplication is open, and no frame is held. -/
theorem Wf.releaseHeld (h : s.Wf) : Lawful State.empty s.releaseHeld.calls ⟨[s.duplication], none⟩ := by
  have hlawful := h.lawful
  rw [DxgiCapturer.releaseHeld, custody] at *
  cases hheld : s.frame_held with
  | true =>
      rw [hheld] at hlawful
      exact hlawful.returns rfl
  | false =>
      rw [hheld] at hlawful
      exact hlawful

/-- Between two frames, a capturer that has released what it held is well-formed again. -/
theorem Wf.between (h : s.Wf) (hframe : s.frame = none) : s.releaseHeld.Wf where
  lawful := by
    rw [custody, releaseHeld_frame_held, (releaseHeld_duplication s).1]
    exact h.releaseHeld
  fresh := by
    rw [(releaseHeld_duplication s).1, (releaseHeld_duplication s).2.1]
    exact h.fresh
  held := by
    rw [(releaseHeld_duplication s).2.2, hframe]
    exact nofun

theorem reinit_wf (h : s.Wf) (hframe : s.frame = none) (a : ReinitAnswer) : (s.reinit a).2.Wf := by
  have hbetween := h.between hframe
  rw [reinit]
  split
  case isTrue =>
    have hother : s.releaseHeld.made ≠ s.releaseHeld.duplication := hbetween.fresh.ne'
    have hlawful := hbetween.lawful
    rw [custody, releaseHeld_frame_held] at hlawful
    have hopened := hlawful.opens (r := s.releaseHeld.made) (by simpa using hother)
    have hclosed := hopened.closes (r := s.releaseHeld.duplication) (by simp) nofun
    refine ⟨?_, Nat.lt_succ_self _, ?_⟩
    · rw [custody]
      simp only [releaseHeld_frame_held]
      rw [List.erase_cons_tail (by simpa using hother), List.erase_cons_head] at hclosed
      exact hclosed
    · intro hsome
      rw [show (_ : Option FrameInfo) = s.frame from (releaseHeld_duplication s).2.2, hframe] at hsome
      cases hsome
  case isFalse => exact hbetween

theorem acquireFrame_wf (h : s.Wf) (hframe : s.frame = none) (answer : AcquireAnswer) (a : ReinitAnswer) :
    (s.acquireFrame answer a).2.Wf := by
  have hbetween := h.between hframe
  unfold acquireFrame
  cases answer with
  | frame info resource cast =>
      have hlawful := hbetween.lawful
      rw [custody, releaseHeld_frame_held] at hlawful
      have hlent := hlawful.lends List.mem_cons_self rfl
      dsimp only
      split
      · exact ⟨hlent, hbetween.fresh, fun _ => rfl⟩
      · exact ⟨hlent, hbetween.fresh, fun _ => rfl⟩
  | error code =>
      dsimp only
      split
      · exact hbetween
      · split
        · have hreinit := reinit_wf hbetween ((releaseHeld_duplication s).2.2.trans hframe) a
          split
          case h_1 s' heq =>
            rw [heq] at hreinit
            exact hreinit
          case h_2 e s' heq =>
            rw [heq] at hreinit
            exact hreinit
        · exact hbetween

/-- What needs a frame is done while one is held. -/
theorem copy_wf (h : s.Wf) (hheld : s.frame_held = true) : s.copy.Wf where
  lawful := by
    refine h.lawful.uses ?_
    rw [custody, if_pos hheld]
  fresh := h.fresh
  held := h.held

/-- For the capturer, the shape of the pointer is a use of the frame. -/
theorem takeShapeUpdate_state [BuildProfile] (s : DxgiCapturer) (info : FrameInfo) (answer : ShapeAnswer) :
    (s.takeShapeUpdate info answer).2 = s ∨ (s.takeShapeUpdate info answer).2 = s.copy := by
  rw [takeShapeUpdate]
  split
  · exact .inl rfl
  · cases answer <;> exact .inr rfl

theorem dropFrame_wf (h : s.Wf) : s.dropFrame.Wf where
  lawful := by
    have hlawful := h.releaseHeld
    rw [custody, dropFrame]
    simp only [releaseHeld_frame_held, (releaseHeld_duplication s).1]
    exact hlawful
  fresh := by
    rw [dropFrame]
    simp only [(releaseHeld_duplication s).1, (releaseHeld_duplication s).2.1]
    exact h.fresh
  held := nofun

theorem step_wf [BuildProfile] (s : DxgiCapturer) (u : Use) (h : s.Wf) : (s.step u).Wf := by
  cases hframe : s.frame with
  | none =>
      cases u with
      | acquireFrame answer a =>
          simp only [step, hframe]
          exact acquireFrame_wf h hframe answer a
      | reinit a =>
          simp only [step, hframe]
          exact reinit_wf h hframe a
      | _ =>
          simp only [step, hframe]
          exact h
  | some info =>
      have hheld : s.frame_held = true := h.held (by rw [hframe]; rfl)
      cases u with
      | copy =>
          simp only [step, hframe]
          exact copy_wf h hheld
      | takeShapeUpdate answer =>
          simp only [step, hframe]
          rcases takeShapeUpdate_state s info answer with heq | heq
          · rw [heq]
            exact h
          · rw [heq]
            exact copy_wf h hheld
      | dropFrame =>
          simp only [step, hframe]
          exact dropFrame_wf h
      | forgetFrame =>
          simp only [step, hframe]
          exact ⟨h.lawful, h.fresh, nofun⟩
      | _ =>
          simp only [step, hframe]
          exact h

theorem new_wf {adapter_luid device_luid : Int64} {a : ReinitAnswer} {state_set : Bool}
    (h : new adapter_luid device_luid a state_set = some s) : s.Wf := by
  rw [new] at h
  split at h
  · cases h
  · split at h
    · obtain rfl := Option.some.inj h
      exact ⟨(Lawful.nil State.empty).opens List.not_mem_nil, Nat.one_pos, nofun⟩
    · cases h

/-- The drop gives back all there is. -/
theorem Wf.dropCalls (h : s.Wf) : Lawful State.empty s.dropCalls State.empty := by
  have hclosed := h.releaseHeld.closes (r := s.duplication) List.mem_cons_self nofun
  rw [List.erase_cons_head] at hclosed
  exact hclosed

/-! ### The display that is kept on -/

/-- Which threads ask for the display, as `SetThreadExecutionState` sets it for the thread that calls it. -/
abbrev ExecutionState := ℕ → Bool

/-- `new` asks for the display on the thread that makes the capturer. -/
def afterNew (s : DxgiCapturer) (thread : ℕ) (x : ExecutionState) : ExecutionState :=
  if s.display_required then Function.update x thread true else x

/-- The drop takes it back on the thread that drops it. -/
def afterDrop (s : DxgiCapturer) (thread : ℕ) (x : ExecutionState) : ExecutionState :=
  if s.display_required then Function.update x thread false else x

theorem releaseHeld_display (s : DxgiCapturer) : s.releaseHeld.display_required = s.display_required := by
  rw [releaseHeld]
  split <;> rfl

theorem reinit_display (s : DxgiCapturer) (a : ReinitAnswer) :
    (s.reinit a).2.display_required = s.display_required := by
  rw [reinit]
  split <;> exact releaseHeld_display s

theorem acquireFrame_display (s : DxgiCapturer) (answer : AcquireAnswer) (a : ReinitAnswer) :
    (s.acquireFrame answer a).2.display_required = s.display_required := by
  have hreleased := releaseHeld_display s
  unfold acquireFrame
  cases answer with
  | frame info resource cast =>
      dsimp only
      split <;> exact hreleased
  | error code =>
      have hreinit := (reinit_display s.releaseHeld a).trans hreleased
      dsimp only
      split
      · exact hreleased
      · split
        · split
          case h_1 s' heq =>
            rw [heq] at hreinit
            exact hreinit
          case h_2 e s' heq =>
            rw [heq] at hreinit
            exact hreinit
        · exact hreleased

theorem step_display [BuildProfile] (s : DxgiCapturer) (u : Use) :
    (s.step u).display_required = s.display_required := by
  cases hframe : s.frame with
  | none =>
      cases u with
      | acquireFrame answer a =>
          simp only [step, hframe]
          exact acquireFrame_display s answer a
      | reinit a =>
          simp only [step, hframe]
          exact reinit_display s a
      | _ => simp only [step, hframe]
  | some info =>
      cases u with
      | takeShapeUpdate answer =>
          simp only [step, hframe]
          rcases takeShapeUpdate_state s info answer with heq | heq
          · rw [heq]
          · rw [heq]
            rfl
      | copy =>
          simp only [step, hframe]
          rfl
      | dropFrame =>
          simp only [step, hframe]
          exact releaseHeld_display s
      | _ => simp only [step, hframe]

/-! ### Whole lives -/

/-- **Nothing stays with the capturer.**  Whatever its client does, whatever Windows answers, and whenever it is
dropped: no frame is acquired while one is held, none is used but the one that is held, each is released once, on
the duplication that lent it, and each duplication is let go once.  The display is asked for by the thread that
made the capturer and given up by the one that drops it, so that where these differ the first asks for it still. -/
theorem capturer_custody [BuildProfile] {adapter_luid device_luid : Int64} {a : ReinitAnswer} {state_set : Bool}
    (hnew : new adapter_luid device_luid a state_set = some s) (us : List Use) :
    Lawful State.empty (us.foldl step s).dropCalls State.empty ∧
      loans (us.foldl step s).dropCalls = returned (us.foldl step s).dropCalls ∧
      (openings (us.foldl step s).dropCalls).Perm (closings (us.foldl step s).dropCalls) ∧
      ∀ x thread dropping, (us.foldl step s).afterDrop dropping (s.afterNew thread x) thread =
        if state_set then decide (thread ≠ dropping) else x thread := by
  have hlawful := (Run.invariant step_wf us (new_wf hnew)).dropCalls
  have hloans := hlawful.loans_eq
  have hperm := hlawful.opens_perm
  rw [State.empty, Option.toList_none, List.nil_append, List.append_nil] at hloans
  rw [State.empty, List.append_nil, List.append_nil] at hperm
  refine ⟨hlawful, hloans, hperm, fun x thread dropping => ?_⟩
  have hset : s.display_required = state_set := by
    rw [new] at hnew
    split at hnew
    · cases hnew
    · split at hnew
      · obtain rfl := Option.some.inj hnew
        rfl
      · cases hnew
  have hkept : (us.foldl step s).display_required = state_set :=
    Run.invariant (I := fun s' => s'.display_required = state_set)
      (fun s' u h => (step_display s' u).trans h) us hset
  rw [afterDrop, afterNew, hset, hkept]
  cases state_set with
  | false => rfl
  | true =>
      simp only [if_true]
      by_cases hsame : thread = dropping
      · rw [hsame, Function.update_self]
        simp
      · rw [Function.update_of_ne hsame, Function.update_self]
        simp [hsame]

/-- A frame without a texture, one that is forgotten, and one that is lost. -/
theorem capturer_custody_lost :
    letI : BuildProfile := ⟨true⟩
    ∃ s, new 7 7 ⟨true, true, true, false, false⟩ true = some s ∧ Lawful State.empty
      (([.acquireFrame (.frame ⟨1, 0, 0, 0, false, 0⟩ true false) ⟨true, true, true, true, true⟩,
        .acquireFrame (.frame ⟨1, 0, 0, 0, false, 0⟩ true true) ⟨true, true, true, true, true⟩, .forgetFrame,
        .acquireFrame (.error dxgiErrorAccessLost) ⟨true, true, true, true, true⟩] : List Use).foldl step
          s).dropCalls State.empty := by
  let _ : BuildProfile := ⟨true⟩
  have hnew : new 7 7 ⟨true, true, true, false, false⟩ true = some ⟨0, false, true, 1, [.opens 0], none⟩ := rfl
  exact ⟨_, hnew, (capturer_custody hnew _).1⟩

/-! ### The ticks of the pipeline -/

structure TickAnswer where
  acquire : AcquireAnswer
  reinit : ReinitAnswer
  shape : ShapeAnswer
  deriving DecidableEq, Repr

/-- The part of a tick that has to do with the capturer: what it reports of the frame, which is dropped. -/
def tick [BuildProfile] (cursor_blitter : Bool) (s : DxgiCapturer) (a : TickAnswer) :
    Except EngineError (Option (Outcome (Option CursorShape) × Option PointerPosition)) × DxgiCapturer :=
  match s.acquireFrame a.acquire a.reinit with
  | (.error e, s) => (.error e, s)
  | (.ok none, s) => (.ok none, s)
  | (.ok (some info), s) =>
    let s := s.copy
    let (shape, s) := if cursor_blitter then s.takeShapeUpdate info a.shape else (.ok none, s)
    (.ok (some (shape, info.pointerPosition)), s.dropFrame)

/-- Ticks up to the first that fails. -/
def ticks [BuildProfile] (cursor_blitter : Bool) (s : DxgiCapturer) :
    List TickAnswer → Except EngineError Unit × DxgiCapturer
  | [] => (.ok (), s)
  | a :: as =>
    match s.tick cursor_blitter a with
    | (.error e, s) => (.error e, s)
    | (.ok _, s) => s.ticks cursor_blitter as

/-- No frame is held, or with the client. -/
def Idle (s : DxgiCapturer) : Prop := s.frame_held = false ∧ s.frame = none

/-- A frame that is returned is the client's; without one the capturer stays idle. -/
theorem acquireFrame_result (hframe : s.frame = none) (answer : AcquireAnswer) (a : ReinitAnswer) :
    ((s.acquireFrame answer a).1 = .ok none → (s.acquireFrame answer a).2.Idle) ∧
      ∀ info, (s.acquireFrame answer a).1 = .ok (some info) → (s.acquireFrame answer a).2.frame = some info := by
  have hidle : s.releaseHeld.Idle := ⟨releaseHeld_frame_held s, (releaseHeld_duplication s).2.2.trans hframe⟩
  unfold acquireFrame
  cases answer with
  | frame info resource cast =>
      dsimp only
      split
      · refine ⟨nofun, fun info' h => ?_⟩
        obtain rfl := Option.some.inj (Except.ok.inj h)
        rfl
      · exact ⟨nofun, fun _ => nofun⟩
  | error code =>
      dsimp only
      split
      · exact ⟨fun _ => hidle, fun _ => nofun⟩
      · split
        · rw [reinit]
          split
          case h_1 s' heq =>
            refine ⟨fun _ => ?_, fun _ => nofun⟩
            split at heq
            · obtain ⟨-, rfl⟩ := Prod.mk.inj heq
              exact ⟨releaseHeld_frame_held _, (releaseHeld_duplication _).2.2.trans hidle.2⟩
            · cases heq
          case h_2 => exact ⟨nofun, fun _ => nofun⟩
        · exact ⟨nofun, fun _ => nofun⟩

variable [BuildProfile]

/-- A tick is what a client does that drops its frames; it leaves no frame, unless it fails. -/
theorem tick_uses (cursor_blitter : Bool) (hframe : s.frame = none) (a : TickAnswer) :
    (∃ us : List Use, (s.tick cursor_blitter a).2 = us.foldl step s) ∧
      ∀ r, (s.tick cursor_blitter a).1 = .ok r → (s.tick cursor_blitter a).2.Idle := by
  have hacquire : s.step (.acquireFrame a.acquire a.reinit) = (s.acquireFrame a.acquire a.reinit).2 := by
    simp only [step, hframe]
  obtain ⟨hnone, hsome⟩ := acquireFrame_result hframe a.acquire a.reinit
  rw [tick]
  rcases hresult : s.acquireFrame a.acquire a.reinit with ⟨e | _ | info, s₁⟩
  · rw [hresult] at hacquire
    exact ⟨⟨[.acquireFrame a.acquire a.reinit], hacquire.symm⟩, fun _ => nofun⟩
  · rw [hresult] at hacquire hnone
    exact ⟨⟨[.acquireFrame a.acquire a.reinit], hacquire.symm⟩, fun _ _ => hnone rfl⟩
  · rw [hresult] at hacquire hsome
    have hinfo : s₁.frame = some info := hsome info rfl
    have hcopy : s₁.step .copy = s₁.copy := by simp only [step, hinfo]
    have hcopied : s₁.copy.frame = some info := hinfo
    cases cursor_blitter with
    | false =>
        have hdrop : s₁.copy.step .dropFrame = s₁.copy.dropFrame := by simp only [step, hcopied]
        refine ⟨⟨[.acquireFrame a.acquire a.reinit, .copy, .dropFrame], ?_⟩, fun _ _ => ?_⟩
        · simp only [List.foldl_cons, List.foldl_nil, hacquire, hcopy, hdrop]
          rfl
        · exact ⟨releaseHeld_frame_held _, rfl⟩
    | true =>
        have hshape : s₁.copy.step (.takeShapeUpdate a.shape) = (s₁.copy.takeShapeUpdate info a.shape).2 := by
          simp only [step, hcopied]
        have hshaped : (s₁.copy.takeShapeUpdate info a.shape).2.frame = some info := by
          rcases takeShapeUpdate_state s₁.copy info a.shape with heq | heq
          · rw [heq]
            exact hcopied
          · rw [heq]
            exact hcopied
        have hdrop : (s₁.copy.takeShapeUpdate info a.shape).2.step .dropFrame =
            (s₁.copy.takeShapeUpdate info a.shape).2.dropFrame := by simp only [step, hshaped]
        refine ⟨⟨[.acquireFrame a.acquire a.reinit, .copy, .takeShapeUpdate a.shape, .dropFrame], ?_⟩,
          fun _ _ => ?_⟩
        · simp only [List.foldl_cons, List.foldl_nil, hacquire, hcopy, hshape, hdrop]
          rfl
        · exact ⟨releaseHeld_frame_held _, rfl⟩

theorem ticks_uses (cursor_blitter : Bool) (hidle : s.Idle) (as : List TickAnswer) :
    (∃ us : List Use, (s.ticks cursor_blitter as).2 = us.foldl step s) ∧
      ((s.ticks cursor_blitter as).1 = .ok () → (s.ticks cursor_blitter as).2.Idle) := by
  induction as generalizing s with
  | nil => exact ⟨⟨[], rfl⟩, fun _ => hidle⟩
  | cons a as ih =>
      obtain ⟨⟨us, huses⟩, hleaves⟩ := tick_uses cursor_blitter hidle.2 a
      rw [ticks]
      rcases htick : s.tick cursor_blitter a with ⟨e | r, s₁⟩
      · rw [htick] at huses
        exact ⟨⟨us, huses⟩, nofun⟩
      · rw [htick] at huses hleaves
        obtain ⟨⟨us', huses'⟩, hleaves'⟩ := ih (hleaves r rfl)
        refine ⟨⟨us ++ us', ?_⟩, hleaves'⟩
        rw [List.foldl_append, ← huses]
        exact huses'

/-- **The pipeline and its capturer.**  Where a tick begins no frame is held, so that the releases which guard
against one never fire; and once the thread of the pipeline has ended, nothing is left. -/
theorem ticks_custody {adapter_luid device_luid : Int64} {a : ReinitAnswer} {state_set : Bool}
    (hnew : new adapter_luid device_luid a state_set = some s) (cursor_blitter : Bool) (as : List TickAnswer) :
    ((s.ticks cursor_blitter as).1 = .ok () → (s.ticks cursor_blitter as).2.frame_held = false) ∧
      Lawful State.empty (s.ticks cursor_blitter as).2.dropCalls State.empty := by
  have hidle : s.Idle := by
    rw [new] at hnew
    split at hnew
    · cases hnew
    · split at hnew
      · obtain rfl := Option.some.inj hnew
        exact ⟨rfl, rfl⟩
      · cases hnew
  obtain ⟨⟨us, huses⟩, hleaves⟩ := ticks_uses cursor_blitter hidle as
  refine ⟨fun hok => (hleaves hok).1, ?_⟩
  rw [huses]
  exact (Run.invariant step_wf us (new_wf hnew)).dropCalls

end DxgiCapturer

end Penflow
