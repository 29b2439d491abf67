import Penflow.Inject.Coords
import Penflow.Protocol.Messages

/-!
# The read loop of a session

`read_loop` takes the client's messages one after the other and calls the injector.  It ends at a
goodbye, at a closed or failed read, at a payload it cannot decode, or when the reply to a time sync
cannot be written; an injection that fails it only logs.
-/

namespace Penflow

/-- What `read_loop` is started with, and the screen size it reads at its start. -/
structure ReadConfig where
  coords : AffineTransform Float32
  vscreen_w : ℕ
  vscreen_h : ℕ
  disable_touch : Bool

/-- One turn at the stream: a message, with whether a reply to it can be written, or the end. -/
inductive ReadResult where
  | frame (msg_id : UInt8) (payload : List UInt8) (reply_ok : Bool)
  /-- `UnexpectedEof` or `ConnectionReset` -/
  | closed
  | failed (e : ProtocolError)

namespace ReadConfig

/-- The sample of a pen message. -/
def penSample (c : ReadConfig) (pe : PenEvent) : PenSample :=
  let (x, y) := c.coords.mapToPixel pe.x_norm pe.y_norm
  let (vx_log, vy_log) := c.coords.mapToVMulti pe.x_norm pe.y_norm c.vscreen_w c.vscreen_h
  { x := x
    y := y
    x_logical := vx_log
    y_logical := vy_log
    pressure := pe.pressure
    tilt_x_deg := pe.tilt_x.toInt32.toInt
    tilt_y_deg := pe.tilt_y.toInt32.toInt
    in_range := pe.phase != 4
    in_contact := pe.phase == 1 || pe.phase == 2
    eraser := pe.tool == 1
    buttons := pe.buttons }

/-- The snapshot of a touch message. -/
def touchSnapshot (c : ReadConfig) (te : TouchEvent) : List TouchPoint :=
  if c.disable_touch then []
  else te.contacts.map fun contact =>
    let (x, y) := c.coords.mapToPixel contact.x_norm contact.y_norm
    { id := contact.pointer_id.toUInt32, x := x, y := y }

/-- What one message does: the call it makes on the injector, and what the loop returns when it ends
there. -/
def handleMessage (c : ReadConfig) (msg_id : UInt8) (payload : List UInt8) (reply_ok : Bool) :
    Option Call × Option (Except ProtocolError Unit) :=
  if msg_id = msgPenEvent then
    match PenEvent.decode payload with
    | .error e => (none, some (.error e))
    | .ok pe => (some (.injectPen (c.penSample pe)), none)
  else if msg_id = msgTouchEvent then
    match TouchEvent.decode payload with
    | .error e => (none, some (.error e))
    | .ok te => (some (.injectTouch (c.touchSnapshot te)), none)
  else if msg_id = msgTimeSyncReq then
    match TimeSyncReq.decode payload with
    | .error e => (none, some (.error e))
    | .ok _ => (none, if reply_ok then none else some (.ok ()))
  else if msg_id = msgAndroidGoodbye then (none, some (.ok ()))
  else (none, none)

/-- `read_loop`: the calls it makes on the injector, and what it returns.  It returns nothing where it
still waits for the next message. -/
def readLoop (c : ReadConfig) : List ReadResult → List Call × Option (Except ProtocolError Unit)
  | [] => ([], none)
  | .closed :: _ => ([], some (.ok ()))
  | .failed e :: _ => ([], some (.error e))
  | .frame msg_id payload reply_ok :: rest =>
    match c.handleMessage msg_id payload reply_ok with
    | (call, some result) => (call.toList, some result)
    | (call, none) =>
      let (calls, result) := c.readLoop rest
      (call.toList ++ calls, result)

/-! ### The calls -/

theorem handleMessage_call {c : ReadConfig} {msg_id : UInt8} {payload : List UInt8} {reply_ok : Bool}
    {call : Call} (h : (c.handleMessage msg_id payload reply_ok).1 = some call) :
    (∃ pe, call = .injectPen (c.penSample pe)) ∨ ∃ snapshot, call = .injectTouch snapshot := by
  rw [handleMessage] at h
  split at h
  · split at h
    · cases h
    · cases h
      exact .inl ⟨_, rfl⟩
  · split at h
    · split at h
      · cases h
      · cases h
        exact .inr ⟨_, rfl⟩
    · split at h
      · split at h <;> cases h
      · split at h <;> cases h

/-- The loop only injects. -/
theorem readLoop_calls (c : ReadConfig) (reads : List ReadResult) :
    ∀ call ∈ (c.readLoop reads).1,
      (∃ pe, call = .injectPen (c.penSample pe)) ∨ ∃ snapshot, call = .injectTouch snapshot := by
  induction reads with
  | nil =>
      intro call h
      cases h
  | cons r rest ih =>
      cases r with
      | closed =>
          intro call h
          cases h
      | failed e =>
          intro call h
          cases h
      | frame msg_id payload reply_ok =>
          have hcall : ∀ call ∈ (c.handleMessage msg_id payload reply_ok).1.toList, _ :=
            fun call h => handleMessage_call (Option.mem_toList.1 h)
          intro call h
          rw [readLoop] at h
          cases hmsg : c.handleMessage msg_id payload reply_ok with
          | mk made result =>
              rw [hmsg] at h hcall
              cases result with
              | some result => exact hcall call h
              | none =>
                  rcases List.mem_append.1 h with hmade | hlater
                  · exact hcall call hmade
                  · exact ih call hlater

end ReadConfig

end Penflow
