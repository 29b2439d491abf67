import Penflow.Client.PenInput
import Penflow.Client.RoundTrip
import Penflow.Client.TouchInput

/-!
# The senders of the client

`sendMsg` is three writes.  The three send loops call it under `sendMutex`; `handshakeAndPump` sends its hello
without it, before the loops are launched, and `disconnect` sends its goodbye without it, whenever it is
called.  But for the goodbye, no two callers are in `sendMsg` at a time (`Orderly.alone`).
-/

namespace Penflow.Client

open TouchInputCapture (TouchSnapshot)

/-! ### What is sent -/

structure DeviceCaps where
  displayWidth : Int32
  displayHeight : Int32
  penMaxPressure : Int32
  penTiltMinDeg : Int32
  penTiltMaxDeg : Int32
  penButtonsCount : Int32
  codecCaps : Int32
  deriving DecidableEq, Repr

/-- `HELLO_ANDROID` -/
def DeviceCaps.frame (caps : DeviceCaps) : Frame where
  msg_id := msgHelloAndroid
  payload := encodeHelloAndroid 0 caps.displayWidth caps.displayHeight caps.penMaxPressure
    caps.penTiltMinDeg caps.penTiltMaxDeg caps.penButtonsCount caps.codecCaps

/-- `PEN_EVENT` -/
def PenSample.frame (s : PenSample Float32) : Frame where
  msg_id := msgPenEvent
  payload := encodePenEvent s.tsNs s.phase s.xNorm.toBits s.yNorm.toBits s.pressure.toBits s.tiltX.toBits
    s.tiltY.toBits s.buttons s.tool

/-- The contact as `putFloat` writes it. -/
def bits (c : TouchInputCapture.TouchContact Float32) : TouchContact where
  pointerId := c.pointerId
  xNorm := c.xNorm.toBits
  yNorm := c.yNorm.toBits
  pressure := c.pressure.toBits

/-- `TOUCH_EVENT` -/
def touchFrame (snap : TouchSnapshot Float32) : Frame where
  msg_id := msgTouchEvent
  payload := encodeTouchEvent snap.tsNs (snap.contacts.map bits)

/-- `TIME_SYNC_REQ` -/
def timeSyncFrame (t1 : Int64) : Frame := ⟨msgTimeSyncReq, encodeTimeSyncReq t1⟩

/-- `ANDROID_GOODBYE` -/
def goodbyeFrame : Frame := ⟨msgAndroidGoodbye, []⟩

/-! ### The callers of `sendMsg` -/

inductive Caller where
  | handshake
  | timeSync
  | pen
  | touch
  | disconnect
  deriving DecidableEq, Repr

/-- It calls in `sendMutex.withLock`. -/
def Caller.locks : Caller → Bool
  | timeSync | pen | touch => true
  | handshake | disconnect => false

/-- Only the handshake and the goodbye do without the mutex. -/
theorem Caller.eq_handshake {w : Caller} (hfree : w.locks = false) (hne : w ≠ .disconnect) :
    w = .handshake := by
  cases w with
  | handshake => rfl
  | disconnect => exact absurd rfl hne
  | timeSync => cases hfree
  | pen => cases hfree
  | touch => cases hfree

inductive Send where
  | idle
  /-- at `sendMutex.lock()` -/
  | waiting (f : Frame)
  /-- in `sendMsg`, behind `k` of its writes -/
  | writing (f : Frame) (k : ℕ)
  deriving DecidableEq, Repr

/-- The bytes that the first `k` writes put. -/
def written (f : Frame) (k : ℕ) : ℕ := ((sendMsg f.msg_id f.payload).take k).flatten.length

namespace Send

/-- What the next write puts. -/
def next : Send → List UInt8
  | writing f k => ((sendMsg f.msg_id f.payload)[k]?).getD []
  | _ => []

/-- A frame that is out in part, with how much of it is. -/
def part : Send → Option (Frame × ℕ)
  | writing f k => if 0 < written f k ∧ written f k < f.encode.length then some (f, written f k) else none
  | _ => none

end Send

/-- A session of the client with its socket. -/
structure PenflowClient where
  caps : DeviceCaps
  calls : Caller → Send
  /-- the owner of `sendMutex` -/
  sendMutex : Option Caller
  penChannel : List (PenSample Float32)
  touchChannel : List (TouchSnapshot Float32)
  /-- the send loops are launched -/
  launched : Bool
  /-- their jobs are cancelled -/
  cancelled : Bool
  /-- `output` is set -/
  output : Bool
  socketOpen : Bool
  /-- the bytes put on the socket -/
  wire : List UInt8
  /-- what `penChannel`, `touchChannel` and the time-sync loop were given, and how often the goodbye was sent -/
  pens : List (PenSample Float32)
  touches : List (TouchSnapshot Float32)
  syncs : List Int64
  goodbyes : ℕ

inductive SendEvent where
  | sendPenEvent (s : PenSample Float32)
  | sendTouchSnapshot (snap : TouchSnapshot Float32)
  /-- the handshake is over: the loops start -/
  | launch
  /-- a turn of the loop `w` reaches `sendMutex` -/
  | sendOneSync (t1 : Int64)
  | nextPen
  | nextTouch
  | lock (w : Caller)
  /-- the cancelled loop `w` gives up at `sendMutex` -/
  | lockCancelled (w : Caller)
  | write (w : Caller)
  /-- the connection breaks `n` bytes into the write -/
  | writeFails (w : Caller) (n : ℕ)
  /-- `sendMsg` returns -/
  | sent (w : Caller)
  | disconnect
  /-- the two halves of `cleanupSessionState`: behind the goodbye, or when the session has ended -/
  | cancel
  | close

namespace PenflowClient

/-- `output` has just been set. -/
def start (caps : DeviceCaps) : PenflowClient where
  caps := caps
  calls := Function.update (fun _ => .idle) .handshake (.writing caps.frame 0)
  sendMutex := none
  penChannel := []
  touchChannel := []
  launched := false
  cancelled := false
  output := true
  socketOpen := true
  wire := []
  pens := []
  touches := []
  syncs := []
  goodbyes := 0

def setCall (s : PenflowClient) (w : Caller) (x : Send) : PenflowClient :=
  { s with calls := Function.update s.calls w x }

/-- `sendMsg` returns or throws, and `withLock` unlocks. -/
def leave (s : PenflowClient) (w : Caller) : PenflowClient :=
  { s.setCall w .idle with sendMutex := if w.locks then none else s.sendMutex }

def launch (s : PenflowClient) : PenflowClient :=
  match s.calls .handshake with
  | .writing _ 3 => { s.setCall .handshake .idle with launched := true }
  | _ => s

def sendOneSync (s : PenflowClient) (t1 : Int64) : PenflowClient :=
  if s.launched && s.calls .timeSync == .idle then
    { s.setCall .timeSync (.waiting (timeSyncFrame t1)) with syncs := s.syncs ++ [t1] }
  else s

/-- A turn of `penSendLoop`. -/
def nextPen (s : PenflowClient) : PenflowClient :=
  if s.launched && s.calls .pen == .idle then
    match s.penChannel with
    | [] => s
    | x :: xs => { s.setCall .pen (.waiting x.frame) with penChannel := xs }
  else s

/-- A turn of `touchSendLoop`. -/
def nextTouch (s : PenflowClient) : PenflowClient :=
  if s.launched && s.calls .touch == .idle then
    match s.touchChannel with
    | [] => s
    | x :: xs => { s.setCall .touch (.waiting (touchFrame x)) with touchChannel := xs }
  else s

def lock (s : PenflowClient) (w : Caller) : PenflowClient :=
  match s.calls w with
  | .waiting f => if s.sendMutex = none then { s.setCall w (.writing f 0) with sendMutex := some w } else s
  | _ => s

/-- The frame is lost. -/
def lockCancelled (s : PenflowClient) (w : Caller) : PenflowClient :=
  match s.calls w with
  | .waiting _ => if s.cancelled then s.setCall w .idle else s
  | _ => s

/-- A write to the socket, which throws if it is closed. -/
def write (s : PenflowClient) (w : Caller) : PenflowClient :=
  match s.calls w with
  | .writing f k =>
    if k < 3 then
      if s.socketOpen then { s.setCall w (.writing f (k + 1)) with wire := s.wire ++ (s.calls w).next }
      else s.leave w
    else s
  | _ => s

def writeFails (s : PenflowClient) (w : Caller) (n : ℕ) : PenflowClient :=
  match s.calls w with
  | .writing _ k =>
    if k < 3 ∧ s.socketOpen then
      { s.leave w with wire := s.wire ++ (s.calls w).next.take n, socketOpen := false }
    else s
  | _ => s

/-- The handshake goes on to `launch`. -/
def sent (s : PenflowClient) (w : Caller) : PenflowClient :=
  match s.calls w with
  | .writing _ 3 => if w = .handshake then s else s.leave w
  | _ => s

def disconnect (s : PenflowClient) : PenflowClient :=
  if s.output && s.calls .disconnect == .idle then
    { s.setCall .disconnect (.writing goodbyeFrame 0) with goodbyes := s.goodbyes + 1 }
  else s

def close (s : PenflowClient) : PenflowClient :=
  if s.cancelled then { s with socketOpen := false, output := false } else s

def step (s : PenflowClient) : SendEvent → PenflowClient
  | .sendPenEvent x => { s with penChannel := s.penChannel ++ [x], pens := s.pens ++ [x] }
  | .sendTouchSnapshot x => { s with touchChannel := s.touchChannel ++ [x], touches := s.touches ++ [x] }
  | .launch => s.launch
  | .sendOneSync t1 => s.sendOneSync t1
  | .nextPen => s.nextPen
  | .nextTouch => s.nextTouch
  | .lock w => s.lock w
  | .lockCancelled w => s.lockCancelled w
  | .write w => s.write w
  | .writeFails w n => s.writeFails w n
  | .sent w => s.sent w
  | .disconnect => s.disconnect
  | .cancel => { s with cancelled := true }
  | .close => s.close

end PenflowClient

/-! ### The three writes -/

theorem written_zero (f : Frame) : written f 0 = 0 := rfl

theorem written_all {f : Frame} {k : ℕ} (h : 3 ≤ k) : written f k = f.encode.length := by
  have hall : (sendMsg f.msg_id f.payload).take k = sendMsg f.msg_id f.payload :=
    List.take_of_length_le h
  rw [written, hall, sendMsg_flatten]
  rfl

theorem written_succ {f : Frame} {k : ℕ} (h : k < 3) :
    written f (k + 1) = written f k + (Send.writing f k).next.length := by
  have hk : k < (sendMsg f.msg_id f.payload).length := h
  rw [written, written, Send.next, List.take_add_one, List.flatten_append, List.length_append,
    List.getElem?_eq_getElem hk]
  simp

theorem written_le (f : Frame) (k : ℕ) : written f k ≤ f.encode.length := by
  rw [written, Frame.encode, ← sendMsg_flatten]
  conv_rhs => rw [← List.take_append_drop k (sendMsg f.msg_id f.payload), List.flatten_append]
  rw [List.length_append]
  omega

theorem written_pos {f : Frame} {k : ℕ} (h : 0 < k) : 0 < written f k := by
  cases k with
  | zero => cases h
  | succ k =>
      rw [written, sendMsg, List.take_succ_cons, List.flatten_cons, List.length_append]
      exact Nat.lt_of_lt_of_le Nat.zero_lt_one (Nat.le_add_right _ _)

/-- The write puts the next bytes of the frame. -/
theorem next_eq {f : Frame} {k : ℕ} (h : k < 3) : (Send.writing f k).next =
    (f.encode.drop (written f k)).take (Send.writing f k).next.length := by
  have hk : k < (sendMsg f.msg_id f.payload).length := h
  have hsplit : f.encode = ((sendMsg f.msg_id f.payload).take k).flatten ++ (Send.writing f k).next ++
      ((sendMsg f.msg_id f.payload).drop (k + 1)).flatten := by
    rw [Frame.encode, ← sendMsg_flatten, Send.next, List.getElem?_eq_getElem hk, Option.getD_some]
    conv_lhs => rw [← List.take_append_drop k (sendMsg f.msg_id f.payload), List.drop_eq_getElem_cons hk]
    rw [List.flatten_append, List.flatten_cons, List.append_assoc]
  rw [hsplit, List.append_assoc, written, List.drop_left, List.take_left]

namespace Send

theorem part_zero (f : Frame) : part (.writing f 0) = none := by
  rw [part, written_zero, if_neg]
  omega

theorem part_all (f : Frame) : part (.writing f 3) = none := by
  rw [part, written_all (Nat.le_refl 3), if_neg]
  omega

theorem part_some {f : Frame} {k : ℕ} (hk : 0 < k) (h : written f k < f.encode.length) :
    part (.writing f k) = some (f, written f k) :=
  if_pos ⟨written_pos hk, h⟩

/-- What is out in part is in `sendMsg`. -/
theorem eq_writing_of_part {x : Send} (h : x.part ≠ none) : ∃ f k, x = .writing f k := by
  cases x with
  | idle => exact absurd rfl h
  | waiting f => exact absurd rfl h
  | writing f k => exact ⟨f, k, rfl⟩

end Send

namespace PenflowClient

variable {caps : DeviceCaps} {s : PenflowClient}

/-! ### The mutex -/

/-- The loops write under the mutex, and only once the handshake is over. -/
structure Orderly (s : PenflowClient) : Prop where
  mutex : ∀ w f k, w.locks = true → s.calls w = .writing f k → s.sendMutex = some w
  greeted : s.launched = true → s.calls .handshake = .idle
  waits : s.launched = false → ∀ w, w.locks = true → s.calls w = .idle

/-- **But for the goodbye**, no two callers are in `sendMsg`. -/
theorem Orderly.alone (h : s.Orderly) {w v : Caller} {f g : Frame} {j k : ℕ} (hw : s.calls w = .writing f j)
    (hv : s.calls v = .writing g k) (hw' : w ≠ .disconnect) (hv' : v ≠ .disconnect) : v = w := by
  have hlocks : ∀ w' v' f' g' j' k', s.calls w' = .writing f' j' → s.calls v' = .writing g' k' →
      w'.locks = true → v'.locks = false → v' ≠ .disconnect → False := by
    intro w' v' f' g' j' k' hw' hv' hlock hfree hne
    obtain rfl := Caller.eq_handshake hfree hne
    cases hlaunched : s.launched with
    | true =>
        rw [h.greeted hlaunched] at hv'
        cases hv'
    | false =>
        rw [h.waits hlaunched w' hlock] at hw'
        cases hw'
  cases hlw : w.locks with
  | true =>
      cases hlv : v.locks with
      | true =>
          have hmutex := (h.mutex w f j hlw hw).symm.trans (h.mutex v g k hlv hv)
          exact (Option.some.inj hmutex).symm
      | false => exact (hlocks w v f g j k hw hv hlw hlv hv').elim
  | false =>
      cases hlv : v.locks with
      | true => exact (hlocks v w g f k j hv hw hlv hlw hw').elim
      | false => exact (Caller.eq_handshake hlv hv').trans (Caller.eq_handshake hlw hw').symm

theorem start_orderly (caps : DeviceCaps) : (start caps).Orderly := by
  refine ⟨fun w f k hw hcall => ?_, fun h => ?_, fun _ w hw => ?_⟩
  · rw [start] at hcall
    cases w <;> simp_all [Caller.locks]
  · cases h
  · cases w <;> first | rfl | cases hw

/-- The call of `w` is now `x`. -/
theorem Orderly.update {s' : PenflowClient} {w : Caller} {x : Send} (h : s.Orderly)
    (hcalls : s'.calls = Function.update s.calls w x) (hlaunched : s'.launched = s.launched)
    (hothers : ∀ v, v ≠ w → s.sendMutex = some v → s'.sendMutex = some v)
    (hmutex : w.locks = true → ∀ f k, x = .writing f k → s'.sendMutex = some w)
    (hgreeted : w = .handshake → s.launched = true → x = .idle)
    (hwaits : w.locks = true → s.launched = false → x = .idle) : s'.Orderly := by
  have hsame : s'.calls w = x := by rw [hcalls, Function.update_self]
  have hother : ∀ v, v ≠ w → s'.calls v = s.calls v := by
    intro v hv
    rw [hcalls, Function.update_of_ne hv]
  refine ⟨fun v f k hv hcall => ?_, fun hl => ?_, fun hl v hv => ?_⟩
  · by_cases hvw : v = w
    · subst hvw
      exact hmutex hv f k (hsame.symm.trans hcall)
    · rw [hother v hvw] at hcall
      exact hothers v hvw (h.mutex v f k hv hcall)
  · rw [hlaunched] at hl
    by_cases hw : Caller.handshake = w
    · rw [hw, hsame]
      exact hgreeted hw.symm hl
    · rw [hother _ hw]
      exact h.greeted hl
  · rw [hlaunched] at hl
    by_cases hvw : v = w
    · subst hvw
      rw [hsame]
      exact hwaits hv hl
    · rw [hother v hvw]
      exact h.waits hl v hv

/-- The call of `w`, which goes on, is now `x`. -/
theorem Orderly.goOn (h : s.Orderly) {s' : PenflowClient} {w : Caller} {x : Send} (hcall : s.calls w ≠ .idle)
    (hcalls : s'.calls = Function.update s.calls w x) (hlaunched : s'.launched = s.launched)
    (hothers : ∀ v, v ≠ w → s.sendMutex = some v → s'.sendMutex = some v)
    (hmutex : w.locks = true → ∀ f k, x = .writing f k → s'.sendMutex = some w) : s'.Orderly := by
  refine h.update hcalls hlaunched hothers hmutex ?_ ?_
  · rintro rfl hl
    exact absurd (h.greeted hl) hcall
  · intro hw hl
    exact absurd (h.waits hl w hw) hcall

/-- The call of `w` begins with `x`, under no mutex yet. -/
theorem Orderly.begin (h : s.Orderly) {s' : PenflowClient} {w : Caller} {x : Send} (hw : w ≠ .handshake)
    (hcalls : s'.calls = Function.update s.calls w x) (hlaunched : s'.launched = s.launched)
    (hmutex : s'.sendMutex = s.sendMutex) (hfree : w.locks = true → ∀ f k, x ≠ .writing f k)
    (hon : w.locks = true → s.launched = true) : s'.Orderly := by
  refine h.update hcalls hlaunched ?_ ?_ (fun heq => absurd heq hw) ?_
  · intro v _ hv
    exact hmutex.trans hv
  · intro hlocks f k hx
    exact absurd hx (hfree hlocks f k)
  · intro hlocks hl
    rw [hon hlocks] at hl
    cases hl

/-- `sendMsg` returns or throws. -/
theorem Orderly.leave (h : s.Orderly) {w : Caller} {f : Frame} {k : ℕ} (hcall : s.calls w = .writing f k) :
    (s.leave w).Orderly := by
  have hidle : s.calls w ≠ .idle := by
    rw [hcall]
    exact Send.noConfusion
  refine h.goOn (w := w) (x := .idle) hidle rfl rfl ?_ ?_
  · intro v hv hmutex
    show (if w.locks then none else s.sendMutex) = some v
    cases hw : w.locks with
    | true =>
        rw [h.mutex w f k hw hcall] at hmutex
        exact absurd (Option.some.inj hmutex).symm hv
    | false => exact hmutex
  · intro _ f k hx
    cases hx

theorem launch_orderly (h : s.Orderly) : s.launch.Orderly := by
  unfold PenflowClient.launch
  split
  · rename_i f hcall
    refine ⟨fun w g k hw hg => ?_, fun _ => ?_, fun hl => ?_⟩
    · have hne : w ≠ .handshake := by
        rintro rfl
        cases hw
      refine h.mutex w g k hw ?_
      rw [← hg]
      exact (Function.update_of_ne hne _ _).symm
    · show Function.update s.calls .handshake .idle .handshake = .idle
      exact Function.update_self _ _ _
    · cases hl
  · exact h

theorem lock_orderly (h : s.Orderly) (w : Caller) : (s.lock w).Orderly := by
  unfold PenflowClient.lock
  split
  · rename_i f hcall
    split
    · rename_i hmutex
      refine h.goOn (w := w) (x := .writing f 0) (by rw [hcall]; exact Send.noConfusion) rfl rfl ?_ ?_
      · intro v _ hv
        rw [hmutex] at hv
        cases hv
      · intro _ _ _ _
        rfl
    · exact h
  · exact h

theorem write_orderly (h : s.Orderly) (w : Caller) : (s.write w).Orderly := by
  unfold PenflowClient.write
  split
  · rename_i f k hcall
    split
    · split
      · refine h.goOn (w := w) (x := .writing f (k + 1)) (by rw [hcall]; exact Send.noConfusion) rfl rfl ?_ ?_
        · intro v _ hv
          exact hv
        · intro hw _ _ _
          exact h.mutex w f k hw hcall
      · exact h.leave hcall
    · exact h
  · exact h

/-- **Every step keeps order.** -/
theorem step_orderly (h : s.Orderly) (e : SendEvent) : (s.step e).Orderly := by
  cases e with
  | sendPenEvent x => exact ⟨h.mutex, h.greeted, h.waits⟩
  | sendTouchSnapshot x => exact ⟨h.mutex, h.greeted, h.waits⟩
  | launch => exact launch_orderly h
  | sendOneSync t1 =>
      show (s.sendOneSync t1).Orderly
      unfold PenflowClient.sendOneSync
      split
      · rename_i hon
        rw [Bool.and_eq_true] at hon
        exact h.begin (w := .timeSync) (x := .waiting (timeSyncFrame t1)) (by decide) rfl rfl rfl
          (fun _ _ _ => Send.noConfusion) fun _ => hon.1
      · exact h
  | nextPen =>
      show s.nextPen.Orderly
      unfold PenflowClient.nextPen
      split
      · rename_i hon
        rw [Bool.and_eq_true] at hon
        split
        · exact h
        · rename_i x xs _
          exact h.begin (w := .pen) (x := .waiting x.frame) (by decide) rfl rfl rfl
            (fun _ _ _ => Send.noConfusion) fun _ => hon.1
      · exact h
  | nextTouch =>
      show s.nextTouch.Orderly
      unfold PenflowClient.nextTouch
      split
      · rename_i hon
        rw [Bool.and_eq_true] at hon
        split
        · exact h
        · rename_i x xs _
          exact h.begin (w := .touch) (x := .waiting (touchFrame x)) (by decide) rfl rfl rfl
            (fun _ _ _ => Send.noConfusion) fun _ => hon.1
      · exact h
  | lock w => exact lock_orderly h w
  | lockCancelled w =>
      show (s.lockCancelled w).Orderly
      unfold PenflowClient.lockCancelled
      split
      · rename_i f hcall
        split
        · exact h.goOn (w := w) (x := .idle) (by rw [hcall]; exact Send.noConfusion) rfl rfl
            (fun _ _ hv => hv) fun _ _ _ hx => Send.noConfusion hx
        · exact h
      · exact h
  | write w => exact write_orderly h w
  | writeFails w n =>
      show (s.writeFails w n).Orderly
      unfold PenflowClient.writeFails
      split
      · rename_i f k hcall
        split
        · have hleave := h.leave hcall
          exact ⟨hleave.mutex, hleave.greeted, hleave.waits⟩
        · exact h
      · exact h
  | sent w =>
      show (s.sent w).Orderly
      unfold PenflowClient.sent
      split
      · rename_i f hcall
        split
        · exact h
        · exact h.leave hcall
      · exact h
  | disconnect =>
      show s.disconnect.Orderly
      unfold PenflowClient.disconnect
      split
      · exact h.begin (w := .disconnect) (x := .writing goodbyeFrame 0) (by decide) rfl rfl rfl
          (fun hlocks => by cases hlocks) fun hlocks => by cases hlocks
      · exact h
  | cancel => exact ⟨h.mutex, h.greeted, h.waits⟩
  | close =>
      show s.close.Orderly
      unfold PenflowClient.close
      split <;> exact ⟨h.mutex, h.greeted, h.waits⟩

end PenflowClient

end Penflow.Client
