import Penflow.Client.Activity
import Penflow.Client.Framed
import Penflow.Lib.Delimited
import Penflow.Server.ReadLoop

/-!
# From the panel to the injector

The activity with its captures, the client that sends what they emit, the bytes on their way, and the read loop on
the PC with the calls it makes on the injector.  The steps may come in any order.  As long as the goodbye meets no
frame, what is injected goes back call by call to what the captures emitted: each call has the fields of its own
sample or snapshot, the calls of each kind are in the order of the captures, nothing is injected twice, and there
is no other call (`input_arrives`).
-/

namespace Penflow

open Client (SendEvent PenflowClient Caller)

/-! ### The frames of the tablet -/

/-- The sample as the PC reads it. -/
def PenEvent.ofSample (s : Client.PenSample Float32) : PenEvent where
  ts_ns := s.tsNs
  phase := Client.toByte s.phase
  x_norm := Float32.ofBits s.xNorm.toBits
  y_norm := Float32.ofBits s.yNorm.toBits
  pressure := Float32.ofBits s.pressure.toBits
  tilt_x := Float32.ofBits s.tiltX.toBits
  tilt_y := Float32.ofBits s.tiltY.toBits
  buttons := Client.toByte s.buttons
  tool := Client.toByte s.tool

/-- The snapshot as the PC reads it. -/
def TouchEvent.ofSnapshot (snap : Client.TouchInputCapture.TouchSnapshot Float32) : TouchEvent where
  ts_ns := snap.tsNs
  contacts := (snap.contacts.take 255).map fun c =>
    { pointer_id := Client.toByte (Client.coerceIn c.pointerId 0 255)
      x_norm := Float32.ofBits c.xNorm.toBits
      y_norm := Float32.ofBits c.yNorm.toBits
      pressure := Float32.ofBits c.pressure.toBits }

theorem PenEvent.decode_frame (s : Client.PenSample Float32) : PenEvent.decode s.frame.payload = .ok (.ofSample s) := by
  have hpayload : s.frame.payload = PenEventBits.encode ⟨s.tsNs, Client.toByte s.phase, s.xNorm.toBits,
      s.yNorm.toBits, s.pressure.toBits, s.tiltX.toBits, s.tiltY.toBits, Client.toByte s.buttons,
      Client.toByte s.tool⟩ := rfl
  rw [PenEvent.decode_eq, hpayload, PenEventBits.decode_encode]
  rfl

/-- The contact as the bytes of its snapshot have it. -/
def contactBits (c : Client.TouchInputCapture.TouchContact Float32) : TouchContactBits where
  pointer_id := Client.toByte (Client.coerceIn c.pointerId 0 255)
  x_norm := c.xNorm.toBits
  y_norm := c.yNorm.toBits
  pressure := c.pressure.toBits

theorem touchFrame_payload (snap : Client.TouchInputCapture.TouchSnapshot Float32) :
    (Client.touchFrame snap).payload = TouchEventBits.encode ⟨snap.tsNs, snap.contacts.map contactBits⟩ := by
  have hcontacts : ∀ contacts : List (Client.TouchInputCapture.TouchContact Float32),
      (contacts.map Client.bits).flatMap Client.TouchContact.encode =
        (contacts.map contactBits).flatMap TouchContactBits.encode := by
    intro contacts
    rw [List.flatMap_map, List.flatMap_map]
    rfl
  simp only [Client.touchFrame, Client.encodeTouchEvent, TouchEventBits.encode, List.length_map, ← List.map_take,
    hcontacts]

theorem TouchEvent.decode_frame (snap : Client.TouchInputCapture.TouchSnapshot Float32) :
    TouchEvent.decode (Client.touchFrame snap).payload = .ok (.ofSnapshot snap) := by
  rw [TouchEvent.decode_eq, touchFrame_payload, TouchEventBits.decode_encode]
  simp only [Except.map, TouchEventBits.toEvent, ofSnapshot, ← List.map_take, List.map_map]
  rfl

/-- What the tablet sends fits a frame. -/
theorem given_fits {s : PenflowClient} {w : Caller} {f : Frame} (h : f ∈ s.given w) :
    f.payload.length ≤ maxPayloadLen := by
  cases w with
  | handshake =>
      rw [List.mem_singleton.1 h]
      simp [Client.DeviceCaps.frame, Client.encodeHelloAndroid, maxPayloadLen]
  | timeSync =>
      obtain ⟨t1, -, rfl⟩ := List.mem_map.1 h
      simp [Client.timeSyncFrame, Client.encodeTimeSyncReq, maxPayloadLen]
  | pen =>
      obtain ⟨x, -, rfl⟩ := List.mem_map.1 h
      simp [Client.PenSample.frame, Client.encodePenEvent, maxPayloadLen]
  | touch =>
      obtain ⟨snap, -, rfl⟩ := List.mem_map.1 h
      have hlength : ((snap.contacts.map contactBits).take 255).length ≤ 255 := List.length_take_le 255 _
      rw [touchFrame_payload, TouchEventBits.encode_eq]
      simp only [List.length_append, i64BE_length, List.length_singleton, maxPayloadLen, List.length_flatMap,
        TouchContactBits.encode_length, List.map_const', List.sum_replicate_nat, TouchContact.size]
      omega
  | disconnect =>
      rw [List.eq_of_mem_replicate h]
      exact Nat.zero_le _

/-! ### The messages of the stream -/

/-- The next message of the bytes that have arrived. -/
def nextFrame (bytes : List UInt8) : Option (Frame × List UInt8) :=
  match readFrame [bytes] with
  | (.ok f, rest) => some (f, rest.flatten)
  | _ => none

/-- A message that has not arrived in full. -/
theorem readFrame_short {f : Frame} (hf : f.payload.length ≤ maxPayloadLen) {n : ℕ} (hn : n < f.encode.length) :
    readFrame [f.encode.take n] = (.error .io, []) := by
  have hlength : ∀ m (bs : List UInt8), bs.length < m → Chunks.readExact m [bs] = none := by
    intro m bs hlt
    apply Chunks.readExact_eq_none
    rw [List.flatten_singleton]
    exact hlt
  rw [Frame.encode_length] at hn
  rw [Frame.encode, encodeFrame, List.append_assoc]
  cases n with
  | zero => rw [readFrame, hlength 1 _ (by simp)]
  | succ n =>
      have hflat : [([f.msg_id] ++ (u32BE (UInt32.ofNat f.payload.length) ++ f.payload)).take (n + 1)].flatten =
          [f.msg_id] ++ (u32BE (UInt32.ofNat f.payload.length) ++ f.payload).take n := by
        simp
      obtain ⟨s₁, hid, h₁⟩ := Chunks.readExact_flatten (n := 1) rfl hflat
      rw [readFrame, hid]
      by_cases hword : n < 4
      · have hnone : Chunks.readExact 4 s₁ = none := by
          apply Chunks.readExact_eq_none
          rw [h₁, List.length_take]
          omega
        simp only [hnone]
      · have hsplit : (u32BE (UInt32.ofNat f.payload.length) ++ f.payload).take n =
            u32BE (UInt32.ofNat f.payload.length) ++ f.payload.take (n - 4) := by
          rw [List.take_append, u32BE_length, List.take_of_length_le (by rw [u32BE_length]; omega)]
        rw [hsplit] at h₁
        obtain ⟨s₂, hlen, h₂⟩ := Chunks.readExact_flatten (u32BE_length _) h₁
        have hnone : Chunks.readExact f.payload.length s₂ = none := by
          apply Chunks.readExact_eq_none
          rw [h₂, List.length_take]
          omega
        simp only [hlen, u32OfBE_u32BE, toNat_payload_length hf, hnone]
        rw [if_neg (by omega)]

/-- Where no message has arrived in full, the PC waits. -/
theorem readFrame_cut {cut : List UInt8}
    (h : IsCut Frame.encode (fun f => f.payload.length ≤ maxPayloadLen) cut) : readFrame [cut] = (.error .io, []) := by
  rcases h with rfl | ⟨f, n, hf, hn, rfl⟩
  · rfl
  · exact readFrame_short hf hn

/-- **The PC receives frames.** -/
theorem nextFrame_delimited : Delimited Frame.encode nextFrame fun f => f.payload.length ≤ maxPayloadLen := by
  constructor
  · intro f hf rest
    have hflat : [f.encode ++ rest].flatten = encodeFrame f.msg_id f.payload ++ rest := List.flatten_singleton
    obtain ⟨left, hread, hleft⟩ := readFrame_encodeFrame hf hflat
    rw [nextFrame, hread, ← hleft]
  · intro cut hcut
    rw [nextFrame, readFrame_cut hcut]

/-! ### The machine -/

/-- Where the PC is with the messages of the tablet. -/
inductive UplinkReader where
  /-- waits for `HELLO_ANDROID` -/
  | hello
  | handshake
  /-- in `read_loop` -/
  | reading
  | ended (result : Except ProtocolError Unit)
  /-- the session has failed in its handshake -/
  | refused
  /-- the session has ended, and its read loop with it -/
  | aborted

def UplinkReader.listening : UplinkReader → Bool
  | .hello => true
  | .reading => true
  | _ => false

structure Uplink where
  activity : Client.Activity Float32
  client : PenflowClient
  unread : List UInt8
  reader : UplinkReader
  /-- the calls made on the injector -/
  calls : List Call

inductive UplinkEvent where
  /-- Android delivers an event -/
  | motion (i : Client.Input Float32)
  /-- another step of the client -/
  | client (e : SendEvent)
  | spawnReadLoop
  /-- the PC receives a message; a reply to it can be written or not -/
  | read (reply_ok : Bool)
  /-- the PC comes to the end of the socket -/
  | eof
  | abort

namespace Uplink

variable (c : ReadConfig)

def start (caps : Client.DeviceCaps) : Uplink where
  activity := .start
  client := .start caps
  unread := []
  reader := .hello
  calls := []

/-- What the client is given behind an event: what the captures emit. -/
def emitted (u : Uplink) (i : Client.Input Float32) : List SendEvent :=
  let activity := u.activity.step i
  (activity.samples.drop u.activity.samples.length).map SendEvent.sendPenEvent ++
    (activity.snapshots.drop u.activity.snapshots.length).map fun x => SendEvent.sendTouchSnapshot x.2

def motion (u : Uplink) (i : Client.Input Float32) : Uplink :=
  { u with activity := u.activity.step i, client := (u.emitted i).foldl PenflowClient.step u.client }

/-- It enqueues only what the captures emit; the bytes it writes are on their way. -/
def clientStep (u : Uplink) (e : SendEvent) : Uplink :=
  match e with
  | .sendPenEvent _ => u
  | .sendTouchSnapshot _ => u
  | e =>
    let client := u.client.step e
    { u with client := client, unread := u.unread ++ client.wire.drop u.client.wire.length }

/-- The PC handles a message. -/
def receive (u : Uplink) (f : Frame) (reply_ok : Bool) : Uplink :=
  match u.reader with
  | .hello =>
    if f.msg_id = msgHelloAndroid then
      match HelloAndroid.decode f.payload with
      | .ok _ => { u with reader := .handshake }
      | .error _ => { u with reader := .refused }
    else { u with reader := .refused }
  | .reading =>
    let (call, result) := c.handleMessage f.msg_id f.payload reply_ok
    { u with calls := u.calls ++ call.toList, reader := result.elim .reading .ended }
  | _ => u

/-- A read has failed. -/
def fail (u : Uplink) (result : Except ProtocolError Unit) : Uplink :=
  match u.reader with
  | .reading => { u with reader := .ended result }
  | _ => { u with reader := .refused }

/-- The PC waits where too little has arrived. -/
def read (u : Uplink) (reply_ok : Bool) : Uplink :=
  if u.reader.listening then
    match readFrame [u.unread] with
    | (.ok f, unread) => receive c { u with unread := unread.flatten } f reply_ok
    | (.error .io, _) => u
    | (.error e, _) => u.fail (.error e)
  else u

/-- `UnexpectedEof` -/
def eof (u : Uplink) : Uplink :=
  if u.reader.listening ∧ u.client.socketOpen = false then
    match readFrame [u.unread] with
    | (.error .io, _) => u.fail (.ok ())
    | _ => u
  else u

def step (u : Uplink) : UplinkEvent → Uplink
  | .motion i => u.motion i
  | .client e => u.clientStep e
  | .spawnReadLoop =>
    match u.reader with
    | .handshake => { u with reader := .reading }
    | _ => u
  | .read reply_ok => read c u reply_ok
  | .eof => u.eof
  | .abort =>
    match u.reader with
    | .refused => u
    | _ => { u with reader := .aborted }

def after (caps : Client.DeviceCaps) (es : List UplinkEvent) : Uplink := es.foldl (step c) (start caps)

/-- The goodbye and a frame of another caller meet. -/
def Meets (u : Uplink) : UplinkEvent → Prop
  | .client e => u.client.Meets e
  | _ => False

variable {c : ReadConfig} {caps : Client.DeviceCaps} {u : Uplink} {s : PenflowClient}

/-! ### What the messages do -/

/-- The call that a message makes. -/
def callOf (c : ReadConfig) (f : Frame) : Option Call := (c.handleMessage f.msg_id f.payload true).1

theorem callOf_eq (f : Frame) (reply_ok : Bool) : (c.handleMessage f.msg_id f.payload reply_ok).1 = callOf c f := by
  rw [callOf, ReadConfig.handleMessage, ReadConfig.handleMessage]
  repeat' split
  all_goals rfl

theorem handle_hello {f : Frame} (h : f.msg_id = msgHelloAndroid) (reply_ok : Bool) :
    c.handleMessage f.msg_id f.payload reply_ok = (none, none) := by
  rw [h]
  rfl

theorem handle_pen (x : Client.PenSample Float32) (reply_ok : Bool) :
    c.handleMessage x.frame.msg_id x.frame.payload reply_ok = (some (.injectPen (c.penSample (.ofSample x))), none) := by
  have hid : x.frame.msg_id = msgPenEvent := rfl
  rw [ReadConfig.handleMessage, if_pos hid, PenEvent.decode_frame]

theorem handle_touch (snap : Client.TouchInputCapture.TouchSnapshot Float32) (reply_ok : Bool) :
    c.handleMessage (Client.touchFrame snap).msg_id (Client.touchFrame snap).payload reply_ok =
      (some (.injectTouch (c.touchSnapshot (.ofSnapshot snap))), none) := by
  have hid : (Client.touchFrame snap).msg_id = msgTouchEvent := rfl
  have hpen : (Client.touchFrame snap).msg_id ≠ msgPenEvent := show msgTouchEvent ≠ msgPenEvent by decide
  rw [ReadConfig.handleMessage, if_neg hpen, if_pos hid, TouchEvent.decode_frame]

theorem handle_timeSync (t1 : Int64) (reply_ok : Bool) :
    c.handleMessage (Client.timeSyncFrame t1).msg_id (Client.timeSyncFrame t1).payload reply_ok =
      (none, if reply_ok then none else some (.ok ())) := by
  have hdecode := Client.decode_encodeTimeSyncReq ⟨t1⟩
  show c.handleMessage msgTimeSyncReq (Client.encodeTimeSyncReq t1) reply_ok = _
  rw [ReadConfig.handleMessage, if_neg (by decide), if_neg (by decide), if_pos rfl, hdecode]

/-- The call is one on the pen. -/
def isPen : Call → Bool
  | .injectPen _ => true
  | _ => false

/-- The call is one on the touch contacts. -/
def isTouch : Call → Bool
  | .injectTouch _ => true
  | _ => false

/-- **No message of the tablet is an error**, and each makes the call of its sender. -/
theorem handle_given {w : Caller} {f : Frame} (h : f ∈ s.given w) :
    (∀ reply_ok e, (c.handleMessage f.msg_id f.payload reply_ok).2 ≠ some (.error e)) ∧
      (callOf c f).filter isPen = (if w = .pen then callOf c f else none) ∧
      (callOf c f).filter isTouch = if w = .touch then callOf c f else none := by
  cases w with
  | handshake =>
      obtain rfl := List.mem_singleton.1 h
      have hhello : s.caps.frame.msg_id = msgHelloAndroid := rfl
      simp [callOf, handle_hello hhello]
  | timeSync =>
      obtain ⟨t1, -, rfl⟩ := List.mem_map.1 h
      refine ⟨fun reply_ok e => ?_, ?_, ?_⟩
      · rw [handle_timeSync]
        cases reply_ok <;> simp
      · simp [callOf, handle_timeSync]
      · simp [callOf, handle_timeSync]
  | pen =>
      obtain ⟨x, -, rfl⟩ := List.mem_map.1 h
      simp [callOf, handle_pen, isPen, isTouch]
  | touch =>
      obtain ⟨snap, -, rfl⟩ := List.mem_map.1 h
      simp [callOf, handle_touch, isPen, isTouch]
  | disconnect =>
      obtain rfl := List.eq_of_mem_replicate h
      have hbye : ∀ reply_ok, c.handleMessage Client.goodbyeFrame.msg_id Client.goodbyeFrame.payload reply_ok =
          (none, some (.ok ())) := fun _ => rfl
      simp [callOf, hbye]

/-! ### The client in the whole -/

/-- What is on the socket of the client: frames of its callers, in the order of each. -/
theorem client_sent {t : Turns Caller Frame} (h : s.Follows t) :
    ∃ sent cut, (∀ w, (Turns.ofWriter w sent).Sublist (s.given w)) ∧
      s.wire = (sent.map Prod.snd).flatMap Frame.encode ++ cut ∧
      IsCut Frame.encode (fun f => f.payload.length ≤ maxPayloadLen) cut := by
  have horder : ∀ w, (Turns.ofWriter w t.begun).Sublist (s.given w) := by
    intro w
    exact (List.sublist_append_left _ _).trans (h.order w)
  have hbegun : ∀ x ∈ t.begun, x.2.payload.length ≤ maxPayloadLen := by
    intro x hx
    exact given_fits ((horder x.1).subset (Turns.mem_ofWriter.2 hx))
  obtain ⟨sent, cut, ⟨rest, hrest⟩, hstream, hcut⟩ :=
    sent_turns (P := fun f => f.payload.length ≤ maxPayloadLen) t hbegun
  refine ⟨sent, cut, fun w => ?_, h.wire.trans hstream, hcut⟩
  have hw := horder w
  rw [← hrest, Turns.ofWriter_append] at hw
  exact (List.sublist_append_left _ _).trans hw

/-- Bytes once on the socket stay there. -/
theorem step_wire (s : PenflowClient) (e : SendEvent) : s.wire <+: (s.step e).wire := by
  cases hwriter : e.writer with
  | none => rw [(PenflowClient.step_quiet e hwriter).wire]
  | some w =>
      cases e with
      | write w =>
          show s.wire <+: (s.write w).wire
          unfold PenflowClient.write
          repeat' split
          · exact List.prefix_append _ _
          · exact List.prefix_refl _
          · exact List.prefix_refl _
          · exact List.prefix_refl _
      | writeFails w n =>
          show s.wire <+: (s.writeFails w n).wire
          unfold PenflowClient.writeFails
          repeat' split
          · exact List.prefix_append _ _
          · exact List.prefix_refl _
          · exact List.prefix_refl _
      | _ => cases hwriter

/-- What the client was given of the captures. -/
def inputs (s : PenflowClient) :
    List (Client.PenSample Float32) × List (Client.TouchInputCapture.TouchSnapshot Float32) :=
  (s.pens, s.touches)

/-- Only the captures give the client what it sends. -/
theorem step_inputs (s : PenflowClient) (e : SendEvent) :
    inputs (s.step e) = match e with
      | .sendPenEvent x => (s.pens ++ [x], s.touches)
      | .sendTouchSnapshot snap => (s.pens, s.touches ++ [snap])
      | _ => inputs s := by
  cases e with
  | sendPenEvent x => rfl
  | sendTouchSnapshot snap => rfl
  | cancel => rfl
  | launch =>
      show inputs s.launch = inputs s
      unfold PenflowClient.launch
      split <;> rfl
  | sendOneSync t1 =>
      show inputs (s.sendOneSync t1) = inputs s
      unfold PenflowClient.sendOneSync
      split <;> rfl
  | nextPen =>
      show inputs s.nextPen = inputs s
      unfold PenflowClient.nextPen
      repeat' split
      all_goals rfl
  | nextTouch =>
      show inputs s.nextTouch = inputs s
      unfold PenflowClient.nextTouch
      repeat' split
      all_goals rfl
  | lock w =>
      show inputs (s.lock w) = inputs s
      unfold PenflowClient.lock
      repeat' split
      all_goals rfl
  | lockCancelled w =>
      show inputs (s.lockCancelled w) = inputs s
      unfold PenflowClient.lockCancelled
      repeat' split
      all_goals rfl
  | write w =>
      show inputs (s.write w) = inputs s
      unfold PenflowClient.write
      repeat' split
      all_goals rfl
  | writeFails w n =>
      show inputs (s.writeFails w n) = inputs s
      unfold PenflowClient.writeFails
      repeat' split
      all_goals rfl
  | sent w =>
      show inputs (s.sent w) = inputs s
      unfold PenflowClient.sent
      repeat' split
      all_goals rfl
  | disconnect =>
      show inputs s.disconnect = inputs s
      unfold PenflowClient.disconnect
      split <;> rfl
  | close =>
      show inputs s.close = inputs s
      unfold PenflowClient.close
      split <;> rfl

theorem foldl_inputs (es : List SendEvent) (s : PenflowClient) {xs : List (Client.PenSample Float32)}
    {snaps : List (Client.TouchInputCapture.TouchSnapshot Float32)}
    (h : es = xs.map SendEvent.sendPenEvent ++ snaps.map SendEvent.sendTouchSnapshot) :
    inputs (es.foldl PenflowClient.step s) = (s.pens ++ xs, s.touches ++ snaps) ∧
      (es.foldl PenflowClient.step s).wire = s.wire := by
  induction es generalizing s xs snaps with
  | nil =>
      obtain ⟨hxs, hsnaps⟩ := List.append_eq_nil_iff.1 h.symm
      rw [List.map_eq_nil_iff] at hxs hsnaps
      subst hxs hsnaps
      simp [inputs]
  | cons e es ih =>
      cases xs with
      | cons x xs =>
          obtain ⟨rfl, hes⟩ := List.cons.inj h
          obtain ⟨hinputs, hwire⟩ := ih (s.step (.sendPenEvent x)) hes
          refine ⟨?_, hwire⟩
          rw [List.foldl_cons, hinputs, ← List.singleton_append (l := xs), ← List.append_assoc]
          rfl
      | nil =>
          cases snaps with
          | nil => cases h
          | cons snap snaps =>
              obtain ⟨rfl, hes⟩ := List.cons.inj h
              have hrest : es = ([] : List (Client.PenSample Float32)).map SendEvent.sendPenEvent ++
                  snaps.map SendEvent.sendTouchSnapshot := hes
              obtain ⟨hinputs, hwire⟩ := ih (s.step (.sendTouchSnapshot snap)) hrest
              refine ⟨?_, hwire⟩
              rw [List.foldl_cons, hinputs, ← List.singleton_append (l := snaps), ← List.append_assoc]
              rfl

theorem foldl_follows {t : Turns Caller Frame} (es : List SendEvent) (hes : ∀ e ∈ es, e.writer = none)
    (horderly : s.Orderly) (hfollows : s.Follows t) :
    (es.foldl PenflowClient.step s).Orderly ∧ (es.foldl PenflowClient.step s).Follows t := by
  induction es generalizing s with
  | nil => exact ⟨horderly, hfollows⟩
  | cons e es ih =>
      have hquiet := PenflowClient.step_quiet (s := s) e (hes e List.mem_cons_self)
      exact ih (fun e he => hes e (List.mem_cons_of_mem _ he)) (PenflowClient.step_orderly horderly e)
        (hfollows.quiet hquiet)

/-! ### The invariant -/

/-- The PC has taken the messages `got` off the stream, and has made their calls. -/
structure Heard (c : ReadConfig) (u : Uplink) (got : List Frame) : Prop where
  stream : u.client.wire = got.flatMap Frame.encode ++ u.unread
  fits : ∀ f ∈ got, f.payload.length ≤ maxPayloadLen
  front : u.calls <+: got.filterMap (callOf c)
  all : u.reader ≠ .refused → u.calls = got.filterMap (callOf c)

structure Inv (c : ReadConfig) (u : Uplink) : Prop where
  orderly : u.client.Orderly
  follows : ∃ t, u.client.Follows t
  inputs : inputs u.client = (u.activity.samples, u.activity.snapshots.map Prod.snd)
  heard : ∃ got, Heard c u got
  sound : ∀ e, u.reader ≠ .ended (.error e)

theorem start_inv : (start caps).Inv c := by
  refine ⟨PenflowClient.start_orderly caps, ⟨_, PenflowClient.start_follows caps⟩, rfl, ⟨[], ?_⟩, ?_⟩
  · refine ⟨rfl, ?_, List.prefix_refl _, fun _ => rfl⟩
    intro f hf
    cases hf
  · intro e h
    cases h

/-- **The messages to come** are the rest of those on the socket. -/
theorem Heard.rest {got : List Frame} (h : Heard c u got) {t : Turns Caller Frame} (hfollows : u.client.Follows t) :
    ∃ sent cut rest, (∀ w, (Turns.ofWriter w sent).Sublist (u.client.given w)) ∧ sent.map Prod.snd = got ++ rest ∧
      u.client.wire = (got ++ rest).flatMap Frame.encode ++ cut ∧ u.unread = rest.flatMap Frame.encode ++ cut ∧
      IsCut Frame.encode (fun f => f.payload.length ≤ maxPayloadLen) cut := by
  obtain ⟨sent, cut, horder, hwire, hcut⟩ := client_sent hfollows
  have hsent : ∀ f ∈ sent.map Prod.snd, f.payload.length ≤ maxPayloadLen := by
    intro f hf
    obtain ⟨x, hx, rfl⟩ := List.mem_map.1 hf
    exact given_fits ((horder x.1).subset (Turns.mem_ofWriter.2 hx))
  obtain ⟨rest, hrest, hunread⟩ := nextFrame_delimited.received h.fits hsent
    (nextFrame_delimited.next_cut cut hcut) (h.stream.symm.trans hwire)
  rw [hrest] at hwire
  exact ⟨sent, cut, rest, horder, hrest, hwire, hunread, hcut⟩

theorem motion_inv (h : u.Inv c) (i : Client.Input Float32) : (u.motion i).Inv c := by
  obtain ⟨t, hfollows⟩ := h.follows
  obtain ⟨got, hheard⟩ := h.heard
  have hsamples : (u.activity.step i).samples = u.activity.samples ++ u.activity.emits i :=
    Client.Activity.step_samples
  have hsnapshots := Client.Activity.step_snapshots (s := u.activity) (i := i)
  have hemitted : u.emitted i = (u.activity.emits i).map SendEvent.sendPenEvent ++
      (((Client.Activity.snapshot i).toList.map fun snap => (i.ev.deviceId, snap)).map Prod.snd).map
        SendEvent.sendTouchSnapshot := by
    rw [emitted, hsamples, hsnapshots, List.drop_left, List.drop_left, List.map_map, List.map_map, List.map_map]
    rfl
  obtain ⟨hinputs, hwire⟩ := foldl_inputs (u.emitted i) u.client hemitted
  have hquiet : ∀ e ∈ u.emitted i, e.writer = none := by
    intro e he
    rw [hemitted] at he
    rcases List.mem_append.1 he with he | he
    · obtain ⟨x, -, rfl⟩ := List.mem_map.1 he
      rfl
    · obtain ⟨x, -, rfl⟩ := List.mem_map.1 he
      rfl
  obtain ⟨horderly, hfollows'⟩ := foldl_follows _ hquiet h.orderly hfollows
  refine ⟨horderly, ⟨t, hfollows'⟩, ?_, ⟨got, hwire.trans hheard.stream, hheard.fits, hheard.front, hheard.all⟩,
    h.sound⟩
  obtain ⟨hpens, htouches⟩ := Prod.mk.inj h.inputs
  show inputs _ = ((u.activity.step i).samples, (u.activity.step i).snapshots.map Prod.snd)
  rw [motion, hinputs, hpens, htouches, hsamples, hsnapshots, List.map_append]

/-- A step of the client that is not given anything. -/
theorem client_inv (h : u.Inv c) {e : SendEvent} (hclear : ¬ u.client.Meets e)
    (hinputs : inputs (u.client.step e) = inputs u.client) :
    Inv c { u with client := u.client.step e,
                   unread := u.unread ++ (u.client.step e).wire.drop u.client.wire.length } := by
  obtain ⟨t, hfollows⟩ := h.follows
  obtain ⟨got, hheard⟩ := h.heard
  obtain ⟨bytes, hbytes⟩ := step_wire u.client e
  refine ⟨PenflowClient.step_orderly h.orderly e, PenflowClient.step_follows h.orderly hfollows hclear,
    hinputs.trans h.inputs, ⟨got, ?_, hheard.fits, hheard.front, hheard.all⟩, h.sound⟩
  show (u.client.step e).wire = got.flatMap Frame.encode ++ (u.unread ++ _)
  rw [← hbytes, List.drop_left, ← List.append_assoc, ← hheard.stream]

theorem clientStep_inv (h : u.Inv c) {e : SendEvent} (hclear : ¬ u.client.Meets e) : (u.clientStep e).Inv c := by
  have hinputs := step_inputs u.client e
  cases e with
  | sendPenEvent x => exact h
  | sendTouchSnapshot snap => exact h
  | _ => exact client_inv h hclear hinputs

theorem fail_inv (h : u.Inv c) : (u.fail (.ok ())).Inv c := by
  obtain ⟨got, hheard⟩ := h.heard
  rw [fail]
  cases hreader : u.reader with
  | reading =>
      refine ⟨h.orderly, h.follows, h.inputs, ⟨got, hheard.stream, hheard.fits, hheard.front, fun _ => ?_⟩, ?_⟩
      · apply hheard.all
        rw [hreader]
        exact UplinkReader.noConfusion
      · intro e hcontra
        cases hcontra
  | _ =>
      refine ⟨h.orderly, h.follows, h.inputs, ⟨got, hheard.stream, hheard.fits, hheard.front, ?_⟩, ?_⟩
      · intro hcontra
        exact absurd rfl hcontra
      · intro e hcontra
        cases hcontra

/-- **One message.** -/
theorem receive_inv (h : u.Inv c) {got rest : List Frame} {f : Frame} {cut : List UInt8} (hheard : Heard c u got)
    (hunread : u.unread = (f :: rest).flatMap Frame.encode ++ cut) {w : Caller} (hf : f ∈ u.client.given w)
    (hlistening : u.reader.listening = true) (reply_ok : Bool) :
    (receive c { u with unread := rest.flatMap Frame.encode ++ cut } f reply_ok).Inv c := by
  obtain ⟨herror, -, -⟩ := handle_given (c := c) hf
  have hstream : u.client.wire = (got ++ [f]).flatMap Frame.encode ++ (rest.flatMap Frame.encode ++ cut) := by
    rw [hheard.stream, hunread]
    simp
  have hfits : ∀ g ∈ got ++ [f], g.payload.length ≤ maxPayloadLen := by
    intro g hg
    rcases List.mem_append.1 hg with hg | hg
    · exact hheard.fits g hg
    · rw [List.mem_singleton.1 hg]
      exact given_fits hf
  have hcalls : (got ++ [f]).filterMap (callOf c) = got.filterMap (callOf c) ++ (callOf c f).toList := by
    rw [List.filterMap_append]
    cases hcall : callOf c f with
    | none => simp [hcall]
    | some call => simp [hcall]
  have hfront : u.calls <+: (got ++ [f]).filterMap (callOf c) := by
    rw [hcalls]
    exact hheard.front.trans (List.prefix_append _ _)
  have hrefuse : Inv c { u with unread := rest.flatMap Frame.encode ++ cut, reader := .refused } := by
    refine ⟨h.orderly, h.follows, h.inputs, ⟨got ++ [f], hstream, hfits, hfront, ?_⟩, ?_⟩
    · intro hcontra
      exact absurd rfl hcontra
    · intro e hcontra
      cases hcontra
  rw [receive]
  cases hreader : u.reader with
  | hello =>
      dsimp only
      have hall : u.calls = got.filterMap (callOf c) := by
        apply hheard.all
        rw [hreader]
        exact UplinkReader.noConfusion
      by_cases hid : f.msg_id = msgHelloAndroid
      · have hnone : callOf c f = none := by
          rw [callOf, handle_hello hid]
        rw [if_pos hid]
        cases HelloAndroid.decode f.payload with
        | error e => exact hrefuse
        | ok hello =>
            refine ⟨h.orderly, h.follows, h.inputs, ⟨got ++ [f], hstream, hfits, hfront, fun _ => ?_⟩, ?_⟩
            · rw [hcalls, hnone, hall]
              simp
            · intro e hcontra
              cases hcontra
      · rw [if_neg hid]
        exact hrefuse
  | reading =>
      dsimp only
      have hall : u.calls = got.filterMap (callOf c) := by
        apply hheard.all
        rw [hreader]
        exact UplinkReader.noConfusion
      have hnext : u.calls ++ (c.handleMessage f.msg_id f.payload reply_ok).1.toList =
          (got ++ [f]).filterMap (callOf c) := by
        rw [callOf_eq, hall, hcalls]
      refine ⟨h.orderly, h.follows, h.inputs, ⟨got ++ [f], hstream, hfits, ?_, fun _ => hnext⟩, ?_⟩
      · show u.calls ++ _ <+: _
        rw [hnext]
      · intro e hcontra
        have hresult := herror reply_ok e
        cases hres : (c.handleMessage f.msg_id f.payload reply_ok).2 with
        | none =>
            rw [hres] at hcontra
            cases hcontra
        | some result =>
            rw [hres] at hcontra hresult
            obtain rfl := UplinkReader.ended.inj hcontra
            exact hresult rfl
  | handshake =>
      rw [hreader] at hlistening
      cases hlistening
  | ended result =>
      rw [hreader] at hlistening
      cases hlistening
  | refused =>
      rw [hreader] at hlistening
      cases hlistening
  | aborted =>
      rw [hreader] at hlistening
      cases hlistening

theorem read_inv (h : u.Inv c) (reply_ok : Bool) : (read c u reply_ok).Inv c := by
  obtain ⟨t, hfollows⟩ := h.follows
  obtain ⟨got, hheard⟩ := h.heard
  obtain ⟨sent, cut, rest, horder, hsent, -, hunread, hcut⟩ := hheard.rest hfollows
  rw [read]
  by_cases hlistening : u.reader.listening = true
  · rw [if_pos hlistening]
    cases rest with
    | nil =>
        have hshort : readFrame [u.unread] = (.error .io, []) := by
          rw [hunread]
          exact readFrame_cut hcut
        rw [hshort]
        exact h
    | cons f rest =>
        obtain ⟨x, hx, rfl⟩ : ∃ x ∈ sent, x.2 = f := by
          rw [← List.mem_map, hsent]
          exact List.mem_append_right _ List.mem_cons_self
        have hf := (horder x.1).subset (Turns.mem_ofWriter.2 hx)
        have hflat : [u.unread].flatten = encodeFrame x.2.msg_id x.2.payload ++
            (rest.flatMap Frame.encode ++ cut) := by
          rw [List.flatten_singleton, hunread, List.flatMap_cons, List.append_assoc]
          rfl
        obtain ⟨left, hread, hleft⟩ := readFrame_encodeFrame (given_fits hf) hflat
        rw [hread]
        dsimp only
        rw [hleft]
        exact receive_inv h hheard hunread hf hlistening reply_ok
  · rw [if_neg hlistening]
    exact h

theorem eof_inv (h : u.Inv c) : u.eof.Inv c := by
  rw [eof]
  split
  · split
    · exact fail_inv h
    · exact h
  · exact h

/-- **Every step keeps the invariant.** -/
theorem step_inv (u : Uplink) (e : UplinkEvent) (h : u.Inv c) (hclear : ¬ u.Meets e) : (step c u e).Inv c := by
  cases e with
  | motion i => exact motion_inv h i
  | client e => exact clientStep_inv h hclear
  | spawnReadLoop =>
      obtain ⟨got, hheard⟩ := h.heard
      rw [step]
      cases hreader : u.reader with
      | handshake =>
          refine ⟨h.orderly, h.follows, h.inputs, ⟨got, hheard.stream, hheard.fits, hheard.front, fun _ => ?_⟩, ?_⟩
          · apply hheard.all
            rw [hreader]
            exact UplinkReader.noConfusion
          · intro e hcontra
            cases hcontra
      | _ => exact h
  | read reply_ok => exact read_inv h reply_ok
  | eof => exact eof_inv h
  | abort =>
      obtain ⟨got, hheard⟩ := h.heard
      have hall : u.reader ≠ .refused → Inv c { u with reader := .aborted } := by
        intro hreader
        refine ⟨h.orderly, h.follows, h.inputs, ⟨got, hheard.stream, hheard.fits, hheard.front, fun _ => ?_⟩, ?_⟩
        · exact hheard.all hreader
        · intro e hcontra
          cases hcontra
      rw [step]
      cases hreader : u.reader with
      | refused => exact h
      | _ => exact hall (by rw [hreader]; exact UplinkReader.noConfusion)

/-! ### What is injected -/

/-- The calls of one kind go back to what one sender was given. -/
theorem calls_of {sent : List (Caller × Frame)} (horder : ∀ w, (Turns.ofWriter w sent).Sublist (s.given w))
    {p : Call → Bool} {w : Caller}
    (hp : ∀ v f, f ∈ s.given v → (callOf c f).filter p = if v = w then callOf c f else none) {calls : List Call}
    (hcalls : calls <+: (sent.map Prod.snd).filterMap (callOf c)) :
    (calls.filter p).Sublist ((s.given w).filterMap (callOf c)) := by
  have hsent : ((sent.map Prod.snd).filterMap (callOf c)).filter p =
      (Turns.ofWriter w sent).filterMap (callOf c) := by
    apply Turns.filterMap_ofWriter
    intro x hx
    exact hp x.1 x.2 ((horder x.1).subset (Turns.mem_ofWriter.2 hx))
  have hfront : (calls.filter p).Sublist (((sent.map Prod.snd).filterMap (callOf c)).filter p) :=
    hcalls.sublist.filter p
  rw [hsent] at hfront
  exact hfront.trans ((horder w).filterMap _)

/-- What is on the socket in full, and the calls that come from a front of it. -/
theorem Inv.sent (h : u.Inv c) : ∃ sent : List (Caller × Frame),
    (∀ w, (Turns.ofWriter w sent).Sublist (u.client.given w)) ∧
      (sent.map Prod.snd).flatMap Frame.encode <+: u.client.wire ∧
      u.calls <+: (sent.map Prod.snd).filterMap (callOf c) ∧
      ∀ cut, u.client.wire = (sent.map Prod.snd).flatMap Frame.encode ++ cut → nextFrame cut = none := by
  obtain ⟨t, hfollows⟩ := h.follows
  obtain ⟨got, hheard⟩ := h.heard
  obtain ⟨sent, cut, rest, horder, hsent, hwire, -, hcut⟩ := hheard.rest hfollows
  refine ⟨sent, horder, ?_, ?_, ?_⟩
  · rw [hwire, ← hsent]
    exact List.prefix_append _ _
  · rw [hsent, List.filterMap_append]
    exact hheard.front.trans (List.prefix_append _ _)
  · intro cut' hcut'
    rw [hwire, ← hsent] at hcut'
    rw [← List.append_cancel_left hcut']
    exact nextFrame_delimited.next_cut cut hcut

/-- The calls on the pen go back to samples of the pen capture. -/
theorem Inv.pens (h : u.Inv c) : (u.calls.filter isPen).Sublist
    (u.activity.samples.map fun x => .injectPen (c.penSample (.ofSample x))) := by
  obtain ⟨sent, horder, -, hfront, -⟩ := h.sent
  have hpens : u.client.pens = u.activity.samples := congrArg Prod.fst h.inputs
  have hcalls := calls_of horder (p := isPen) (w := .pen) (fun v f hf => (handle_given hf).2.1) hfront
  have hgiven : (u.client.given .pen).filterMap (callOf c) =
      u.activity.samples.map fun x => .injectPen (c.penSample (.ofSample x)) := by
    show (u.client.pens.map Client.PenSample.frame).filterMap (callOf c) = _
    rw [hpens, List.filterMap_map]
    simp [callOf, handle_pen, Function.comp_def]
  rw [hgiven] at hcalls
  exact hcalls

/-- Those on the touch contacts go back to snapshots of the touch capture. -/
theorem Inv.touches (h : u.Inv c) : (u.calls.filter isTouch).Sublist
    (u.activity.snapshots.map fun x => .injectTouch (c.touchSnapshot (.ofSnapshot x.2))) := by
  obtain ⟨sent, horder, -, hfront, -⟩ := h.sent
  have htouches : u.client.touches = u.activity.snapshots.map Prod.snd := congrArg Prod.snd h.inputs
  have hcalls := calls_of horder (p := isTouch) (w := .touch) (fun v f hf => (handle_given hf).2.2) hfront
  have hgiven : (u.client.given .touch).filterMap (callOf c) =
      u.activity.snapshots.map fun x => .injectTouch (c.touchSnapshot (.ofSnapshot x.2)) := by
    show (u.client.touches.map Client.touchFrame).filterMap (callOf c) = _
    rw [htouches, List.filterMap_map, List.filterMap_map]
    simp [callOf, handle_touch, Function.comp_def]
  rw [hgiven] at hcalls
  exact hcalls

/-- There is no other call. -/
theorem Inv.kinds (h : u.Inv c) : ∀ call ∈ u.calls, isPen call = true ∨ isTouch call = true := by
  intro call hcall
  obtain ⟨sent, -, -, hfront, -⟩ := h.sent
  obtain ⟨f, -, hf⟩ := List.mem_filterMap.1 (hfront.subset hcall)
  rcases ReadConfig.handleMessage_call hf with ⟨pe, rfl⟩ | ⟨snapshot, rfl⟩
  · exact .inl rfl
  · exact .inr rfl

/-- **From the panel to the injector.**  As long as the goodbye meets no frame, the calls made on the injector are
those of a front of the frames that are on the socket in full: nothing is skipped.  Those on the pen go back, one by
one and in order, to samples of the pen capture and have their fields; those on the touch contacts to snapshots of
the touch capture; there is no other call; and the read loop does not end in an error. -/
theorem input_arrives {es : List UplinkEvent} (h : Run.Steps (step c) (fun u e => ¬ u.Meets e) (start caps) es) :
    let u := after c caps es
    (∃ sent : List Frame, sent.flatMap Frame.encode <+: u.client.wire ∧ u.calls <+: sent.filterMap (callOf c) ∧
      ∀ cut, u.client.wire = sent.flatMap Frame.encode ++ cut → nextFrame cut = none) ∧
    (u.calls.filter isPen).Sublist (u.activity.samples.map fun x => .injectPen (c.penSample (.ofSample x))) ∧
    (u.calls.filter isTouch).Sublist
      (u.activity.snapshots.map fun x => .injectTouch (c.touchSnapshot (.ofSnapshot x.2))) ∧
    (∀ call ∈ u.calls, isPen call = true ∨ isTouch call = true) ∧ ∀ e, u.reader ≠ .ended (.error e) := by
  intro u
  have hinv : u.Inv c := h.invariant step_inv start_inv
  obtain ⟨sent, -, hwire, hfront, hend⟩ := hinv.sent
  exact ⟨⟨sent.map Prod.snd, hwire, hfront, hend⟩, hinv.pens, hinv.touches, hinv.kinds, hinv.sound⟩

/-! ### Without a goodbye -/

theorem step_idle {s : PenflowClient} {e : SendEvent} (h : s.calls .disconnect = .idle) (he : e ≠ .disconnect) :
    (s.step e).calls .disconnect = .idle := by
  have hother : ∀ (w : Caller) (x : Client.Send), w ≠ .disconnect →
      Function.update s.calls w x .disconnect = .idle := by
    intro w x hw
    rw [Function.update_of_ne (Ne.symm hw)]
    exact h
  cases e with
  | sendPenEvent x => exact h
  | sendTouchSnapshot snap => exact h
  | cancel => exact h
  | launch =>
      show s.launch.calls .disconnect = .idle
      unfold PenflowClient.launch
      split
      · exact hother .handshake .idle (by decide)
      · exact h
  | sendOneSync t1 =>
      show (s.sendOneSync t1).calls .disconnect = .idle
      unfold PenflowClient.sendOneSync
      split
      · exact hother .timeSync (.waiting (Client.timeSyncFrame t1)) (by decide)
      · exact h
  | nextPen =>
      show s.nextPen.calls .disconnect = .idle
      unfold PenflowClient.nextPen
      split
      · split
        · exact h
        · rename_i x _ _
          exact hother .pen (.waiting x.frame) (by decide)
      · exact h
  | nextTouch =>
      show s.nextTouch.calls .disconnect = .idle
      unfold PenflowClient.nextTouch
      split
      · split
        · exact h
        · rename_i snap _ _
          exact hother .touch (.waiting (Client.touchFrame snap)) (by decide)
      · exact h
  | disconnect => exact absurd rfl he
  | close =>
      show s.close.calls .disconnect = .idle
      unfold PenflowClient.close
      split <;> exact h
  | lock w =>
      show (s.lock w).calls .disconnect = .idle
      by_cases hw : w = .disconnect
      · rw [hw, PenflowClient.lock, h]
        exact h
      · unfold PenflowClient.lock
        repeat' split
        all_goals first | exact h | exact hother w _ hw
  | lockCancelled w =>
      show (s.lockCancelled w).calls .disconnect = .idle
      by_cases hw : w = .disconnect
      · rw [hw, PenflowClient.lockCancelled, h]
        exact h
      · unfold PenflowClient.lockCancelled
        repeat' split
        all_goals first | exact h | exact hother w _ hw
  | write w =>
      show (s.write w).calls .disconnect = .idle
      by_cases hw : w = .disconnect
      · rw [hw, PenflowClient.write, h]
        exact h
      · unfold PenflowClient.write
        repeat' split
        all_goals first | exact h | exact hother w _ hw
  | writeFails w n =>
      show (s.writeFails w n).calls .disconnect = .idle
      by_cases hw : w = .disconnect
      · rw [hw, PenflowClient.writeFails, h]
        exact h
      · unfold PenflowClient.writeFails
        repeat' split
        all_goals first | exact h | exact hother w _ hw
  | sent w =>
      show (s.sent w).calls .disconnect = .idle
      by_cases hw : w = .disconnect
      · rw [hw, PenflowClient.sent, h]
        exact h
      · unfold PenflowClient.sent
        repeat' split
        all_goals first | exact h | exact hother w _ hw

/-- The client knows nothing of the reader. -/
theorem fail_client (u : Uplink) (result : Except ProtocolError Unit) : (u.fail result).client = u.client := by
  rw [fail]
  split <;> rfl

theorem read_client (u : Uplink) (reply_ok : Bool) : (read c u reply_ok).client = u.client := by
  have hreceive : ∀ (u : Uplink) (f : Frame), (receive c u f reply_ok).client = u.client := by
    intro u f
    rw [receive]
    repeat' split
    all_goals rfl
  rw [read]
  repeat' split
  · exact hreceive _ _
  · rfl
  · exact fail_client u _
  · rfl

theorem eof_client (u : Uplink) : u.eof.client = u.client := by
  rw [eof]
  repeat' split
  · exact fail_client u _
  · rfl
  · rfl

theorem emitted_idle (u : Uplink) (i : Client.Input Float32) (h : u.client.calls .disconnect = .idle) :
    (u.motion i).client.calls .disconnect = .idle := by
  have hfold : ∀ es : List SendEvent, (∀ e ∈ es, e ≠ .disconnect) → ∀ s : PenflowClient,
      s.calls .disconnect = .idle → (es.foldl PenflowClient.step s).calls .disconnect = .idle := by
    intro es
    induction es with
    | nil => exact fun _ s hs => hs
    | cons e es ih =>
        intro hes s hs
        exact ih (fun e he => hes e (List.mem_cons_of_mem _ he)) _ (step_idle hs (hes e List.mem_cons_self))
  apply hfold _ _ _ h
  intro e he
  rw [emitted] at he
  rcases List.mem_append.1 he with he | he
  · obtain ⟨x, -, rfl⟩ := List.mem_map.1 he
    exact SendEvent.noConfusion
  · obtain ⟨x, -, rfl⟩ := List.mem_map.1 he
    exact SendEvent.noConfusion

/-- Without a goodbye, nothing meets. -/
theorem clear_of_idle (h : u.client.calls .disconnect = .idle) (e : UplinkEvent) : ¬ u.Meets e := by
  intro hmeets
  cases e with
  | client e =>
      obtain ⟨-, w, v, -, hnext, -, hgoodbye, hpart⟩ := hmeets
      rcases hgoodbye with rfl | rfl
      · rw [h] at hnext
        exact hnext rfl
      · rw [h] at hpart
        exact hpart rfl
  | _ => exact hmeets

/-- `disconnect` is called. -/
def isGoodbye : UplinkEvent → Bool
  | .client .disconnect => true
  | _ => false

/-- **A run without a goodbye** meets the condition. -/
theorem clear_of_no_goodbye {es : List UplinkEvent} (hes : ∀ e ∈ es, isGoodbye e = false) (u : Uplink)
    (h : u.client.calls .disconnect = .idle) : Run.Steps (step c) (fun u e => ¬ u.Meets e) u es := by
  induction es generalizing u with
  | nil => trivial
  | cons e es ih =>
      refine ⟨clear_of_idle h e, ih (fun e he => hes e (List.mem_cons_of_mem _ he)) (step c u e) ?_⟩
      cases e with
      | motion i => exact emitted_idle u i h
      | client e =>
          have hne : e ≠ .disconnect := by
            rintro rfl
            cases hes _ List.mem_cons_self
          show (u.clientStep e).client.calls .disconnect = .idle
          cases e with
          | sendPenEvent x => exact h
          | sendTouchSnapshot snap => exact h
          | _ => exact step_idle h hne
      | spawnReadLoop =>
          rw [step]
          split <;> exact h
      | read reply_ok =>
          show (read c u reply_ok).client.calls .disconnect = .idle
          rw [read_client]
          exact h
      | eof =>
          show u.eof.client.calls .disconnect = .idle
          rw [eof_client]
          exact h
      | abort =>
          rw [step]
          split <;> exact h

/-- A session with a stylus on the tablet, up to the read of its first event. -/
def firstStroke : List UplinkEvent :=
  [.client (.write .handshake), .client (.write .handshake), .client (.write .handshake), .read true,
    .spawnReadLoop, .client .launch,
    .motion ⟨⟨0, 0, 100, 100⟩, ⟨1, .down, 0, 1000, 0, [.still 0 .stylus 50 50 1]⟩⟩, .client .nextPen,
    .client (.lock .pen), .client (.write .pen), .client (.write .pen), .client (.write .pen), .read true]

theorem firstStroke_clear (c : ReadConfig) (caps : Client.DeviceCaps) :
    Run.Steps (step c) (fun u e => ¬ u.Meets e) (start caps) firstStroke := by
  have hbye : ∀ e ∈ firstStroke, isGoodbye e = false := by
    decide
  exact clear_of_no_goodbye hbye (start caps) rfl

/-- An upright screen of 1920 by 1080. -/
def uprightRead : ReadConfig := ⟨⟨1, 0, 0, 1, 0, 0⟩, 1920, 1080, false⟩

/-- The stylus goes down. -/
theorem input_arrives_stroke :
    ((after uprightRead ⟨2560, 1600, 8191, -60, 60, 2, 3⟩ firstStroke).calls.filter isPen).Sublist
      ((after uprightRead ⟨2560, 1600, 8191, -60, 60, 2, 3⟩ firstStroke).activity.samples.map fun x =>
        .injectPen (uprightRead.penSample (.ofSample x))) :=
  (input_arrives (firstStroke_clear _ _)).2.1

end Uplink

end Penflow
