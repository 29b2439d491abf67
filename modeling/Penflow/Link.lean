import Penflow.Client.Handshake
import Penflow.Client.RoundTrip
import Penflow.Server.Grammar

/-!
# The PC and the tablet

The PC writes to the tablet over an ordered stream that loses nothing.  A step is one of the PC, or the
tablet receives a message that has arrived in full, or its surface is there; the tablet may be behind by
as much as it likes.

What the tablet has received is a prefix of the frames on the wire, as long as the PC does not cut a frame
(`Channel`), and the state of the tablet follows from it (`Agrees`).
-/

namespace Penflow

open Client

/-- The PC, the bytes on their way, and the tablet. -/
structure Link where
  server : Session
  unread : List UInt8
  client : ClientSession

inductive LinkEvent where
  | server (e : Event)
  | recv
  | surfaceReady

namespace Link

variable (c : SessionConfig) (hud : Bool)

def start : Link := ⟨.start c, [], .start⟩

/-- The bytes that the PC adds to the wire are on their way. -/
def serverStep (l : Link) (e : Event) : Link :=
  let server := l.server.step c e
  { l with
    server := server
    unread := l.unread ++ server.wireBytes.drop l.server.wireBytes.length }

/-- The tablet receives a message, or waits where too little has arrived. -/
def recv (l : Link) : Link :=
  if l.client.listening then
    match recvMsg [l.unread] with
    | (.error .endOfFile, _) => l
    | (r, unread) => { l with unread := unread.flatten, client := l.client.receive hud r }
  else l

def step (l : Link) : LinkEvent → Link
  | .server e => serverStep c l e
  | .recv => recv hud l
  | .surfaceReady => { l with client := l.client.surfaceReady }

def after (es : List LinkEvent) : Link := es.foldl (step c hud) (start c)

/-- The step cuts no frame of the PC, and its packet fits a frame. -/
def Sound (l : Link) : LinkEvent → Prop
  | .server e => ¬ Session.CutsFrame c l.server e ∧ ∀ pkt, e = .push pkt → pkt.Fits c
  | _ => True

/-! ### What has arrived -/

/-- The frames `got` are received, and what is on its way is the rest of the wire. -/
structure Channel (l : Link) (got : List Sent) : Prop where
  complete : ∀ x ∈ got, x.Complete
  rest : ∃ rest, l.server.wire = got ++ rest ∧ l.unread = rest.flatMap Sent.bytes

variable {c : SessionConfig} {hud : Bool} {l : Link} {got : List Sent}

theorem Channel.serverStep (hwf : l.server.Wf) (h : l.Channel got) (e : Event) :
    (serverStep c l e).Channel got := by
  obtain ⟨rest, hwire, hunread⟩ := h.rest
  obtain ⟨rest', hwire'⟩ := Session.step_complete (c := c) hwf e ⟨rest, hwire.symm⟩ h.complete
  refine ⟨h.complete, rest', hwire'.symm, ?_⟩
  obtain ⟨more, hmore⟩ := Session.step_wireBytes (c := c) hwf e
  show l.unread ++ (l.server.step c e).wireBytes.drop l.server.wireBytes.length = _
  rw [← hmore, List.drop_left, hunread]
  have hbytes : l.server.wireBytes ++ more = got.flatMap Sent.bytes ++ rest'.flatMap Sent.bytes := by
    rw [hmore, Session.wireBytes, ← hwire', List.flatMap_append]
  rw [Session.wireBytes, hwire, List.flatMap_append, List.append_assoc] at hbytes
  exact List.append_cancel_left hbytes

/-- **What a receive sees.**  The next frame of the wire, where it is out, and else nothing yet. -/
theorem Channel.recvMsg (hserver : l.server.Sound c) (h : l.Channel got) :
    (∃ x rest unread, l.server.wire = got ++ x :: rest ∧ x.Complete ∧
        recvMsg [l.unread] = (.ok x.frame, unread) ∧ unread.flatten = rest.flatMap Sent.bytes) ∨
      (∀ x rest, l.server.wire = got ++ x :: rest → ¬ x.Complete) ∧
        ∃ unread, recvMsg [l.unread] = (.error .endOfFile, unread) := by
  obtain ⟨rest, hwire, hunread⟩ := h.rest
  cases rest with
  | nil =>
      refine .inr ⟨fun x rest hwire' => ?_, ?_⟩
      · rw [hwire] at hwire'
        have hlen := congrArg List.length hwire'
        simp at hlen
      · rw [hunread]
        exact ⟨_, rfl⟩
  | cons x rest =>
      have hmem : x.frame ∈ l.server.script := by
        refine List.mem_append_left _ (List.mem_map_of_mem ?_)
        rw [hwire]
        exact List.mem_append_right got List.mem_cons_self
      have hfits := hserver.script_fits x.frame hmem
      by_cases hx : x.Complete
      · left
        have hflat : [l.unread].flatten = encodeFrame x.frame.msg_id x.frame.payload ++
            rest.flatMap Sent.bytes := by
          rw [List.flatten_singleton, hunread, List.flatMap_cons, hx]
          rfl
        obtain ⟨unread, hread, hflat'⟩ := recvMsg_encodeFrame hfits hflat
        exact ⟨x, rest, unread, hwire, hx, hread, hflat'⟩
      · refine .inr ⟨fun y rest' hwire' => ?_, ?_⟩
        · rw [hwire] at hwire'
          obtain ⟨rfl, -⟩ := List.cons.inj (List.append_cancel_left hwire')
          exact hx
        · obtain rfl := hserver.tidy.last_of_incomplete hwire hx
          have hshort : x.written < x.frame.encode.length := by
            rw [Sent.complete_iff] at hx
            omega
          rw [hunread, List.flatMap_singleton]
          exact recvMsg_short hfits hshort

/-! ### What the tablet makes of it -/

/-- The decoder behind the frames `got`: none without a screen, else one with the parameter sets of the
PC, fed with the video of the frames. -/
def Decodes (c : SessionConfig) (first : Option EncodedPacket) (got : List Frame) : Option Decoder → Prop
  | none => c.screen_off = true ∧ [c.helloFrame, c.configFrame] <+: got
  | some dec => ∃ pkt, first = some pkt ∧ [c.helloFrame, c.configFrame, c.csd0Frame pkt] <+: got ∧
      dec.csd0 = c.csd0 pkt.bytes ∧
        dec.fed.map .ok = (video got).map fun f => (decodeVideoFrame f.payload).map VideoFrameHeader.feed

/-- The tablet is where the frames `got` take it. -/
def Agrees (c : SessionConfig) (first : Option EncodedPacket) (got : List Frame) : Phase → Prop
  | .hello => got = []
  | .handshake _ => got = [c.helloFrame] ∨
      got = [c.helloFrame, c.configFrame] ∧ c.screen_off = false
  | .surface _ csd0 => ∃ pkt, first = some pkt ∧
      got = [c.helloFrame, c.configFrame, c.csd0Frame pkt] ∧ csd0 = c.csd0 pkt.bytes
  | .reading dec => Decodes c first got dec
  | .ended dec => Decodes c first got dec
  | .failed => False

/-- The next frame of a list in two parts is of the first one, or that is all there. -/
theorem next_of_append {α : Type} {got hs rest : List α} {f : α} (h : got ++ [f] <+: hs ++ rest) :
    got ++ [f] <+: hs ∨ hs <+: got ∧ f ∈ rest := by
  obtain ⟨more, hmore⟩ := h
  rcases List.append_eq_append_iff.1 hmore with ⟨ys, hhs, -⟩ | ⟨ys, hgot, hrest⟩
  · exact .inl ⟨ys, hhs.symm⟩
  · rcases List.eq_nil_or_concat ys with rfl | ⟨zs, z, rfl⟩
    · left
      rw [hgot, List.append_nil]
    · right
      rw [List.concat_eq_append, ← List.append_assoc] at hgot
      obtain ⟨rfl, hz⟩ := List.append_inj' hgot rfl
      refine ⟨⟨zs, rfl⟩, ?_⟩
      rw [hrest, (List.cons.inj hz).1]
      simp

/-- The frame that comes next. -/
theorem next_frame (hserver : l.server.Sound c) {got : List Frame} {f : Frame}
    (h : got ++ [f] <+: l.server.script) :
    got ++ [f] <+: handshake c l.server.first ∨ handshake c l.server.first <+: got ∧ Later f := by
  have hg := hserver.grammar
  have hserving : RunPhase.serving.rank ≤ l.server.run.rank →
      got ++ [f] <+: handshake c l.server.first ∨ handshake c l.server.first <+: got ∧ Later f := by
    intro hrank
    obtain ⟨-, rest, hrest, hlater⟩ := hg.serving hrank
    rw [hrest] at h
    exact (next_of_append h).imp_right fun hnext => ⟨hnext.1, hlater f hnext.2⟩
  cases hrun : l.server.run with
  | awaitKeyframe =>
      rw [hg.awaiting hrun] at h
      exact absurd (List.prefix_nil.1 h) (by simp)
  | greeting => exact .inl (hg.greeting hrun ▸ h)
  | failed => exact .inl (h.trans (hg.failed hrun))
  | _ => exact hserving (by simp [hrun, RunPhase.rank])

theorem screenOff_flags : c.clientConfig.flags.toInt32 &&& clientCfgFlagScreenOff.toInt32 != 0 ↔
    c.screen_off = true := by
  rw [SessionConfig.clientConfig]
  cases c.screen_off <;> cases c.hud_enabled <;> decide

/-- A frame that is no video leaves the decoder as it is. -/
theorem Decodes.other {first : Option EncodedPacket} {got : List Frame} {dec : Option Decoder}
    (h : Decodes c first got dec) {f : Frame} (hf : f.msg_id ≠ msgVideoFrame) :
    Decodes c first (got ++ [f]) dec := by
  cases dec with
  | none => exact ⟨h.1, h.2.trans (List.prefix_append _ _)⟩
  | some dec =>
      obtain ⟨pkt, hfirst, hfront, hcsd0, hfed⟩ := h
      refine ⟨pkt, hfirst, hfront.trans (List.prefix_append _ _), hcsd0, ?_⟩
      have hnone : video [f] = [] := video_of_none fun g hg => by
        rw [List.mem_singleton.1 hg]
        exact hf
      rw [hfed, video_append, hnone, List.append_nil]

theorem receive_video {first : Option EncodedPacket} {got : List Frame} {dec : Option Decoder}
    (h : Decodes c first got dec) (m : Penflow.VideoFrame) {s : ClientSession}
    (hs : s.phase = .reading dec) :
    Agrees c first (got ++ [⟨msgVideoFrame, m.encode⟩])
      (s.receiveFrame hud dec ⟨msgVideoFrame, m.encode⟩).phase := by
  unfold ClientSession.receiveFrame
  rw [if_pos rfl]
  cases dec with
  | none =>
      show Agrees c first _ s.phase
      rw [hs]
      exact ⟨h.1, h.2.trans (List.prefix_append _ _)⟩
  | some dec =>
      have hdecode := decodeVideoFrame_encode m
      simp only [hdecode]
      obtain ⟨pkt, hfirst, hfront, hcsd0, hfed⟩ := h
      refine ⟨pkt, hfirst, hfront.trans (List.prefix_append _ _), hcsd0, ?_⟩
      have hone : video [⟨msgVideoFrame, m.encode⟩] = [⟨msgVideoFrame, m.encode⟩] := by simp [video]
      rw [Decoder.feed, List.map_append, hfed, video_append, hone, List.map_append]
      simp [hdecode, Except.map]

/-- A later frame goes on with the decoder. -/
theorem receive_later {first : Option EncodedPacket} {got : List Frame} {dec : Option Decoder}
    (h : Decodes c first got dec) {f : Frame} (hf : Later f) {s : ClientSession}
    (hs : s.phase = .reading dec) : Agrees c first (got ++ [f]) (s.receiveFrame hud dec f).phase := by
  cases hf with
  | video pkt => exact receive_video h _ hs
  | telemetry tel =>
      have hdecode := decodeTelemetry_encode tel
      have hsame : s.receiveFrame hud dec (telemetryFrame tel) = s := by
        cases hud <;> simp [ClientSession.receiveFrame, telemetryFrame, hdecode, msgTelemetry, msgVideoFrame]
      rw [hsame, hs]
      exact h.other (by decide : msgTelemetry ≠ msgVideoFrame)
  | resp resp =>
      have hdecode := decodeTimeSyncResp_encode resp
      have hsame : s.receiveFrame hud dec (respFrame resp) = s := by
        simp [ClientSession.receiveFrame, respFrame, hdecode, msgTelemetry, msgVideoFrame, msgTimeSyncResp]
      rw [hsame, hs]
      exact h.other (by decide : msgTimeSyncResp ≠ msgVideoFrame)
  | goodbye => exact h.other (by decide : msgPcGoodbye ≠ msgVideoFrame)

theorem receive_hello {f : Frame} {first : Option EncodedPacket}
    (hnext : [f] <+: handshake c first ∨ handshake c first <+: [] ∧ Later f) (s : ClientSession) :
    Agrees c first [f] (s.receiveHello f).phase ∧ (s.receiveHello f).dropped = s.dropped := by
  obtain rfl : f = c.helloFrame := by
    rcases hnext with hnext | ⟨hnil, -⟩
    · cases first <;> simpa [handshake] using hnext
    · exact absurd (List.prefix_nil.1 hnil) (handshake_ne_nil c first)
  have hdecode : decodeHelloPc c.helloFrame.payload = _ := decodeHelloPc_encode c.helloPc
  have hid : c.helloFrame.msg_id = msgHelloPc := rfl
  rw [ClientSession.receiveHello, if_pos hid, hdecode]
  exact ⟨.inl rfl, rfl⟩

/-- The loop that waits for `VIDEO_CONFIG` takes the configuration, and with a screen the parameter
sets. -/
theorem receive_config {hello : Client.HelloPc} {got : List Frame} {f : Frame} {first : Option EncodedPacket}
    (hmode : first = none ↔ c.screen_off = true)
    (h : Agrees c first got (.handshake hello))
    (hnext : got ++ [f] <+: handshake c first ∨ handshake c first <+: got ∧ Later f)
    {s : ClientSession} (hs : s.phase = .handshake hello) :
    Agrees c first (got ++ [f]) (s.receiveConfig hello f).phase ∧
      (s.receiveConfig hello f).dropped = s.dropped := by
  rcases h with rfl | ⟨rfl, hoff⟩
  · obtain rfl : f = c.configFrame := by
      rcases hnext with hnext | ⟨hshort, -⟩
      · cases first <;> simpa [handshake] using hnext
      · have hlen := hshort.length_le
        cases first <;> simp [handshake] at hlen
    have hdecode : decodeClientConfig c.configFrame.payload = _ := decodeClientConfig_encode c.clientConfig
    have hid : c.configFrame.msg_id = msgClientConfig := rfl
    have hother : c.configFrame.msg_id ≠ msgVideoConfig := by
      rw [hid]
      decide
    rw [ClientSession.receiveConfig, if_neg hother, if_pos hid, hdecode]
    by_cases hoff : c.screen_off = true
    · have hflag : (⟨c.clientConfig.flags.toInt32⟩ : Client.ClientConfig).screenOff = true :=
        screenOff_flags.2 hoff
      simp only [hflag, if_true]
      exact ⟨⟨hoff, List.prefix_rfl⟩, trivial⟩
    · have hflag : (⟨c.clientConfig.flags.toInt32⟩ : Client.ClientConfig).screenOff = false :=
        Bool.eq_false_iff.2 fun h => hoff (screenOff_flags.1 h)
      simp only [hflag, Bool.false_eq_true, if_false, hs]
      exact ⟨.inr ⟨rfl, Bool.eq_false_iff.2 hoff⟩, trivial⟩
  · cases hfirst : first with
    | none =>
        rw [hmode.1 hfirst] at hoff
        cases hoff
    | some pkt =>
        rw [hfirst] at hnext
        obtain rfl : f = c.csd0Frame pkt := by
          rcases hnext with hnext | ⟨hshort, -⟩
          · simpa [handshake] using hnext
          · have hlen := hshort.length_le
            simp [handshake] at hlen
        have hid : (c.csd0Frame pkt).msg_id = msgVideoConfig := rfl
        rw [ClientSession.receiveConfig, if_pos hid]
        exact ⟨⟨pkt, rfl, rfl, rfl⟩, rfl⟩

theorem receiveFrame_dropped (s : ClientSession) (dec : Option Decoder) (f : Frame) :
    (s.receiveFrame hud dec f).dropped = s.dropped := by
  unfold ClientSession.receiveFrame
  repeat' split
  all_goals rfl

/-- Of the handshake only the first keyframe comes behind what ends the loop. -/
theorem last_of_handshake {first : Option EncodedPacket} {got : List Frame} {f : Frame}
    {dec : Option Decoder} (hmode : first = none ↔ c.screen_off = true) (h : Decodes c first got dec)
    (hnext : got ++ [f] <+: handshake c first) : ∃ pkt, f = firstFrame pkt := by
  cases dec with
  | none =>
      obtain ⟨hoff, hfront⟩ := h
      have hlen := hfront.length_le
      have hlen' := hnext.length_le
      rw [hmode.2 hoff] at hlen'
      simp [handshake] at hlen hlen'
      omega
  | some dec =>
      obtain ⟨pkt, rfl, ⟨more, rfl⟩, -⟩ := h
      have hlast : more ++ [f] <+: [firstFrame pkt] := by
        have hsplit : handshake c (some pkt) =
            [c.helloFrame, c.configFrame, c.csd0Frame pkt] ++ [firstFrame pkt] := rfl
        rw [hsplit, List.append_assoc] at hnext
        exact (List.prefix_append_right_inj _).1 hnext
      refine ⟨pkt, ?_⟩
      have hmem : f ∈ [firstFrame pkt] := hlast.subset (List.mem_append_right more List.mem_cons_self)
      exact List.mem_singleton.1 hmem

/-- **The tablet receives the next frame.** -/
theorem receive_agrees (hud : Bool) (hserver : l.server.Sound c) {got : List Frame} {f : Frame}
    (hgot : got ++ [f] <+: l.server.script) {s : ClientSession}
    (h : Agrees c l.server.first got s.phase) (hlistening : s.listening = true) :
    Agrees c l.server.first (got ++ [f]) (s.receive hud (.ok f)).phase ∧
      (s.receive hud (.ok f)).dropped = s.dropped := by
  have hnext := next_frame hserver hgot
  have hne : l.server.script ≠ [] := by
    intro hnil
    rw [hnil] at hgot
    exact absurd (List.prefix_nil.1 hgot) (by simp)
  have hmode := hserver.grammar.mode hne
  unfold ClientSession.receive
  cases hphase : s.phase with
  | hello =>
      rw [hphase] at h
      obtain rfl : got = [] := h
      exact receive_hello hnext s
  | handshake hello =>
      rw [hphase] at h
      exact receive_config hmode h hnext hphase
  | surface hello csd0 => simp [ClientSession.listening, hphase] at hlistening
  | reading dec =>
      rw [hphase] at h
      refine ⟨?_, receiveFrame_dropped s dec f⟩
      rcases hnext with hnext | ⟨-, hlater⟩
      · -- only the first keyframe of the handshake is left
        obtain ⟨pkt, hf⟩ := last_of_handshake hmode h hnext
        rw [hf]
        exact receive_video h _ hphase
      · exact receive_later h hlater hphase
  | ended dec => simp [ClientSession.listening, hphase] at hlistening
  | failed => simp [ClientSession.listening, hphase] at hlistening

/-! ### Step by step -/

/-- The tablet is where the frames it has received take it, and its handshake loop has dropped none. -/
structure Agreement (c : SessionConfig) (l : Link) : Prop where
  server : l.server.Sound c
  client : ∃ got, l.Channel got ∧ Agrees c l.server.first (got.map (·.frame)) l.client.phase
  dropped : l.client.dropped = []

theorem start_agreement : (start c).Agreement c where
  server := Session.start_sound
  client := ⟨[], ⟨fun _ hx => (List.not_mem_nil hx).elim, [], rfl, rfl⟩, rfl⟩
  dropped := rfl

theorem serverStep_agreement (h : l.Agreement c) {e : Event} (hsound : l.Sound c (.server e)) :
    (serverStep c l e).Agreement c := by
  obtain ⟨got, hchannel, hagrees⟩ := h.client
  refine ⟨Session.step_sound h.server hsound.1 hsound.2, ⟨got, ?_, ?_⟩, h.dropped⟩
  · exact hchannel.serverStep h.server.wf e
  · show Agrees c (l.server.step c e).first (got.map (·.frame)) l.client.phase
    by_cases hrun : l.server.run = .awaitKeyframe
    · -- nothing has been sent, so that the tablet waits for the hello
      obtain ⟨rest, hwire, -⟩ := hchannel.rest
      have hscript := h.server.grammar.awaiting hrun
      rw [Session.script, hwire, List.map_append, List.append_assoc] at hscript
      have hnil := (List.append_eq_nil_iff.1 hscript).1
      rw [hnil] at hagrees ⊢
      cases hphase : l.client.phase with
      | hello => rfl
      | handshake hello => simp [Agrees, hphase] at hagrees
      | surface hello csd0 => simp [Agrees, hphase] at hagrees
      | reading dec => cases dec <;> simp [Agrees, Decodes, hphase] at hagrees
      | ended dec => cases dec <;> simp [Agrees, Decodes, hphase] at hagrees
      | failed => simp [Agrees, hphase] at hagrees
    · rw [Session.step_first h.server.flow hrun e]
      exact hagrees

/-- What a receive does to a tablet that listens. -/
theorem recv_cases (hud : Bool) (h : l.Agreement c) (got : List Sent) (hchannel : l.Channel got)
    (hlistening : l.client.listening = true) :
    (∃ x rest, l.server.wire = got ++ x :: rest ∧ x.Complete ∧
        (recv hud l).Channel (got ++ [x]) ∧ (recv hud l).client = l.client.receive hud (.ok x.frame)) ∨
      (∀ x rest, l.server.wire = got ++ x :: rest → ¬ x.Complete) ∧ recv hud l = l := by
  rw [recv, if_pos hlistening]
  rcases hchannel.recvMsg h.server with ⟨x, rest, unread, hwire, hx, hrecv, hflat⟩ | ⟨hnone, unread, hrecv⟩
  · left
    rw [hrecv]
    refine ⟨x, rest, hwire, hx, ⟨?_, rest, ?_, hflat⟩, rfl⟩
    · intro y hy
      rcases List.mem_append.1 hy with hy | hy
      · exact hchannel.complete y hy
      · rw [List.mem_singleton.1 hy]
        exact hx
    · show l.server.wire = _
      rw [hwire, List.append_assoc]
      rfl
  · rw [hrecv]
    exact .inr ⟨hnone, rfl⟩

theorem recv_server (hud : Bool) (l : Link) : (recv hud l).server = l.server := by
  unfold recv
  repeat' split
  all_goals rfl

theorem recv_agreement (h : l.Agreement c) : (recv hud l).Agreement c := by
  by_cases hlistening : l.client.listening = true
  · obtain ⟨got, hchannel, hagrees⟩ := h.client
    rcases recv_cases hud h got hchannel hlistening with
      ⟨x, rest, hwire, -, hchannel', hclient⟩ | ⟨-, hsame⟩
    · have hnext : got.map (·.frame) ++ [x.frame] <+: l.server.script := by
        rw [Session.script, hwire]
        simp
      obtain ⟨hagrees', hdropped⟩ := receive_agrees hud h.server hnext hagrees hlistening
      refine ⟨?_, ⟨got ++ [x], hchannel', ?_⟩, ?_⟩
      · rw [recv_server hud l]
        exact h.server
      · rw [recv_server hud l, hclient, List.map_append]
        exact hagrees'
      · rw [hclient, hdropped]
        exact h.dropped
    · rw [hsame]
      exact h
  · rw [recv, if_neg hlistening]
    exact h

theorem surfaceReady_agrees {first : Option EncodedPacket} {got : List Frame} {s : ClientSession}
    (h : Agrees c first got s.phase) : Agrees c first got s.surfaceReady.phase := by
  unfold ClientSession.surfaceReady
  split
  case h_1 hello csd0 hphase =>
    rw [hphase] at h
    obtain ⟨pkt, hfirst, rfl, hcsd0⟩ := h
    exact ⟨pkt, hfirst, List.prefix_rfl, hcsd0, rfl⟩
  case h_2 => exact h

theorem surfaceReady_dropped (s : ClientSession) : s.surfaceReady.dropped = s.dropped := by
  unfold ClientSession.surfaceReady
  split <;> rfl

theorem step_agreement (l : Link) (e : LinkEvent) (h : l.Agreement c) (hsound : l.Sound c e) :
    (l.step c hud e).Agreement c := by
  cases e with
  | server e => exact serverStep_agreement h hsound
  | recv => exact recv_agreement h
  | surfaceReady =>
      obtain ⟨got, hchannel, hagrees⟩ := h.client
      refine ⟨h.server, ⟨got, ⟨hchannel.complete, hchannel.rest⟩, surfaceReady_agrees hagrees⟩, ?_⟩
      exact (surfaceReady_dropped l.client).trans h.dropped

theorem after_agreement {es : List LinkEvent} (h : Run.Steps (step c hud) (Sound c) (start c) es) :
    (after c hud es).Agreement c :=
  Run.Steps.invariant step_agreement start_agreement h

/-! ### The handshake ends -/

/-- A tablet that is still in its handshake loop has received `n` messages. -/
def Waits (c : SessionConfig) (l : Link) (n : ℕ) : Prop :=
  l.client.inHandshake = true →
    ∃ got, l.Channel got ∧ Agrees c l.server.first (got.map (·.frame)) l.client.phase ∧ n ≤ got.length

/-- The messages that the tablet asks for. -/
def receives (es : List LinkEvent) : ℕ := es.countP fun e => e matches .recv

theorem receives_cons (e : LinkEvent) (es : List LinkEvent) :
    receives (e :: es) = receives [e] + receives es := by
  cases e <;> simp [receives, Nat.add_comm]

theorem start_waits (h : l.Agreement c) : l.Waits c 0 := by
  intro _
  obtain ⟨got, hchannel, hagrees⟩ := h.client
  exact ⟨got, hchannel, hagrees, Nat.zero_le _⟩

/-- In the loop the tablet has received a message or two, and not the whole handshake. -/
theorem Agrees.lt_handshake {first : Option EncodedPacket} {got : List Frame} {s : ClientSession}
    (hmode : first = none ↔ c.screen_off = true) (h : Agrees c first got s.phase)
    (hs : s.inHandshake = true) : got.length < (handshake c first).length := by
  cases hphase : s.phase with
  | hello =>
      rw [hphase] at h
      obtain rfl : got = [] := h
      exact List.length_pos_of_ne_nil (handshake_ne_nil c first)
  | handshake hello =>
      rw [hphase] at h
      rcases h with rfl | ⟨rfl, hon⟩
      · cases first <;> simp [handshake]
      · cases first with
        | none =>
            rw [hmode.1 rfl] at hon
            cases hon
        | some pkt => simp [handshake]
  | _ => simp [ClientSession.inHandshake, hphase] at hs

theorem Agrees.length_le {first : Option EncodedPacket} {got : List Frame} {s : ClientSession}
    (h : Agrees c first got s.phase) (hs : s.inHandshake = true) : got.length ≤ 2 := by
  cases hphase : s.phase with
  | hello =>
      rw [hphase] at h
      obtain rfl : got = [] := h
      exact Nat.zero_le 2
  | handshake hello =>
      rw [hphase] at h
      rcases h with rfl | ⟨rfl, -⟩
      · exact Nat.le_succ 1
      · exact le_rfl
  | _ => simp [ClientSession.inHandshake, hphase] at hs

theorem listening_of_inHandshake {s : ClientSession} (h : s.inHandshake = true) :
    s.listening = true := by
  cases hphase : s.phase <;> simp_all [ClientSession.inHandshake, ClientSession.listening]

/-- The loop is not entered again. -/
theorem inHandshake_of_receive {s : ClientSession} {r : Except Failure Frame}
    (h : (s.receive hud r).inHandshake = true) : s.inHandshake = true := by
  cases hphase : s.phase with
  | hello => simp [ClientSession.inHandshake, hphase]
  | handshake hello => simp [ClientSession.inHandshake, hphase]
  | surface hello csd0 => simp [ClientSession.receive, hphase, ClientSession.inHandshake] at h
  | reading dec =>
      unfold ClientSession.receive ClientSession.receiveFrame ClientSession.fail at h
      rw [hphase] at h
      revert h
      cases r <;> (dsimp only; repeat' split) <;> simp [ClientSession.inHandshake, hphase]
  | ended dec => simp [ClientSession.receive, hphase, ClientSession.inHandshake] at h
  | failed => simp [ClientSession.receive, hphase, ClientSession.inHandshake] at h

/-- **A receive takes the next message of the handshake.** -/
theorem recv_waits (h : l.Agreement c) (hrank : RunPhase.serving.rank ≤ l.server.run.rank) {n : ℕ}
    (hn : l.Waits c n) : (recv hud l).Waits c (n + 1) := by
  intro hwaits
  have hbefore : l.client.inHandshake = true := by
    by_cases hlistening : l.client.listening = true
    · obtain ⟨got, hchannel, -⟩ := h.client
      rcases recv_cases hud h got hchannel hlistening with ⟨x, rest, -, -, -, hclient⟩ | ⟨-, hsame⟩
      · rw [hclient] at hwaits
        exact inHandshake_of_receive hwaits
      · rw [hsame] at hwaits
        exact hwaits
    · rw [recv, if_neg hlistening] at hwaits
      exact hwaits
  have hlistening := listening_of_inHandshake hbefore
  obtain ⟨got, hchannel, hagrees, hlen⟩ := hn hbefore
  rcases recv_cases hud h got hchannel hlistening with
    ⟨x, rest, hwire, -, hchannel', hclient⟩ | ⟨hnone, -⟩
  · have hnext : got.map (·.frame) ++ [x.frame] <+: l.server.script := by
      rw [Session.script, hwire]
      simp
    have hagrees' := (receive_agrees hud h.server hnext hagrees hlistening).1
    refine ⟨got ++ [x], hchannel', ?_, ?_⟩
    · rw [recv_server hud l, hclient, List.map_append]
      exact hagrees'
    · rw [List.length_append]
      exact Nat.add_le_add_right hlen 1
  · -- the whole handshake is out, and the tablet has not received all of it
    obtain ⟨out, ⟨more, hout⟩, hcomplete, hframes⟩ := h.server.greeted.out hrank
    obtain ⟨rest, hrest, -⟩ := hchannel.rest
    have hne : l.server.script ≠ [] := by
      obtain ⟨-, rest, hscript, -⟩ := h.server.grammar.serving hrank
      rw [hscript]
      exact List.append_ne_nil_of_left_ne_nil (handshake_ne_nil c _) rest
    have hshort : got.length < out.length := by
      have hlt := hagrees.lt_handshake (h.server.grammar.mode hne) hbefore
      rw [← hframes, List.length_map, List.length_map] at hlt
      exact hlt
    have hfront : got <+: out := by
      have hgot : got <+: l.server.wire := ⟨rest, hrest.symm⟩
      exact List.prefix_of_prefix_length_le hgot ⟨more, hout⟩ (le_of_lt hshort)
    obtain ⟨tail, rfl⟩ := hfront
    cases tail with
    | nil =>
        rw [List.append_nil] at hshort
        exact absurd hshort (lt_irrefl _)
    | cons x tail =>
        refine absurd (hcomplete x (List.mem_append_right got List.mem_cons_self)) (hnone x (tail ++ more) ?_)
        rw [← hout, List.append_assoc]
        rfl

/-- A step that is no receive takes no message. -/
theorem step_waits (h : l.Agreement c) (hrank : RunPhase.serving.rank ≤ l.server.run.rank) {n : ℕ}
    (hn : l.Waits c n) (e : LinkEvent) : (l.step c hud e).Waits c (n + receives [e]) := by
  cases e with
  | recv => exact recv_waits h hrank hn
  | server e =>
      intro hwaits
      obtain ⟨got, hchannel, hagrees, hlen⟩ := hn hwaits
      refine ⟨got, hchannel.serverStep h.server.wf e, ?_, hlen⟩
      have hrun : l.server.run ≠ .awaitKeyframe := by
        intro hrun
        rw [hrun] at hrank
        exact absurd hrank (by decide)
      show Agrees c (l.server.step c e).first (got.map (·.frame)) l.client.phase
      rw [Session.step_first h.server.flow hrun e]
      exact hagrees
  | surfaceReady =>
      intro hwaits
      have hsame : l.client.surfaceReady = l.client := by
        unfold ClientSession.surfaceReady
        split
        case h_1 hello csd0 hphase =>
          have hwaits' : l.client.surfaceReady.inHandshake = true := hwaits
          simp [ClientSession.surfaceReady, hphase, ClientSession.inHandshake] at hwaits'
        case h_2 => rfl
      show ∃ got, Channel _ got ∧ Agrees c l.server.first _ l.client.surfaceReady.phase ∧ _
      rw [hsame]
      have hbefore : l.client.inHandshake = true := hsame ▸ hwaits
      obtain ⟨got, hchannel, hagrees, hlen⟩ := hn hbefore
      exact ⟨got, ⟨hchannel.complete, hchannel.rest⟩, hagrees, hlen⟩

theorem step_server_rank (hud : Bool) (h : l.Agreement c) (e : LinkEvent) :
    l.server.run.rank ≤ (l.step c hud e).server.run.rank := by
  cases e with
  | server e => exact Session.step_rank h.server.wf e
  | recv => exact le_of_eq (congrArg (·.run.rank) (recv_server hud l).symm)
  | surfaceReady => exact le_rfl

theorem run_waits {es : List LinkEvent} (h : l.Agreement c)
    (hrank : RunPhase.serving.rank ≤ l.server.run.rank) {n : ℕ} (hn : l.Waits c n)
    (hes : Run.Steps (step c hud) (Sound c) l es) :
    (es.foldl (step c hud) l).Waits c (n + receives es) := by
  induction es generalizing l n with
  | nil => exact hn
  | cons e es ih =>
      rw [receives_cons, ← Nat.add_assoc]
      have hrank' := le_trans hrank (step_server_rank hud h e)
      exact ih (step_agreement l e h hes.1) hrank' (step_waits h hrank hn e) hes.2

/-! ### What the tablet has -/

/-- What the decoder is fed of a frame. -/
def fedOf (f : Frame) : Except Failure (Int64 × List UInt8 × Bool) :=
  (decodeVideoFrame f.payload).map VideoFrameHeader.feed

theorem Channel.prefix_script (h : l.Channel got) : got.map (·.frame) <+: l.server.script := by
  obtain ⟨rest, hwire, -⟩ := h.rest
  rw [Session.script, hwire, List.map_append, List.append_assoc]
  exact List.prefix_append _ _

/-- The PC sends its parameter sets once. -/
theorem payload_of_config {s : Session} (h : s.Grammar c) {pkt : EncodedPacket} (hfirst : s.first = some pkt)
    {f : Frame} (hf : f ∈ s.script) (hid : f.msg_id = msgVideoConfig) : f.payload = c.csd0 pkt.bytes := by
  rcases h.mem_script hf with hshake | hlater
  · rw [hfirst] at hshake
    simp only [handshake, List.mem_cons, List.not_mem_nil, or_false] at hshake
    rcases hshake with rfl | rfl | rfl | rfl
    · exact absurd hid (by decide : msgHelloPc ≠ msgVideoConfig)
    · exact absurd hid (by decide : msgClientConfig ≠ msgVideoConfig)
    · rfl
    · exact absurd hid (by decide : msgVideoFrame ≠ msgVideoConfig)
  · cases hlater with
    | video pkt => exact absurd hid (by decide : msgVideoFrame ≠ msgVideoConfig)
    | telemetry tel => exact absurd hid (by decide : msgTelemetry ≠ msgVideoConfig)
    | resp resp => exact absurd hid (by decide : msgTimeSyncResp ≠ msgVideoConfig)
    | goodbye => exact absurd hid (by decide : msgPcGoodbye ≠ msgVideoConfig)

/-- The PC and the tablet agree. -/
structure InStep (c : SessionConfig) (l : Link) : Prop where
  /-- the handshake loop has consumed no video -/
  no_video_dropped : ∀ f ∈ l.client.dropped, f.msg_id ≠ msgVideoFrame
  going : l.client.phase ≠ .failed
  /-- behind its handshake the tablet has a decoder just when the PC has a screen -/
  decoder_iff : ∀ dec, l.client.phase = .reading dec ∨ l.client.phase = .ended dec →
    (dec.isSome ↔ c.screen_off = false)
  /-- the decoder is configured with the `VIDEO_CONFIG` -/
  csd0 : ∀ dec ∈ l.client.decoder, ⟨msgVideoConfig, dec.csd0⟩ ∈ l.server.wire.map (·.frame) ∧
    ∀ f ∈ l.server.wire.map (·.frame), f.msg_id = msgVideoConfig → f.payload = dec.csd0
  /-- it has been fed with the video, in order and from the start -/
  fed : ∀ dec ∈ l.client.decoder,
    dec.fed.map .ok <+: (video (l.server.wire.map (·.frame))).map fedOf
  /-- and the first frame of it is a keyframe -/
  keyframe : ∀ dec ∈ l.client.decoder, ∀ x ∈ dec.fed.head?, x.2.2 = true

theorem fedOf_firstFrame (pkt : EncodedPacket) : fedOf (firstFrame pkt) = .ok (pkt.pts_ns, pkt.bytes, true) := by
  have hkeyframe : (ubyte frameFlagKeyframe &&& ubyte frameFlagKeyframe != 0) = true := by decide
  rw [fedOf, firstFrame, decodeVideoFrame_encode, ← hkeyframe]
  rfl

theorem Agreement.decodes (h : l.Agreement c) {dec : Option Decoder}
    (hphase : l.client.phase = .reading dec ∨ l.client.phase = .ended dec) :
    ∃ got, l.Channel got ∧ Decodes c l.server.first (got.map (·.frame)) dec := by
  obtain ⟨got, hchannel, hagrees⟩ := h.client
  rcases hphase with hphase | hphase
  all_goals
    rw [hphase] at hagrees
    exact ⟨got, hchannel, hagrees⟩

theorem Agreement.decoder (h : l.Agreement c) {dec : Decoder} (hdec : l.client.decoder = some dec) :
    ∃ got, l.Channel got ∧ Decodes c l.server.first (got.map (·.frame)) (some dec) := by
  apply h.decodes
  cases hphase : l.client.phase <;> simp_all [ClientSession.decoder]

theorem Agreement.inStep (h : l.Agreement c) : l.InStep c where
  no_video_dropped := by
    intro f hf
    rw [h.dropped] at hf
    cases hf
  going := by
    intro hphase
    obtain ⟨got, -, hagrees⟩ := h.client
    rw [hphase] at hagrees
    exact hagrees
  decoder_iff := by
    intro dec hphase
    obtain ⟨got, hchannel, hdecodes⟩ := h.decodes hphase
    cases dec with
    | none => simp [hdecodes.1]
    | some dec =>
        obtain ⟨pkt, hfirst, hfront, -⟩ := hdecodes
        have hne : l.server.script ≠ [] := by
          intro hnil
          have hscript := hfront.trans hchannel.prefix_script
          rw [hnil] at hscript
          exact absurd (List.prefix_nil.1 hscript) (by simp)
        have hmode := h.server.grammar.mode hne
        rw [hfirst] at hmode
        simpa using hmode
  csd0 := by
    intro dec hdec
    obtain ⟨got, hchannel, pkt, hfirst, hfront, hcsd0, -⟩ := h.decoder hdec
    rw [hcsd0]
    constructor
    · obtain ⟨rest, hwire, -⟩ := hchannel.rest
      have hmem : c.csd0Frame pkt ∈ got.map (·.frame) := hfront.subset (by simp)
      rw [hwire, List.map_append]
      exact List.mem_append_left _ hmem
    · intro f hf hid
      exact payload_of_config h.server.grammar hfirst (List.mem_append_left _ hf) hid
  fed := by
    intro dec hdec
    obtain ⟨got, hchannel, pkt, -, -, -, hfed⟩ := h.decoder hdec
    obtain ⟨rest, hwire, -⟩ := hchannel.rest
    rw [hfed, hwire, List.map_append, video_append, List.map_append]
    exact List.prefix_append _ _
  keyframe := by
    intro dec hdec x hx
    obtain ⟨got, hchannel, pkt, -, -, -, hfed⟩ := h.decoder hdec
    have hvideo : video (got.map (·.frame)) <+: videoFrames (taken l.server.departed) :=
      (hchannel.prefix_script.filter _).trans h.server.video.isFront
    -- the first frame of the video is that of the handshake
    cases hgot : video (got.map (·.frame)) with
    | nil =>
        rw [hgot, List.map_nil, List.map_eq_nil_iff] at hfed
        rw [hfed] at hx
        cases hx
    | cons f fs =>
        rw [hgot] at hvideo hfed
        cases hfeds : dec.fed with
        | nil =>
            rw [hfeds] at hx
            cases hx
        | cons y ys =>
            rw [hfeds] at hx hfed
            obtain rfl : y = x := Option.some.inj hx
            cases htaken : taken l.server.departed with
            | nil =>
                rw [htaken] at hvideo
                exact absurd (List.prefix_nil.1 hvideo) (by simp)
            | cons first rest =>
                rw [htaken] at hvideo
                obtain rfl : f = firstFrame first := (List.cons_prefix_cons.1 hvideo).1
                have hy : .ok y = fedOf (firstFrame first) := (List.cons.inj hfed).1
                rw [fedOf_firstFrame] at hy
                cases hy
                rfl

/-- **The handshake.**  In a run that cuts no frame, whose packets fit, the PC and the tablet are in step in
every state; and once the PC serves, the tablet leaves its handshake loop with the third message it asks
for. -/
theorem handshake_agreement {es : List LinkEvent}
    (h : Run.Steps (step c hud) (Sound c) (start c) es) : (after c hud es).InStep c ∧
      ∀ more, Run.Steps (step c hud) (Sound c) (after c hud es) more →
        RunPhase.serving.rank ≤ (after c hud es).server.run.rank → 3 ≤ receives more →
          (after c hud (es ++ more)).client.inHandshake = false := by
  have hagreement := after_agreement h
  refine ⟨hagreement.inStep, fun more hmore hrank hthree => ?_⟩
  have hwaits := run_waits hagreement hrank (start_waits hagreement) hmore
  rw [after, List.foldl_append, Bool.eq_false_iff]
  intro hloop
  obtain ⟨got, -, hagrees, hlen⟩ := hwaits hloop
  have hle := hagrees.length_le hloop
  rw [List.length_map] at hle
  omega

/-- A session in which the first keyframe is on its way when the tablet asks for its handshake. -/
theorem handshake_agreement_fullHd :
    (after (.fullHd false 4) false [.server (.push (.idr 1)), .server (.popTurn false),
        .server (.keyframe false), .server (.write 16), .recv, .server (.write 9), .server (.write 10),
        .server (.write 24), .server (.flush true)]).InStep (.fullHd false 4) ∧
      (after (.fullHd false 4) false ([.server (.push (.idr 1)), .server (.popTurn false),
        .server (.keyframe false), .server (.write 16), .recv, .server (.write 9), .server (.write 10),
        .server (.write 24), .server (.flush true)] ++ [.recv, .recv, .recv])).client.inHandshake =
          false := by
  have hwrite : ∀ e : Event, e ≠ .finish → e ≠ .cancel →
      ∀ s, ¬ Session.CutsFrame (.fullHd false 4) s e := by
    rintro e hfinish hcancel s ⟨⟨rfl, -⟩ | ⟨rfl, -⟩, -⟩
    · exact hcancel rfl
    · exact hfinish rfl
  have hfits : ∀ pkt, Event.push (.idr 1) = .push pkt → pkt.Fits (.fullHd false 4) := by
    intro pkt hpkt
    cases hpkt
    exact ⟨by decide, by decide⟩
  obtain ⟨hinStep, hleaves⟩ := @handshake_agreement (.fullHd false 4) false
    [.server (.push (.idr 1)), .server (.popTurn false), .server (.keyframe false),
      .server (.write 16), .recv, .server (.write 9), .server (.write 10), .server (.write 24),
      .server (.flush true)]
    ⟨⟨hwrite _ (by decide) (by decide) _, hfits⟩, ⟨hwrite _ (by decide) (by decide) _, by simp⟩,
      ⟨hwrite _ (by decide) (by decide) _, by simp⟩, ⟨hwrite _ (by decide) (by decide) _, by simp⟩,
      trivial, ⟨hwrite _ (by decide) (by decide) _, by simp⟩,
      ⟨hwrite _ (by decide) (by decide) _, by simp⟩, ⟨hwrite _ (by decide) (by decide) _, by simp⟩,
      ⟨hwrite _ (by decide) (by decide) _, by simp⟩, trivial⟩
  refine ⟨hinStep, hleaves [.recv, .recv, .recv] ⟨trivial, trivial, trivial, trivial⟩ ?_ (by decide)⟩
  decide +kernel

/-- A slice whose time stamp reads like the head of a `VIDEO_FRAME`. -/
def misread : EncodedPacket where
  bytes := [0, 0, 1, 0x41, 0x9A, 0, 0, 0]
  pts_ns := 0x300000009
  is_keyframe := false
  encode_us := none

/-- The abort cuts a reply off behind 21 of its 29 bytes, the tablet completes it with those of the next
frame, and feeds its decoder with a frame that was never sent. -/
theorem misread_fed : ¬ ∀ (c : SessionConfig) (hud : Bool) (es : List LinkEvent), (after c hud es).InStep c := by
  intro h
  have hfed := (h (.fullHd false 4) false [.server (.push (.idr 1)), .server (.popTurn false),
    .server (.keyframe false), .server (.write 16), .server (.write 9), .server (.write 10),
    .server (.write 24), .server (.flush true), .recv, .recv, .recv, .surfaceReady, .recv,
    .server (.receive msgTimeSyncReq [0, 0, 0, 0, 0, 0, 0, 1] 2 3), .server (.lock .readLoop),
    .server (.write 21), .server .finish, .server .cancel, .server (.enterSelect .framePump),
    .server (.push misread), .server (.popTurn false), .server .selectPop, .server (.lock .framePump),
    .server (.write 22), .recv, .recv]).fed ⟨1920, 1080, 60, 1, [0, 0, 1, 0x67, 0x42],
      [(1, (EncodedPacket.idr 1).bytes, true), (0x1419A0000, [], false)]⟩ (by decide +kernel)
  revert hfed
  decide +kernel

end Link

end Penflow
