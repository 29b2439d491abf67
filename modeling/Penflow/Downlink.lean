import Penflow.Link
import Penflow.Server.Streaming

/-!
# From the capture to the decoder

The streaming machine on the PC, the bytes on their way, and the tablet.  What the decoder of the tablet is fed
goes back frame by frame to the encoder on the PC, and from there to the ticks of the capture: it is a front of the
packets that the session took, beginning with a key frame, in the order and with the bytes of the encoder
(`decoder_in_time`).
-/

namespace Penflow

open Client

structure Downlink where
  streaming : Streaming
  unread : List UInt8
  client : ClientSession

inductive DownlinkEvent where
  | stream (e : StreamEvent)
  | recv
  | surfaceReady

namespace Downlink

variable (c : StreamConfig) (hud : Bool)

/-- The session and the tablet in it. -/
def link (d : Downlink) : Link := ⟨d.streaming.pipeline.session, d.unread, d.client⟩

def start (pts_epoch : ℕ) : Downlink := ⟨Streaming.start c pts_epoch, [], .start⟩

variable [BuildProfile]

/-- The bytes that the session adds to the wire are on their way. -/
def streamStep (d : Downlink) (e : StreamEvent) : Downlink :=
  let streaming := Streaming.step c d.streaming e
  { d with
    streaming := streaming
    unread := d.unread ++
      streaming.pipeline.session.wireBytes.drop d.streaming.pipeline.session.wireBytes.length }

def step (d : Downlink) : DownlinkEvent → Downlink
  | .stream e => streamStep c d e
  | .recv =>
    let l := Link.recv hud d.link
    { d with unread := l.unread, client := l.client }
  | .surfaceReady => { d with client := d.client.surfaceReady }

def after (pts_epoch : ℕ) (es : List DownlinkEvent) : Downlink := es.foldl (step c hud) (start c pts_epoch)

/-- What a step of the machine is to the session. -/
def sessionEvents (g : Streaming) : StreamEvent → List Event
  | .encode a =>
    match g.pipeline.point with
    | .polling =>
      if g.encoding.phase = .idle then []
      else
        match Streaming.tryPacketReturns g.encoding a (g.encoding.turn a) with
        | some (.ok (some pkt)) => [.push pkt]
        | _ => []
    | _ => []
  | .session e _ _ => if e.isPush then [] else [e]
  | _ => []

/-- The transform keeps its promise, the session cuts no frame, and the packets fit their frames. -/
def Sound (d : Downlink) : DownlinkEvent → Prop
  | .stream e => Streaming.Promised c d.streaming e ∧
      ∀ ev ∈ sessionEvents d.streaming e, d.link.Sound c.session (.server ev)
  | _ => True

variable {c : StreamConfig} {hud : Bool} {pts_epoch : ℕ} {d : Downlink}

/-! ### The parts in the whole -/

theorem step_session (g : Streaming) (e : StreamEvent) :
    (Streaming.step c g e).pipeline.session =
      (sessionEvents g e).foldl (Session.step c.session) g.pipeline.session := by
  cases e with
  | testStop => exact Pipeline.step_session c.session g.pipeline .testStop
  | acquire result now =>
      rw [Streaming.step, Streaming.acquire]
      split
      · exact Pipeline.step_session c.session g.pipeline (.acquire result now)
      · rfl
  | convert result => exact Pipeline.step_session c.session g.pipeline (.convert result)
  | transform offer => rfl
  | encode a =>
      rw [Streaming.step, Streaming.encode, sessionEvents]
      cases hpoint : g.pipeline.point with
      | submitting force_idr pts_ns =>
          dsimp only
          split
          · rfl
          · split
            · rfl
            · exact Pipeline.step_session c.session g.pipeline (.submit _)
      | polling =>
          dsimp only
          split
          · rfl
          · cases hreturns : Streaming.tryPacketReturns g.encoding a (g.encoding.turn a) with
            | none => rfl
            | some result =>
                have hstep := Pipeline.step_session c.session g.pipeline (.tryPacket result)
                rcases result with e | _ | pkt
                · exact hstep
                · exact hstep
                · rw [Pipeline.sessionEvents, hpoint] at hstep
                  exact hstep
      | _ => rfl
  | storeStop => exact Pipeline.step_session c.session g.pipeline .storeStop
  | session e elapsed_at now => exact Pipeline.step_session c.session g.pipeline (.session e)
  | periodicIdr =>
      rw [Streaming.step, Streaming.periodicIdr]
      split <;> rfl
  | relayIdr =>
      rw [Streaming.step, Streaming.relayIdr]
      split <;> rfl

/-- A step of the machine is at most one of the session. -/
theorem sessionEvents_cases (g : Streaming) (e : StreamEvent) :
    sessionEvents g e = [] ∨ ∃ ev, sessionEvents g e = [ev] := by
  unfold sessionEvents
  repeat' split
  all_goals first
    | exact .inl rfl
    | exact .inr ⟨_, rfl⟩

/-- **A step of the whole is a step of the link**, or none. -/
theorem link_streamStep (d : Downlink) (e : StreamEvent) :
    (streamStep c d e).link = (sessionEvents d.streaming e).foldl (Link.serverStep c.session) d.link := by
  have hsession := step_session (c := c) d.streaming e
  rw [link, streamStep]
  rcases sessionEvents_cases d.streaming e with hevents | ⟨ev, hevents⟩
  · rw [hevents] at hsession ⊢
    dsimp only
    rw [hsession, List.foldl_nil, List.drop_length, List.append_nil]
    rfl
  · rw [hevents] at hsession ⊢
    dsimp only
    rw [hsession]
    rfl

/-- The tablet agrees with the session, and the session with the encoder. -/
structure Agreement (c : StreamConfig) (pts_epoch : ℕ) (d : Downlink) : Prop where
  link : d.link.Agreement c.session
  streaming : d.streaming.Inv c pts_epoch

theorem start_agreement : (start c pts_epoch).Agreement c pts_epoch :=
  ⟨Link.start_agreement, Streaming.start_inv⟩

theorem step_agreement (d : Downlink) (e : DownlinkEvent) (h : d.Agreement c pts_epoch) (hsound : d.Sound c e) :
    (step c hud d e).Agreement c pts_epoch := by
  cases e with
  | stream e =>
      refine ⟨?_, Streaming.step_inv d.streaming e h.streaming hsound.1⟩
      show (streamStep c d e).link.Agreement c.session
      rw [link_streamStep]
      have hserver := hsound.2
      rcases sessionEvents_cases d.streaming e with hevents | ⟨ev, hevents⟩
      · rw [hevents]
        exact h.link
      · rw [hevents] at hserver ⊢
        exact Link.serverStep_agreement h.link (hserver ev List.mem_cons_self)
  | recv =>
      refine ⟨?_, h.streaming⟩
      have hlink : Link.Agreement c.session (Link.recv hud d.link) := Link.recv_agreement h.link
      have hserver := Link.recv_server hud d.link
      show Link.Agreement c.session ⟨d.link.server, (Link.recv hud d.link).unread, (Link.recv hud d.link).client⟩
      rw [← hserver]
      exact hlink
  | surfaceReady =>
      have hlink : Link.Agreement c.session (Link.step c.session hud d.link .surfaceReady) :=
        Link.step_agreement d.link .surfaceReady h.link trivial
      exact ⟨hlink, h.streaming⟩

/-! ### What the decoder is fed -/

/-- What the decoder is fed of the packets: the first one is sent as a key frame. -/
def feeds : List EncodedPacket → List (Int64 × List UInt8 × Bool)
  | [] => []
  | first :: rest => (first.pts_ns, first.bytes, true) ::
      rest.map fun pkt => (pkt.pts_ns, pkt.bytes, pkt.is_keyframe)

omit [BuildProfile] in
theorem fedOf_pumpFrame (pkt : EncodedPacket) :
    Link.fedOf (pumpFrame pkt) = .ok (pkt.pts_ns, pkt.bytes, pkt.is_keyframe) := by
  have hkeyframe : ∀ k extended : Bool, (ubyte ((if k = true then frameFlagKeyframe else 0) |||
      (if extended = true then frameFlagExtended else 0)) &&& ubyte frameFlagKeyframe != 0) = k := by
    decide
  rw [Link.fedOf, pumpFrame, decodeVideoFrame_encode]
  exact congrArg (fun k => Except.ok (pkt.pts_ns, pkt.bytes, k)) (hkeyframe pkt.is_keyframe pkt.encode_us.isSome)

omit [BuildProfile] in
theorem fedOf_videoFrames (pkts : List EncodedPacket) :
    (videoFrames pkts).map Link.fedOf = (feeds pkts).map .ok := by
  cases pkts with
  | nil => rfl
  | cons first rest =>
      rw [videoFrames, feeds, List.map_cons, List.map_cons, Link.fedOf_firstFrame, List.map_map, List.map_map]
      refine congrArg (_ :: ·) (List.map_congr_left fun pkt _ => ?_)
      exact fedOf_pumpFrame pkt

omit [BuildProfile] in
/-- The decoder is fed a front of the packets taken, and has the parameter sets of the first. -/
theorem decoder_fed (h : d.link.Agreement c.session) {dec : Decoder} (hdec : d.client.decoder = some dec) :
    ∃ first rest, taken d.streaming.pipeline.session.departed = first :: rest ∧
      dec.csd0 = c.session.csd0 first.bytes ∧ dec.fed <+: feeds (first :: rest) := by
  obtain ⟨got, hchannel, first, hfirst, -, hcsd0, hfed⟩ := h.decoder hdec
  obtain ⟨rest, hrest⟩ := List.head?_eq_some_iff.1 hfirst
  refine ⟨first, rest, hrest, hcsd0, ?_⟩
  have hvideo : video (got.map (·.frame)) <+: videoFrames (first :: rest) := by
    rw [← hrest]
    exact (hchannel.prefix_script.filter _).trans h.server.video.isFront
  have hmapped : dec.fed.map Except.ok <+:
      (feeds (first :: rest)).map (Except.ok : _ → Except Failure (Int64 × List UInt8 × Bool)) := by
    rw [hfed, ← fedOf_videoFrames]
    exact hvideo.map Link.fedOf
  exact (List.prefix_map_iff_of_injective fun _ _ => Except.ok.inj).1 hmapped

/-- **From the capture to the decoder.**  In every run in which the transform keeps its promise and the session
cuts no frame, what the tablet feeds its decoder is a front of packets that the encoder returned, in its order and
beginning with a key frame, whose parameter sets the decoder was made with.  The `k`-th packet returned has the
stamp of the `k`-th frame submitted and is made of the `k`-th output of the transform; and the stamps are those of
the ticks, which do not go back where the clock does not. -/
theorem decoder_in_time {es : List DownlinkEvent}
    (h : Run.Steps (step c hud) (Sound c) (start c pts_epoch) es) {dec : Decoder}
    (hdec : (after c hud pts_epoch es).client.decoder = some dec) :
    let g := (after c hud pts_epoch es).streaming
    ∃ first rest, (first :: rest).Sublist g.encoding.returned ∧ first.is_keyframe = true ∧
      dec.csd0 = c.session.csd0 first.bytes ∧ dec.fed <+: feeds (first :: rest) ∧
      g.encoding.returned.map EncodedPacket.pts_ns <+: g.encoding.calls ∧
      g.encoding.returned.map (fun pkt => Except.ok pkt.bytes) =
        (g.encoding.outputs.take g.encoding.returned.length).map
          (fun sample => MfSession.patchedBytes c.encode.codec sample.bytes) ∧
      g.encoding.calls.Sublist (g.acquired_at.map (Streaming.stamp pts_epoch)) ∧
      (g.acquired_at.Pairwise (· ≤ ·) → (∀ now ∈ g.acquired_at, now - pts_epoch < 2 ^ 63) →
        (dec.fed.map fun fed => fed.1.toInt).Pairwise (· ≤ ·)) := by
  intro g
  have hagreement : (after c hud pts_epoch es).Agreement c pts_epoch := h.invariant step_agreement start_agreement
  have hinv := hagreement.streaming
  obtain ⟨first, rest, htaken, hcsd0, hfed⟩ := decoder_fed hagreement.link hdec
  have hreturned := hinv.taken_returned
  have hkey := hagreement.link.server.flow.first_key
  rw [htaken] at hreturned
  refine ⟨first, rest, hreturned, ?_, hcsd0, hfed, hinv.kept.pts, hinv.kept.bytes, hinv.calls_sublist, ?_⟩
  · refine hkey first ?_
    show first ∈ (taken g.pipeline.session.departed).head?
    rw [htaken]
    rfl
  · intro hclock hrange
    have hsorted := hinv.returned_sorted hreturned hclock hrange
    have hstamps : (feeds (first :: rest)).map (fun fed => fed.1.toInt) =
        (first :: rest).map fun pkt => pkt.pts_ns.toInt := by
      rw [feeds, List.map_cons, List.map_map, List.map_cons]
      rfl
    rw [← hstamps] at hsorted
    exact hsorted.sublist (hfed.sublist.map _)

/-- The packet of a push fits its frames. -/
def pushFits (c : SessionConfig) : Event → Bool
  | .push pkt => decide (pkt.bytes.length + 17 ≤ maxPayloadLen ∧ (c.csd0 pkt.bytes).length ≤ maxPayloadLen)
  | _ => true

omit [BuildProfile] in
theorem pushFits_iff {c : SessionConfig} {ev : Event} :
    pushFits c ev = true ↔ ∀ pkt, ev = .push pkt → pkt.Fits c := by
  cases ev with
  | push pkt =>
      rw [pushFits, decide_eq_true_eq]
      constructor
      · intro h pkt' heq
        cases heq
        exact h
      · exact fun h => h pkt rfl
  | _ =>
      constructor
      · intro _ pkt heq
        cases heq
      · exact fun _ => rfl

instance Sound.decidable (d : Downlink) : ∀ e, Decidable (Sound c d e)
  | .stream e =>
    have : ∀ ev, Decidable (d.link.Sound c.session (.server ev)) := fun ev =>
      decidable_of_iff (¬ Session.CutsFrame c.session d.link.server ev ∧ pushFits c.session ev = true)
        (and_congr_right fun _ => pushFits_iff)
    inferInstanceAs (Decidable (_ ∧ ∀ ev ∈ sessionEvents d.streaming e, _))
  | .recv => .isTrue trivial
  | .surfaceReady => .isTrue trivial

/-- The first frame, up to the decoder. -/
def firstFed : List DownlinkEvent :=
  (Streaming.oneFrame 7 ⟨(EncodedPacket.idr 0).bytes, none⟩ ++ Streaming.handshake).map .stream ++
    [.recv, .recv, .recv, .surfaceReady, .recv]

omit [BuildProfile] in
/-- The decoder gets the key frame with the stamp of its tick. -/
theorem decoder_in_time_first :
    letI : BuildProfile := ⟨true⟩
    let d := after (.fullHd none none) false 0 firstFed
    d.client.decoder.map (fun dec => dec.fed.map (·.1)) = some [7] ∧
      ∀ dec ∈ d.client.decoder, ∃ first rest, (first :: rest).Sublist d.streaming.encoding.returned ∧
        dec.fed <+: feeds (first :: rest) := by
  have hsteps : @Run.Steps _ _ (@step (.fullHd none none) false ⟨true⟩) (@Sound (.fullHd none none) ⟨true⟩)
      (start (.fullHd none none) 0) firstFed := by
    decide +kernel
  have hfed : (@after (.fullHd none none) false ⟨true⟩ 0 firstFed).client.decoder.map
      (fun dec => dec.fed.map (·.1)) = some [7] := by
    decide +kernel
  refine ⟨hfed, fun dec hdec => ?_⟩
  obtain ⟨first, rest, hreturned, -, -, hfront, -⟩ := @decoder_in_time ⟨true⟩ _ _ _ _ hsteps dec hdec
  exact ⟨first, rest, hreturned, hfront⟩

end Downlink

end Penflow
