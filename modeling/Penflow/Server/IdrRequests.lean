import Penflow.Server.Streaming

/-!
# The requests for key frames

The client, a timer and `frame_pump` ask for key frames over a channel of the session.  The session hands a
request to the pipeline as a flag, a tick takes the flag, and its frame is submitted with `force_idr`.  Requests
may fall together on the way, but none is lost while the session serves and the encode thread runs, and no frame
is forced that nobody asked for (`idr_relay`); `frame_pump` keeps its distance (`motion_throttle`).
-/

namespace Penflow

namespace Streaming

variable [BuildProfile] {c : StreamConfig} {pts_epoch : ℕ} {g : Streaming}

/-! ### Where a request is -/

/-- The `force_idr` of a frame that has not come to `ProcessInput`. -/
def inHand : LoopPoint EngineError → EncodePhase → Bool
  | .acquiring force_idr, _ => force_idr
  | .converting force_idr _, _ => force_idr
  | .submitting force_idr _, .idle => force_idr
  | .submitting force_idr _, .initialWait _ _ => force_idr
  | .submitting force_idr _, .feed _ _ => force_idr
  | _, _ => false

/-- The frames that a key frame was asked for. -/
def forced (g : Streaming) : ℕ := g.encoding.processInputs.countP (·.force_key_frame)

/-- What a step does with the requests on their way from the channel to the transform. -/
structure Relays (g g' : Streaming) : Prop where
  fits : Fits g'.pipeline.point g'.encoding.phase
  inputs : g.encoding.processInputs <+: g'.encoding.processInputs
  /-- no request comes from nowhere -/
  counted : g'.forced + (inHand g'.pipeline.point g'.encoding.phase).toNat + g'.pipeline.idr_request.toNat +
      g'.idr_channel + g.idr_sent ≤
    g.forced + (inHand g.pipeline.point g.encoding.phase).toNat + g.pipeline.idr_request.toNat +
      g.idr_channel + g'.idr_sent
  /-- a request in the channel is still there, or is the flag -/
  channel : 0 < g.idr_channel → 0 < g'.idr_channel ∨ g'.pipeline.idr_request = true
  /-- the flag stays, or a tick has taken it, or the thread has ended -/
  flag : g.pipeline.idr_request = true → g'.pipeline.idr_request = true ∨
    inHand g'.pipeline.point g'.encoding.phase = true ∨ g'.pipeline.point.isReturned = true
  /-- a frame stays in hand, or is forced, or the thread has ended -/
  hand : inHand g.pipeline.point g.encoding.phase = true →
    inHand g'.pipeline.point g'.encoding.phase = true ∨ g'.pipeline.point.isReturned = true ∨
      ∃ sample, g'.encoding.processInputs = g.encoding.processInputs ++ [sample] ∧ sample.force_key_frame = true
  returned : g.pipeline.point.isReturned = true → g'.pipeline.point.isReturned = true

omit [BuildProfile] in
theorem Relays.refl (hfits : Fits g.pipeline.point g.encoding.phase) : Relays g g where
  fits := hfits
  inputs := List.prefix_rfl
  counted := Nat.le_refl _
  channel := .inl
  flag := .inl
  hand := .inl
  returned := id

omit [BuildProfile] in
/-- A step of the thread outside the calls of the encoder. -/
theorem Relays.outside {p : Pipeline EngineError} {acquired_at : List ℕ}
    (hfits : Fits p.point g.encoding.phase)
    (hreturned : g.pipeline.point.isReturned = true → p.point.isReturned = true)
    (hmoves : p.point.isReturned = true ∧ p.idr_request = g.pipeline.idr_request ∧
        inHand p.point g.encoding.phase = false ∨
      (inHand p.point g.encoding.phase).toNat + p.idr_request.toNat =
        (inHand g.pipeline.point g.encoding.phase).toNat + g.pipeline.idr_request.toNat ∧
      (inHand g.pipeline.point g.encoding.phase = true → inHand p.point g.encoding.phase = true)) :
    Relays g { g with pipeline := p, acquired_at := acquired_at } := by
  refine ⟨hfits, List.prefix_rfl, ?_, .inl, ?_, ?_, hreturned⟩
  · show g.forced + (inHand p.point g.encoding.phase).toNat + p.idr_request.toNat + g.idr_channel + g.idr_sent ≤
      g.forced + (inHand g.pipeline.point g.encoding.phase).toNat + g.pipeline.idr_request.toNat +
        g.idr_channel + g.idr_sent
    rcases hmoves with ⟨-, hflag, hhand⟩ | ⟨hsum, -⟩
    · rw [hflag, hhand, Bool.toNat_false]
      omega
    · omega
  · intro hflag
    show p.idr_request = true ∨ inHand p.point g.encoding.phase = true ∨ p.point.isReturned = true
    rcases hmoves with ⟨hended, -, -⟩ | ⟨hsum, -⟩
    · exact .inr (.inr hended)
    · rw [hflag, Bool.toNat_true] at hsum
      cases hflag' : p.idr_request with
      | true => exact .inl rfl
      | false =>
          cases hhand : inHand p.point g.encoding.phase with
          | true => exact .inr (.inl rfl)
          | false =>
              rw [hflag', hhand, Bool.toNat_false] at hsum
              omega
  · intro hhand
    rcases hmoves with ⟨hended, -, -⟩ | ⟨-, hkept⟩
    · exact .inr (.inl hended)
    · exact .inl (hkept hhand)

omit [BuildProfile] in
theorem testStop_relays (h : Fits g.pipeline.point g.encoding.phase) :
    Relays g { g with pipeline := g.pipeline.step c.session .testStop } := by
  rw [Pipeline.step, Pipeline.testStop]
  split
  case h_1 hpoint =>
    have hidle := h.idle (by rw [hpoint]; rfl)
    split
    · exact .outside trivial (fun _ => rfl) (.inl ⟨rfl, rfl, rfl⟩)
    · refine .outside ?_ (by rw [hpoint]; intro hcontra; cases hcontra) (.inr ?_)
      · rw [hidle]
        trivial
      · rw [hpoint, hidle]
        exact ⟨Nat.add_comm _ _, by intro hcontra; cases hcontra⟩
  case h_2 => exact .refl h

omit [BuildProfile] in
theorem acquire_relays (h : Fits g.pipeline.point g.encoding.phase)
    (result : Except EngineError (Option (Option PointerPosition))) (now : ℕ) :
    Relays g (acquire c g result now) := by
  rw [acquire]
  split
  case h_1 force_idr hpoint =>
    have hidle := h.idle (by rw [hpoint]; rfl)
    simp only [Pipeline.step, Pipeline.acquire, hpoint]
    rcases result with e | _ | pointer_position
    · exact .outside trivial (fun _ => rfl) (.inl ⟨rfl, rfl, rfl⟩)
    · refine .outside ?_ (by rw [hpoint]; intro hcontra; cases hcontra) (.inr ?_)
      · rw [hidle]
        trivial
      · rw [hpoint, hidle]
        exact ⟨rfl, id⟩
    · refine .outside ?_ (by rw [hpoint]; intro hcontra; cases hcontra) (.inr ?_)
      · rw [hidle]
        trivial
      · rw [hpoint, hidle]
        exact ⟨rfl, id⟩
  case h_2 => exact .refl h

omit [BuildProfile] in
theorem convert_relays (h : Fits g.pipeline.point g.encoding.phase) (result : Except EngineError Unit) :
    Relays g { g with pipeline := g.pipeline.step c.session (.convert result) } := by
  rw [Pipeline.step, Pipeline.convert]
  split
  case h_1 force_idr now hpoint =>
    have hidle := h.idle (by rw [hpoint]; rfl)
    cases result with
    | error e => exact .outside trivial (fun _ => rfl) (.inl ⟨rfl, rfl, rfl⟩)
    | ok _ =>
        refine .outside ?_ (by rw [hpoint]; intro hcontra; cases hcontra) (.inr ?_)
        · rw [hidle]
          trivial
        · rw [hpoint, hidle]
          exact ⟨rfl, id⟩
  case h_2 => exact .refl h

omit [BuildProfile] in
/-- The sample that `ProcessInput` gets is that of the frame in hand. -/
theorem processed_hand {s : Encoding} {a : Answers} {sample : InputSample} {force_idr : Bool} {pts_ns : Int64}
    (hfits : Fits (.submitting force_idr pts_ns) s.phase) (h : s.processed a = some sample) :
    sample.force_key_frame = force_idr ∧ inHand (.submitting force_idr pts_ns) s.phase = force_idr := by
  rw [Encoding.processed] at h
  split at h
  case h_1 pts_ns' force_idr' hphase =>
    rw [hphase] at hfits ⊢
    rw [Option.ite_none_right_eq_some] at h
    obtain rfl := Option.some.inj h.2
    exact ⟨hfits.2, rfl⟩
  case h_2 => cases h

omit [BuildProfile] in
/-- Only a frame in hand is handed to `ProcessInput`, and once it is it is in hand no more. -/
theorem turn_hand {s s' : Encoding} {a : Answers} {force_idr : Bool} {pts_ns : Int64}
    (hfits : Fits (.submitting force_idr pts_ns) s.phase) (hturn : Encoding.TurnOf s s' none (s.processed a)) :
    s'.processInputs.countP (·.force_key_frame) ≤
        s.processInputs.countP (·.force_key_frame) + (inHand (.submitting force_idr pts_ns) s.phase).toNat ∧
      (s'.phase ≠ .idle → Fits (.submitting force_idr pts_ns) s'.phase →
        s'.processInputs = s.processInputs ∧ inHand (.submitting force_idr pts_ns) s'.phase =
            inHand (.submitting force_idr pts_ns) s.phase ∨
          inHand (.submitting force_idr pts_ns) s'.phase = false ∧ ∃ sample,
            s'.processInputs = s.processInputs ++ [sample] ∧
              sample.force_key_frame = inHand (.submitting force_idr pts_ns) s.phase) := by
  have hinputs := hturn.processInputs
  constructor
  · rw [hinputs, List.countP_append]
    cases hprocessed : s.processed a with
    | none => exact Nat.le_add_right _ _
    | some sample =>
        obtain ⟨hforce, hhand⟩ := processed_hand hfits hprocessed
        rw [Option.toList_some, List.countP_singleton, hhand, hforce]
        cases force_idr <;> exact Nat.le_refl _
  · intro hrunning hfits'
    have hgoes := hturn.phase
    have hfed := hturn.fed
    cases hphase : s.phase with
    | feed pts_ns' force_idr' =>
        rw [hphase] at hgoes hfed
        have hprefetch : s'.phase = .prefetchWait := by
          generalize s'.phase = behind at hgoes hrunning hfits'
          cases hgoes with
          | ends => exact absurd rfl hrunning
          | unwinds => exact hfits'.elim
          | goesOn _ hwaits => rcases hwaits with hwaits | hwaits <;> cases hwaits
          | fed => rfl
        rcases hfed hprefetch with hcontra | hsome
        · cases hcontra
        · obtain ⟨sample, hprocessed⟩ := Option.isSome_iff_exists.1 hsome
          obtain ⟨hforce, hhand⟩ := processed_hand hfits hprocessed
          rw [hphase] at hhand
          rw [hprocessed] at hinputs
          refine .inr ⟨?_, sample, hinputs, hforce.trans hhand.symm⟩
          rw [hprefetch]
          rfl
    | initialWait pts_ns' force_idr' =>
        have hnone : s.processed a = none := by simp only [Encoding.processed, hphase]
        rw [hnone] at hinputs
        refine .inl ⟨hinputs.trans (List.append_nil _), ?_⟩
        rw [hphase] at hgoes
        generalize s'.phase = behind at hgoes hrunning hfits'
        cases hgoes with
        | ends => exact absurd rfl hrunning
        | unwinds => exact hfits'.elim
        | goesOn => rfl
        | granted => rfl
    | _ =>
        have hnone : s.processed a = none := by simp only [Encoding.processed, hphase]
        rw [hnone] at hinputs
        refine .inl ⟨hinputs.trans (List.append_nil _), ?_⟩
        rw [hphase] at hgoes
        generalize s'.phase = behind at hgoes hrunning hfits'
        cases hgoes with
        | ends => exact absurd rfl hrunning
        | unwinds => exact hfits'.elim
        | goesOn => rfl

theorem encode_submitting_relays (h : Fits g.pipeline.point g.encoding.phase) (hgranting : g.encoding.Granting)
    {force_idr : Bool} {pts_ns : Int64} (hpoint : g.pipeline.point = .submitting force_idr pts_ns) (a : Answers) :
    Relays g (encode c g a) := by
  have hfits := h
  rw [hpoint] at hfits
  rcases encode_submitting (c := c) a hpoint hfits with ⟨hidle, hstep⟩ | ⟨hidle, hturn, hstep⟩
  · have hcall : (g.encoding.submitFrame pts_ns force_idr).processInputs = g.encoding.processInputs ∧
        Fits (.submitting force_idr pts_ns) (g.encoding.submitFrame pts_ns force_idr).phase ∧
        inHand (.submitting force_idr pts_ns) (g.encoding.submitFrame pts_ns force_idr).phase = force_idr := by
      simp only [Encoding.submitFrame, hidle]
      split
      · exact ⟨rfl, ⟨rfl, rfl⟩, rfl⟩
      · exact ⟨rfl, ⟨rfl, rfl⟩, rfl⟩
    obtain ⟨hinputs, hfits', hhand⟩ := hcall
    have hsame : inHand g.pipeline.point (g.encoding.submitFrame pts_ns force_idr).phase =
        inHand g.pipeline.point g.encoding.phase := by
      rw [hpoint, hidle]
      exact hhand
    rw [hstep]
    refine ⟨?_, ?_, ?_, .inl, .inl, ?_, id⟩
    · rw [hpoint]
      exact hfits'
    · rw [hinputs]
    · simp only [forced, hinputs, hsame]
      exact Nat.le_refl _
    · intro hforce
      rw [← hsame] at hforce
      exact .inl hforce
  · obtain ⟨hcount, hgoesOn⟩ := turn_hand hfits hturn
    have hprefix : g.encoding.processInputs <+: (g.encoding.turn a).processInputs := by
      rw [hturn.processInputs]
      exact List.prefix_append _ _
    rw [← hpoint] at hcount hgoesOn
    rcases hstep with ⟨hstep, hrunning, hfits'⟩ | ⟨submitted, hstep, hended, hcredit⟩ | ⟨e, hstep⟩
    · rw [hstep]
      rw [← hpoint] at hfits'
      rcases hgoesOn hrunning hfits' with ⟨hinputs, hhand⟩ | ⟨hhand, sample, hinputs, hforce⟩
      · refine ⟨hfits', hprefix, ?_, .inl, .inl, ?_, id⟩
        · simp only [forced, hinputs, hhand]
          exact Nat.le_refl _
        · intro hforce
          rw [← hhand] at hforce
          exact .inl hforce
      · refine ⟨hfits', hprefix, ?_, .inl, .inl, ?_, id⟩
        · simp only [forced, hhand, Bool.toNat_false]
          omega
        · intro hcarried
          exact .inr (.inr ⟨sample, hinputs, hforce.trans hcarried⟩)
    · -- the call has succeeded, so the frame was fed before
      have hprefetch : g.encoding.phase = .prefetchWait := by
        rcases hturn.credit hcredit with hbefore | hprefetch
        · cases hphase : g.encoding.phase with
          | prefetchWait => rfl
          | idle => exact absurd hphase hidle
          | drain =>
              rw [hphase] at hfits
              exact hfits.elim
          | unwound =>
              rw [hphase] at hfits
              exact hfits.elim
          | _ =>
              rw [hgranting.taken (by rw [hphase]; rfl)] at hbefore
              cases hbefore
        · exact hprefetch
      have hnone : inHand g.pipeline.point g.encoding.phase = false := by
        rw [hpoint, hprefetch]
        rfl
      rw [hstep]
      refine ⟨?_, hprefix, ?_, .inl, .inl, ?_, ?_⟩
      · rw [hended]
        trivial
      · show (g.encoding.turn a).processInputs.countP (·.force_key_frame) + 0 + g.pipeline.idr_request.toNat +
          g.idr_channel + g.idr_sent ≤ g.encoding.processInputs.countP (·.force_key_frame) +
            (inHand g.pipeline.point g.encoding.phase).toNat + g.pipeline.idr_request.toNat + g.idr_channel +
              g.idr_sent
        omega
      · intro hforce
        rw [hnone] at hforce
        cases hforce
      · intro hreturned
        rw [hpoint] at hreturned
        cases hreturned
    · rw [hstep]
      refine ⟨trivial, hprefix, ?_, .inl, .inl, fun _ => .inr (.inl rfl), fun _ => rfl⟩
      show (g.encoding.turn a).processInputs.countP (·.force_key_frame) + 0 + g.pipeline.idr_request.toNat +
        g.idr_channel + g.idr_sent ≤ g.encoding.processInputs.countP (·.force_key_frame) +
          (inHand g.pipeline.point g.encoding.phase).toNat + g.pipeline.idr_request.toNat + g.idr_channel +
            g.idr_sent
      omega

theorem encode_polling_relays (h : Fits g.pipeline.point g.encoding.phase)
    (hpoint : g.pipeline.point = .polling) (a : Answers) : Relays g (encode c g a) := by
  have hfits := h
  rw [hpoint] at hfits
  have hnone : ∀ phase, inHand g.pipeline.point phase = false := by
    intro phase
    rw [hpoint]
    rfl
  have hrunning : g.pipeline.point.isReturned ≠ true := by
    rw [hpoint]
    intro hcontra
    cases hcontra
  have hidles : ∀ {s : Encoding} {p : Pipeline EngineError}, s.processInputs = g.encoding.processInputs →
      Fits p.point s.phase → inHand p.point s.phase = false → p.idr_request = g.pipeline.idr_request →
      Relays g { g with encoding := s, pipeline := p } := by
    intro s p hinputs hfits' hhand hflag
    refine ⟨hfits', ?_, ?_, .inl, ?_, ?_, fun hreturned => absurd hreturned hrunning⟩
    · rw [hinputs]
    · simp only [forced, hinputs, hhand, hnone, hflag]
      exact Nat.le_refl _
    · intro hforce
      rw [← hflag] at hforce
      exact .inl hforce
    · intro hforce
      rw [hnone] at hforce
      cases hforce
  rcases encode_polling (c := c) a hpoint hfits with ⟨hidle, hstep⟩ | ⟨hdrain, hstep⟩
  · rw [hstep]
    refine hidles rfl ?_ (hnone _) rfl
    rw [hpoint]
    trivial
  · rcases hstep with ⟨hstep, hphase, hturn⟩ | ⟨pkt, hstep, hphase, hturn⟩ | ⟨hstep, hphase, hturn⟩ |
      ⟨e, hstep, hturn⟩
    · rw [hstep]
      refine hidles (hturn.processInputs.trans (List.append_nil _)) ?_ (hnone _) rfl
      rw [hpoint, hphase]
      trivial
    · rw [hstep]
      refine hidles (hturn.processInputs.trans (List.append_nil _)) ?_ (hnone _) rfl
      show Fits g.pipeline.point (g.encoding.turn a).phase
      rw [hpoint, hphase]
      trivial
    · rw [hstep]
      refine hidles (hturn.processInputs.trans (List.append_nil _)) ?_ rfl rfl
      rw [hphase]
      trivial
    · rw [hstep]
      exact hidles (hturn.processInputs.trans (List.append_nil _)) trivial rfl rfl

/-- **What a step does with the requests.** -/
theorem step_relays (h : Fits g.pipeline.point g.encoding.phase) (hgranting : g.encoding.Granting)
    (e : StreamEvent) : Relays g (step c g e) := by
  cases e with
  | testStop => exact testStop_relays h
  | acquire result now => exact acquire_relays h result now
  | convert result => exact convert_relays h result
  | transform offer => cases offer <;> exact ⟨h, List.prefix_rfl, Nat.le_refl _, .inl, .inl, .inl, id⟩
  | encode a =>
      cases hpoint : g.pipeline.point with
      | submitting force_idr pts_ns => exact encode_submitting_relays h hgranting hpoint a
      | polling => exact encode_polling_relays h hpoint a
      | _ =>
          rw [step]
          simp only [encode, hpoint]
          exact .refl h
  | storeStop =>
      rw [step, Pipeline.step, Pipeline.storeStop]
      split
      · exact ⟨h, List.prefix_rfl, Nat.le_refl _, .inl, .inl, .inl, id⟩
      · exact .refl h
  | session e elapsed_at now =>
      have hsame : (g.pipeline.step c.session (.session e)).point = g.pipeline.point ∧
          (g.pipeline.step c.session (.session e)).idr_request = g.pipeline.idr_request := by
        rw [Pipeline.step, Pipeline.sessionStep]
        split <;> exact ⟨rfl, rfl⟩
      obtain ⟨hpoint, hflag⟩ := hsame
      rw [step, sessionStep]
      generalize (readLoopSends g.pipeline.session e).toNat + (motionSends c g e elapsed_at).toNat = n
      refine ⟨?_, List.prefix_rfl, ?_, fun hchannel => .inl (Nat.add_pos_left hchannel n), ?_, ?_, ?_⟩
      · show Fits (g.pipeline.step c.session (.session e)).point _
        rw [hpoint]
        exact h
      · show g.forced + (inHand (g.pipeline.step c.session (.session e)).point g.encoding.phase).toNat +
          (g.pipeline.step c.session (.session e)).idr_request.toNat + (g.idr_channel + n) + g.idr_sent ≤
            g.forced + (inHand g.pipeline.point g.encoding.phase).toNat + g.pipeline.idr_request.toNat +
              g.idr_channel + (g.idr_sent + n)
        rw [hpoint, hflag]
        omega
      · exact fun hrequest => .inl (hflag.trans hrequest)
      · intro hhand
        left
        show inHand (g.pipeline.step c.session (.session e)).point _ = true
        rw [hpoint]
        exact hhand
      · intro hreturned
        show (g.pipeline.step c.session (.session e)).point.isReturned = true
        rw [hpoint]
        exact hreturned
  | periodicIdr =>
      rw [step, periodicIdr]
      split
      · refine ⟨h, List.prefix_rfl, ?_, fun hchannel => .inl (Nat.add_pos_left hchannel 1), .inl, .inl, id⟩
        show g.forced + (inHand g.pipeline.point g.encoding.phase).toNat + g.pipeline.idr_request.toNat +
          (g.idr_channel + 1) + g.idr_sent ≤ g.forced + (inHand g.pipeline.point g.encoding.phase).toNat +
            g.pipeline.idr_request.toNat + g.idr_channel + (g.idr_sent + 1)
        omega
      · exact .refl h
  | relayIdr =>
      rw [step, relayIdr]
      split
      case isTrue hrelays =>
        refine ⟨h, List.prefix_rfl, ?_, fun _ => .inr rfl, fun _ => .inl rfl, .inl, id⟩
        show g.forced + (inHand g.pipeline.point g.encoding.phase).toNat + 1 + (g.idr_channel - 1) + g.idr_sent ≤
          g.forced + (inHand g.pipeline.point g.encoding.phase).toNat + g.pipeline.idr_request.toNat +
            g.idr_channel + g.idr_sent
        omega
      case isFalse => exact .refl h

/-! ### Runs -/

/-- A step is steps of the encoder. -/
theorem step_encoding (g : Streaming) (e : StreamEvent) :
    ∃ ls : List EncodeLabel, (step c g e).encoding = ls.foldl Encoding.step g.encoding := by
  cases e with
  | testStop => exact ⟨[], rfl⟩
  | acquire result now =>
      rw [step, acquire]
      split <;> exact ⟨[], rfl⟩
  | convert result => exact ⟨[], rfl⟩
  | transform offer => exact ⟨[offer.label], rfl⟩
  | encode a =>
      rw [step, encode]
      split
      · split
        · exact ⟨[.submitFrame _ _], rfl⟩
        · dsimp only
          split <;> exact ⟨[.turn a], rfl⟩
      · split
        · exact ⟨[.tryPacket], rfl⟩
        · dsimp only
          split <;> exact ⟨[.turn a], rfl⟩
      · exact ⟨[], rfl⟩
  | storeStop => exact ⟨[], rfl⟩
  | session e elapsed_at now => exact ⟨[], rfl⟩
  | periodicIdr =>
      rw [step, periodicIdr]
      split <;> exact ⟨[], rfl⟩
  | relayIdr =>
      rw [step, relayIdr]
      split <;> exact ⟨[], rfl⟩

/-- What every run keeps: the encoder is where the thread is, with its credits, and no frame was forced that
nobody asked for. -/
structure Relayed (g : Streaming) : Prop where
  fits : Fits g.pipeline.point g.encoding.phase
  granting : g.encoding.Granting
  counted : g.forced + (inHand g.pipeline.point g.encoding.phase).toNat + g.pipeline.idr_request.toNat +
    g.idr_channel ≤ g.idr_sent

theorem Relayed.step (h : g.Relayed) (e : StreamEvent) : (step c g e).Relayed := by
  have hrelays := step_relays (c := c) h.fits h.granting e
  have hcounted := hrelays.counted
  have hbefore := h.counted
  refine ⟨hrelays.fits, ?_, by omega⟩
  obtain ⟨ls, hls⟩ := step_encoding (c := c) g e
  rw [hls]
  have hstep : ∀ (s : Encoding) (l : EncodeLabel), s.Granting → (s.step l).Granting :=
    fun s l hs => (Encoding.ledger_step l hs).granting
  exact Run.invariant hstep ls h.granting

omit [BuildProfile] in
theorem start_relayed : (start c pts_epoch).Relayed where
  fits := by
    show Fits (if c.session.screen_off then .unspawned else .head) .idle
    split <;> trivial
  granting := Encoding.granting_start c.encode
  counted := by
    show 0 + (inHand (if c.session.screen_off then .unspawned else .head) .idle).toNat + 0 + 0 ≤ 0
    split <;> exact Nat.le_refl _

/-- A request has been answered since there were `n` samples, or is on its way, or nobody answers any more. -/
def Answered (n : ℕ) (g : Streaming) : Prop :=
  (∃ sample ∈ g.encoding.processInputs.drop n, sample.force_key_frame = true) ∨ 0 < g.idr_channel ∨
    g.pipeline.idr_request = true ∨ inHand g.pipeline.point g.encoding.phase = true ∨
      g.pipeline.point.isReturned = true

theorem Answered.step {n : ℕ} (h : g.Answered n) (hrelayed : g.Relayed)
    (hn : n ≤ g.encoding.processInputs.length) (e : StreamEvent) : (step c g e).Answered n := by
  have hrelays := step_relays (c := c) hrelayed.fits hrelayed.granting e
  rcases h with ⟨sample, hsample, hforce⟩ | hchannel | hflag | hhand | hreturned
  · exact .inl ⟨sample, (hrelays.inputs.sublist.drop n).mem hsample, hforce⟩
  · rcases hrelays.channel hchannel with hchannel | hflag
    · exact .inr (.inl hchannel)
    · exact .inr (.inr (.inl hflag))
  · rcases hrelays.flag hflag with hflag | hhand | hreturned
    · exact .inr (.inr (.inl hflag))
    · exact .inr (.inr (.inr (.inl hhand)))
    · exact .inr (.inr (.inr (.inr hreturned)))
  · rcases hrelays.hand hhand with hhand | hreturned | ⟨sample, hinputs, hforce⟩
    · exact .inr (.inr (.inr (.inl hhand)))
    · exact .inr (.inr (.inr (.inr hreturned)))
    · refine .inl ⟨sample, ?_, hforce⟩
      rw [hinputs, List.drop_append_of_le_length hn]
      exact List.mem_append_right _ List.mem_cons_self
  · exact .inr (.inr (.inr (.inr (hrelays.returned hreturned))))

theorem run_answered {n : ℕ} (hrelayed : g.Relayed) (h : g.Answered n)
    (hn : n ≤ g.encoding.processInputs.length) (es : List StreamEvent) : (es.foldl (step c) g).Answered n := by
  induction es generalizing g with
  | nil => exact h
  | cons e es ih =>
      have hinputs := (step_relays (c := c) hrelayed.fits hrelayed.granting e).inputs
      exact ih (hrelayed.step e) (h.step hrelayed hn e) (hn.trans hinputs.length_le)

theorem after_relayed (c : StreamConfig) (pts_epoch : ℕ) (es : List StreamEvent) :
    (after c pts_epoch es).Relayed := by
  have hstep : ∀ (g : Streaming) (e : StreamEvent), g.Relayed → (step c g e).Relayed := fun _ e h => h.step e
  exact Run.invariant hstep es start_relayed

/-- What is sent goes into the channel. -/
theorem channel_of_sent {e : StreamEvent} (h : g.idr_sent < (step c g e).idr_sent) :
    0 < (step c g e).idr_channel := by
  cases e with
  | session e elapsed_at now =>
      rw [step, sessionStep] at h ⊢
      have hsent : g.idr_sent < g.idr_sent + ((readLoopSends g.pipeline.session e).toNat +
        (motionSends c g e elapsed_at).toNat) := h
      show 0 < g.idr_channel + ((readLoopSends g.pipeline.session e).toNat +
        (motionSends c g e elapsed_at).toNat)
      omega
  | periodicIdr =>
      rw [step, periodicIdr] at h ⊢
      split at h
      case isTrue hruns =>
        rw [if_pos hruns]
        exact Nat.succ_pos _
      case isFalse => exact absurd h (Nat.lt_irrefl _)
  | acquire result now =>
      rw [step, acquire] at h
      split at h <;> exact absurd h (Nat.lt_irrefl _)
  | encode a =>
      rw [step, encode] at h
      split at h
      · split at h
        · exact absurd h (Nat.lt_irrefl _)
        · dsimp only at h
          split at h <;> exact absurd h (Nat.lt_irrefl _)
      · split at h
        · exact absurd h (Nat.lt_irrefl _)
        · dsimp only at h
          split at h <;> exact absurd h (Nat.lt_irrefl _)
      · exact absurd h (Nat.lt_irrefl _)
  | relayIdr =>
      rw [step, relayIdr] at h
      split at h <;> exact absurd h (Nat.lt_irrefl _)
  | _ => exact absurd h (Nat.lt_irrefl _)

/-- **No request is lost and none is made up.**  In every run at most as many frames are forced as requests were
sent, by the read loop, the frame pump or the timer.  And behind a request, once the channel is empty and the flag is down and no tick has it in hand while the
encode thread runs, a frame has been submitted as a key frame. -/
theorem idr_relay (c : StreamConfig) (pts_epoch : ℕ) (es : List StreamEvent) :
    (after c pts_epoch es).forced ≤ (after c pts_epoch es).idr_sent ∧
      ∀ pre e post, es = pre ++ e :: post →
        (after c pts_epoch pre).idr_sent < (after c pts_epoch (pre ++ [e])).idr_sent →
        (after c pts_epoch es).idr_channel = 0 → (after c pts_epoch es).pipeline.idr_request = false →
        inHand (after c pts_epoch es).pipeline.point (after c pts_epoch es).encoding.phase = false →
        (after c pts_epoch es).pipeline.point.isReturned = false →
        ∃ sample ∈ (after c pts_epoch es).encoding.processInputs.drop
            (after c pts_epoch pre).encoding.processInputs.length, sample.force_key_frame = true := by
  constructor
  · have hcounted := (after_relayed c pts_epoch es).counted
    omega
  · intro pre e post hes hsent hchannel hflag hhand hrunning
    have hbehind : after c pts_epoch (pre ++ [e]) = step c (after c pts_epoch pre) e := by
      rw [after, after, List.foldl_concat]
    have hpre := after_relayed c pts_epoch pre
    have hinputs := (step_relays (c := c) hpre.fits hpre.granting e).inputs
    rw [hbehind] at hsent
    have hanswered := run_answered (c := c) (hpre.step e) (.inr (.inl (channel_of_sent hsent)))
      hinputs.length_le post
    have hrun : after c pts_epoch es = post.foldl (step c) (step c (after c pts_epoch pre) e) := by
      rw [hes, after, List.foldl_append, ← after, List.foldl_cons]
    rw [← hrun] at hanswered
    rcases hanswered with hforced | hpos | hup | hheld | hended
    · exact hforced
    · rw [hchannel] at hpos
      exact absurd hpos (Nat.lt_irrefl 0)
    · rw [hflag] at hup
      cases hup
    · rw [hhand] at hheld
      cases hheld
    · rw [hrunning] at hended
      cases hended

/-- The first frame, up to the wire. -/
def firstSent : List StreamEvent := oneFrame 7 ⟨(EncodedPacket.idr 0).bytes, none⟩ ++ handshake

def idrAsked : StreamEvent := .session (.receive msgRequestIdr [] 0 0) 0 0

/-- The request goes to the pipeline, and the next frame to the encoder. -/
def idrRelayed : List StreamEvent :=
  let a := Encoding.goodAnswers none 17
  [.relayIdr, .testStop, .acquire (.ok none) 17, .convert (.ok ()), .encode a, .encode a]

omit [BuildProfile] in
theorem relayed_behind :
    letI : BuildProfile := ⟨true⟩
    let g := after (.fullHd none none) 0 (firstSent ++ idrAsked :: idrRelayed)
    g.idr_channel = 0 ∧ g.pipeline.idr_request = false ∧ inHand g.pipeline.point g.encoding.phase = false ∧
      g.pipeline.point.isReturned = false := by
  decide +kernel

omit [BuildProfile] in
/-- The request of the client is answered by the next frame. -/
theorem idr_relay_asked :
    letI : BuildProfile := ⟨true⟩
    ∃ sample ∈ (after (.fullHd none none) 0 (firstSent ++ idrAsked :: idrRelayed)).encoding.processInputs.drop
        (after (.fullHd none none) 0 firstSent).encoding.processInputs.length,
      sample.force_key_frame = true := by
  have hsent : (@after (.fullHd none none) ⟨true⟩ 0 firstSent).idr_sent <
      (@after (.fullHd none none) ⟨true⟩ 0 (firstSent ++ [idrAsked])).idr_sent := by
    decide +kernel
  obtain ⟨hchannel, hflag, hhand, hrunning⟩ := relayed_behind
  exact (@idr_relay ⟨true⟩ (.fullHd none none) 0 (firstSent ++ idrAsked :: idrRelayed)).2 firstSent idrAsked
    idrRelayed rfl hsent hchannel hflag hhand hrunning

/-! ### The requests of the frame pump -/

/-- The two instants at each request that `frame_pump` sends. -/
def motionIdrs (c : StreamConfig) : Streaming → List StreamEvent → List (ℕ × ℕ)
  | _, [] => []
  | g, .session e elapsed_at now :: es =>
    (if motionSends c g e elapsed_at then [(elapsed_at, now)] else []) ++
      motionIdrs c (step c g (.session e elapsed_at now)) es
  | g, e :: es => motionIdrs c (step c g e) es

theorem last_motion_idr_step {e : StreamEvent} (he : ∀ e' elapsed_at now, e ≠ .session e' elapsed_at now) :
    (step c g e).last_motion_idr = g.last_motion_idr := by
  cases e with
  | session e' elapsed_at now => exact absurd rfl (he e' elapsed_at now)
  | acquire result now =>
      rw [step, acquire]
      split <;> rfl
  | encode a =>
      rw [step, encode]
      split
      · split
        · rfl
        · dsimp only
          split <;> rfl
      · split
        · rfl
        · dsimp only
          split <;> rfl
      · rfl
  | periodicIdr =>
      rw [step, periodicIdr]
      split <;> rfl
  | relayIdr =>
      rw [step, relayIdr]
      split <;> rfl
  | _ => rfl

omit [BuildProfile] in
/-- A request comes the least interval behind the one before. -/
theorem apart_of_motionSends {e : Event} {elapsed_at : ℕ} (hpos : 0 < c.motion_idr_min_interval)
    (h : motionSends c g e elapsed_at = true) :
    ∀ last ∈ g.last_motion_idr, last + c.motion_idr_min_interval ≤ elapsed_at := by
  intro last hlast
  rw [motionSends] at h
  have hall := (Bool.and_eq_true_iff.1 h).2
  rw [Option.mem_def.1 hlast, Option.all_some, decide_eq_true_eq] at hall
  omega

theorem motionIdrs_apart (hpos : 0 < c.motion_idr_min_interval) {es : List StreamEvent}
    (hclock : ∀ e elapsed_at now, .session e elapsed_at now ∈ es → elapsed_at ≤ now) :
    (∀ p ∈ motionIdrs c g es, p.1 ≤ p.2 ∧
        ∀ last ∈ g.last_motion_idr, last + c.motion_idr_min_interval ≤ p.1) ∧
      (motionIdrs c g es).Pairwise fun p q => p.2 + c.motion_idr_min_interval ≤ q.1 := by
  induction es generalizing g with
  | nil => exact ⟨fun p hp => absurd hp List.not_mem_nil, List.Pairwise.nil⟩
  | cons e es ih =>
      have hrest : ∀ e elapsed_at now, .session e elapsed_at now ∈ es → elapsed_at ≤ now :=
        fun e elapsed_at now hmem => hclock e elapsed_at now (List.mem_cons_of_mem _ hmem)
      obtain ⟨hlast, hpairs⟩ := ih (g := step c g e) hrest
      cases e with
      | session e elapsed_at now =>
          have hle := hclock e elapsed_at now List.mem_cons_self
          rw [motionIdrs]
          cases hsends : motionSends c g e elapsed_at with
          | false =>
              have hsame : (step c g (.session e elapsed_at now)).last_motion_idr = g.last_motion_idr := by
                show (if motionSends c g e elapsed_at then some now else g.last_motion_idr) = _
                rw [hsends]
                rfl
              rw [hsame] at hlast
              exact ⟨hlast, hpairs⟩
          | true =>
              have hsame : (step c g (.session e elapsed_at now)).last_motion_idr = some now := by
                show (if motionSends c g e elapsed_at then some now else g.last_motion_idr) = _
                rw [hsends]
                rfl
              have happart := apart_of_motionSends hpos hsends
              rw [hsame] at hlast
              rw [if_pos rfl, List.singleton_append]
              refine ⟨?_, List.Pairwise.cons (fun q hq => (hlast q hq).2 now rfl) hpairs⟩
              intro p hp
              rcases List.mem_cons.1 hp with rfl | hp
              · exact ⟨hle, happart⟩
              · refine ⟨(hlast p hp).1, fun last hmem => ?_⟩
                have hthis := happart last hmem
                have hnext := (hlast p hp).2 now rfl
                omega
      | _ =>
          rw [last_motion_idr_step (by intro e' t n he; cases he)] at hlast
          exact ⟨hlast, hpairs⟩

omit [BuildProfile] in
/-- Spans with gaps of at least `d` between them: a window of length `len` has the starts of at most
`len / d + 1`. -/
theorem length_le_of_apart {d : ℕ} (hd : 0 < d) {ps : List (ℕ × ℕ)} (hspan : ∀ p ∈ ps, p.1 ≤ p.2)
    (happart : ps.Pairwise fun p q => p.2 + d ≤ q.1) (lo len : ℕ)
    (hwindow : ∀ p ∈ ps, lo ≤ p.1 ∧ p.1 ≤ lo + len) : ps.length ≤ len / d + 1 := by
  induction ps generalizing lo len with
  | nil => exact Nat.zero_le _
  | cons p ps ih =>
      obtain ⟨hfirst, hrest⟩ := List.pairwise_cons.1 happart
      have hp := hwindow p List.mem_cons_self
      have hple := hspan p List.mem_cons_self
      cases ps with
      | nil => exact Nat.le_add_left 1 _
      | cons q qs =>
          have hq := hwindow q (List.mem_cons_of_mem _ List.mem_cons_self)
          have hgap := hfirst q List.mem_cons_self
          have hlen : d ≤ len := by omega
          have hlater : ∀ r ∈ q :: qs, lo + d ≤ r.1 ∧ r.1 ≤ lo + d + (len - d) := by
            intro r hr
            have hr' := hwindow r (List.mem_cons_of_mem _ hr)
            have hgap' := hfirst r hr
            omega
          have hlength := ih (fun r hr => hspan r (List.mem_cons_of_mem _ hr)) hrest (lo + d) (len - d) hlater
          rw [List.length_cons, Nat.div_eq_sub_div hd hlen]
          exact Nat.succ_le_succ hlength

theorem motionIdrs_append (g : Streaming) (es es' : List StreamEvent) :
    motionIdrs c g (es ++ es') = motionIdrs c g es ++ motionIdrs c (es.foldl (step c) g) es' := by
  induction es generalizing g with
  | nil => rfl
  | cons e es ih =>
      cases e with
      | session e elapsed_at now =>
          rw [List.cons_append, motionIdrs, motionIdrs, ih, List.append_assoc, List.foldl_cons]
      | _ =>
          rw [List.cons_append, motionIdrs, motionIdrs, ih, List.foldl_cons]
          all_goals intro e' elapsed_at now he; cases he

/-- The instant that `frame_pump` keeps is that of its last request. -/
theorem last_mem_motionIdrs (pts_epoch : ℕ) (es : List StreamEvent) :
    ∀ last ∈ (after c pts_epoch es).last_motion_idr,
      ∃ p ∈ motionIdrs c (start c pts_epoch) es, p.2 = last := by
  induction es using List.reverseRecOn with
  | nil => exact fun last hlast => absurd hlast (Option.not_mem_none last)
  | append_singleton es e ih =>
      intro last hlast
      rw [after, List.foldl_concat, ← after] at hlast
      rw [motionIdrs_append, ← after]
      have hbefore : last ∈ (after c pts_epoch es).last_motion_idr →
          ∃ p ∈ motionIdrs c (start c pts_epoch) es ++ motionIdrs c (after c pts_epoch es) [e], p.2 = last := by
        intro hmem
        obtain ⟨p, hp, heq⟩ := ih last hmem
        exact ⟨p, List.mem_append_left _ hp, heq⟩
      cases e with
      | session e elapsed_at now =>
          have hstep : last ∈ (if motionSends c (after c pts_epoch es) e elapsed_at then some now
              else (after c pts_epoch es).last_motion_idr) := hlast
          split at hstep
          case isTrue hsends =>
            refine ⟨(elapsed_at, now), List.mem_append_right _ ?_, Option.some.inj hstep⟩
            rw [motionIdrs, if_pos hsends]
            exact List.mem_append_left _ List.mem_cons_self
          case isFalse => exact hbefore hstep
      | _ =>
          rw [last_motion_idr_step (by intro e' t n he; cases he)] at hlast
          exact hbefore hlast

/-- **The throttle of the recovery requests.**  However the steps fall, a window of time has at most one request
of `frame_pump` for each least interval in it and one more; and behind every large delta frame that is flushed
there is a request at once, or the last one lies less than the least interval back. -/
theorem motion_throttle (c : StreamConfig) (pts_epoch : ℕ) {es : List StreamEvent}
    (hpos : 0 < c.motion_idr_min_interval)
    (hclock : ∀ e elapsed_at now, .session e elapsed_at now ∈ es → elapsed_at ≤ now) :
    (∀ lo len, (motionIdrs c (start c pts_epoch) es).countP (fun p => decide (lo ≤ p.1 ∧ p.1 ≤ lo + len)) ≤
        len / c.motion_idr_min_interval + 1) ∧
      ∀ e elapsed_at now, flushedLarge c (after c pts_epoch es).pipeline.session e = true →
        (after c pts_epoch (es ++ [.session e elapsed_at now])).idr_channel =
            (after c pts_epoch es).idr_channel + 1 ∨
          ∃ p ∈ motionIdrs c (start c pts_epoch) es, elapsed_at < p.2 + c.motion_idr_min_interval := by
  constructor
  · intro lo len
    obtain ⟨hspan, happart⟩ := motionIdrs_apart (g := start c pts_epoch) hpos hclock
    rw [List.countP_eq_length_filter]
    refine length_le_of_apart hpos ?_ (happart.sublist List.filter_sublist) lo len ?_
    · exact fun p hp => (hspan p (List.mem_of_mem_filter hp)).1
    · exact fun p hp => of_decide_eq_true (List.mem_filter.1 hp).2
  · intro e elapsed_at now hlarge
    cases hsends : motionSends c (after c pts_epoch es) e elapsed_at with
    | true =>
        left
        have hnone : readLoopSends (after c pts_epoch es).pipeline.session e = false := by
          cases e with
          | receive msg_id payload written now => cases hlarge
          | _ => rfl
        rw [after, List.foldl_concat, ← after]
        show (after c pts_epoch es).idr_channel +
          ((readLoopSends (after c pts_epoch es).pipeline.session e).toNat +
            (motionSends c (after c pts_epoch es) e elapsed_at).toNat) = _
        rw [hnone, hsends]
        rfl
    | false =>
        right
        rw [motionSends, hlarge, Bool.true_and] at hsends
        cases hlast : (after c pts_epoch es).last_motion_idr with
        | none =>
            rw [hlast] at hsends
            cases hsends
        | some last =>
            obtain ⟨p, hp, heq⟩ := last_mem_motionIdrs pts_epoch es last hlast
            rw [hlast, Option.all_some, decide_eq_false_iff_not] at hsends
            exact ⟨p, hp, by omega⟩

/-- The first delta frame, up to its flush. -/
def deltaWritten : List StreamEvent :=
  let sample : OutputSample := ⟨(EncodedPacket.delta 0).bytes, none⟩
  let a := Encoding.goodAnswers (some sample) 17
  oneFrame 7 ⟨(EncodedPacket.idr 0).bytes, none⟩ ++ handshake ++
    [.testStop, .acquire (.ok none) 17, .convert (.ok ()), .encode a, .encode a, .transform (.haveOutput sample),
      .encode a, .transform .needInput, .encode a, .encode a, .encode a, .encode a, .encode a] ++
    [.popTurn false, .selectPop, .lock .framePump, .write 27].map fun e => .session e 0 0

omit [BuildProfile] in
/-- A delta frame of one byte or more asks for a key frame. -/
theorem motion_throttle_delta :
    letI : BuildProfile := ⟨true⟩
    let c := StreamConfig.fullHd none (some 1)
    (after c 0 (deltaWritten ++ [.session (.flush true) 20 21])).idr_channel = 1 := by
  have hlarge : flushedLarge (.fullHd none (some 1))
      (@after (.fullHd none (some 1)) ⟨true⟩ 0 deltaWritten).pipeline.session (.flush true) = true := by
    decide +kernel
  have hbefore : (@after (.fullHd none (some 1)) ⟨true⟩ 0 deltaWritten).idr_channel = 0 ∧
      @motionIdrs ⟨true⟩ (.fullHd none (some 1)) (start (.fullHd none (some 1)) 0) deltaWritten = [] := by
    decide +kernel
  let _ : BuildProfile := ⟨true⟩
  have hclock : ∀ e elapsed_at now, .session e elapsed_at now ∈ deltaWritten → elapsed_at ≤ now := by
    intro e elapsed_at now hmem
    simp [deltaWritten, oneFrame, handshake] at hmem
    omega
  have hthrottle := (motion_throttle (.fullHd none (some 1)) 0 (by decide) hclock).2 (.flush true) 20 21 hlarge
  rw [hbefore.1, hbefore.2] at hthrottle
  rcases hthrottle with hsent | ⟨p, hp, -⟩
  · exact hsent
  · exact absurd hp List.not_mem_nil

end Streaming

end Penflow
