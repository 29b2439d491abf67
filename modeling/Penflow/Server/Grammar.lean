import Penflow.Server.Delivery
import Penflow.Server.Framed

/-!
# The grammar of a session

What a session sends is its handshake, and then frames of the pumps and of the read loop and goodbyes; in
video mode the handshake ends with the parameter sets and the first keyframe, and without a screen behind
the client configuration.
-/

namespace Penflow

/-- The frames of the handshake. -/
def handshake (c : SessionConfig) : Option EncodedPacket → List Frame
  | none => [c.helloFrame, c.configFrame]
  | some first => [c.helloFrame, c.configFrame, c.csd0Frame first, firstFrame first]

theorem handshake_ne_nil (c : SessionConfig) (first : Option EncodedPacket) :
    handshake c first ≠ [] := by
  cases first <;> simp [handshake]

/-- A frame that is sent behind the handshake. -/
inductive Later : Frame → Prop where
  | video (pkt : EncodedPacket) : Later (pumpFrame pkt)
  | telemetry (tel : Telemetry) : Later (telemetryFrame tel)
  | resp (resp : TimeSyncResp) : Later (respFrame resp)
  | goodbye : Later goodbyeFrame

/-- The frames of the packet are no longer than a frame may be. -/
def EncodedPacket.Fits (c : SessionConfig) (pkt : EncodedPacket) : Prop :=
  pkt.bytes.length + 17 ≤ maxPayloadLen ∧ (c.csd0 pkt.bytes).length ≤ maxPayloadLen

theorem VideoFrame.encode_length_le (m : VideoFrame) : m.encode.length ≤ m.coded.length + 17 := by
  cases hext : m.extended <;> simp [VideoFrame.encode, hext] <;> omega

namespace Session

variable {c : SessionConfig} {s : Session}

/-- The packet of the handshake. -/
def first (s : Session) : Option EncodedPacket := (taken s.departed).head?

/-- How the frames of the session go, phase by phase. -/
structure Grammar (c : SessionConfig) (s : Session) : Prop where
  awaiting : s.run = .awaitKeyframe → s.script = []
  greeting : s.run = .greeting → s.script = handshake c s.first
  failed : s.run = .failed → s.script <+: handshake c s.first
  serving : RunPhase.serving.rank ≤ s.run.rank → handshake c s.first <+: s.wire.map (·.frame) ∧
    ∃ rest, s.script = handshake c s.first ++ rest ∧ ∀ f ∈ rest, Later f
  mode : s.script ≠ [] → (s.first = none ↔ c.screen_off = true)

/-! ### What stays -/

/-- The packet of the handshake stays the first one taken. -/
theorem step_first (hflow : s.Flow c) (hrun : s.run ≠ .awaitKeyframe) (e : Event) :
    (step c s e).first = s.first := by
  by_cases hpush : ∃ pkt, e = .push pkt
  · obtain ⟨pkt, rfl⟩ := hpush
    show (taken (push c s pkt).departed).head? = _
    unfold push
    split
    · rfl
    · show (taken (_ ++ _)).head? = _
      rw [taken_append, taken_overflowed, List.append_nil]
      rfl
  by_cases hpop : ∃ expired, e = .popTurn expired
  · obtain ⟨expired, rfl⟩ := hpop
    show (taken (s.popTurn expired).departed).head? = _
    unfold popTurn
    split
    case h_1 hrunning =>
      have hsome := (hflow.popping hrunning).resolve_left hrun
      split
      · rfl
      · rfl
      · show (taken (_ ++ _)).head? = _
        rw [taken_append, List.head?_append_of_ne_nil _ hsome]
        rfl
    case h_2 => rfl
  obtain ⟨hdeparted, -⟩ := step_departed (c := c) s (fun pkt h => hpush ⟨pkt, h⟩)
    fun expired h => hpop ⟨expired, h⟩
  rw [first, hdeparted]
  rfl

/-- The frames on the wire stay there. -/
theorem step_wire_kept (hwf : s.Wf) (e : Event) :
    s.wire.map (·.frame) <+: (step c s e).wire.map (·.frame) := by
  by_cases hwrite : ∃ n, e = .write n
  · obtain ⟨n, rfl⟩ := hwrite
    rw [step]
    rcases write_wire hwf n with hsame | ⟨t, f, k, next, pre, -, hwire, hwritten⟩
    · rw [hsame]
    · rw [hwritten, hwire, List.map_append, List.map_append]
      cases k with
      | zero => exact (List.prefix_append_right_inj _).2 List.nil_prefix
      | succ k => exact List.prefix_rfl
  · rw [step_wire s e fun n hn => hwrite ⟨n, hn⟩]

/-- Before the handshake the run waits for the keyframe, and a run that has failed is over. -/
theorem step_run_idle (hph : s.Phases c) (hrun : s.run = .awaitKeyframe ∨ s.run = .failed) {e : Event}
    (he : s.run = .awaitKeyframe → ∀ expired, e ≠ .keyframe expired) : (step c s e).run = s.run := by
  have hwriter : s.writer = none := by
    rcases hrun with hrun | hrun
    · exact (hph.waiting hrun).1
    · exact hph.failed hrun
  obtain ⟨hframe, htelemetry, hread, haborted⟩ := hph.unspawned (hrun.imp_right .inr)
  by_cases haside : e.aside = true
  · exact (step_sameRun haside).same_run
  cases e with
  | keyframe expired =>
      have hfailed : s.run = .failed := hrun.resolve_left fun h => he h expired rfl
      simp [step, waitForKeyframe, hfailed]
  | lock t =>
      rw [step]
      rcases lock_cases s t with heq | ⟨-, ⟨-, hlocking, heq⟩ | ⟨-, pkt, -, heq⟩ | ⟨-, tel, -, heq⟩ |
        ⟨-, resp, -, heq⟩⟩
      · rw [heq]
      · rcases hrun with hrun | hrun
        · rw [hrun] at hlocking
          cases hlocking
        · rw [hrun] at hlocking
          cases hlocking
      · rw [heq]
      · rw [heq]
      · rw [heq]
  | write n => simp [step, write, hwriter]
  | writeFails => simp [step, writeFails, hwriter]
  | flush ok => simp [step, flush, hwriter]
  | cancel => simp [step, cancel, haborted]
  | readLoopEnded => rcases hrun with hrun | hrun <;> simp [step, readLoopEnded, hrun]
  | finish => rcases hrun with hrun | hrun <;> simp [step, finish, hrun]
  | notify => rcases hrun with hrun | hrun <;> simp [step, notify, hrun]
  | joined timed_out => rcases hrun with hrun | hrun <;> simp [step, joined, hrun]
  | engineStop => rcases hrun with hrun | hrun <;> simp [step, engineStop, hrun]
  | _ => exact absurd rfl haside

/-- During the handshake only the run writes. -/
theorem holder_of_greeting (hwf : s.Wf) (hph : s.Phases c) (hrun : s.run = .greeting) {t : Task}
    {w : Writing} (hwriter : s.writer = some (t, w)) : t = .run := by
  obtain ⟨hframe, htelemetry, hread, -⟩ := hph.unspawned (.inr (.inl hrun))
  have hsending := hwf.holder t w hwriter
  cases t with
  | run => rfl
  | framePump => simp [Sending, hframe] at hsending
  | telemetryPump => simp [Sending, htelemetry] at hsending
  | readLoop => simp [Sending, hread] at hsending

/-- The handshake goes on, fails, or is out. -/
theorem step_run_greeting (hwf : s.Wf) (hph : s.Phases c) (hrun : s.run = .greeting) (e : Event) :
    (step c s e).run = .greeting ∧ (step c s e).broken = s.broken ∨ (step c s e).run = .failed ∨
      step c s e = spawn c s ∧ s.writer = some (.run, .flush) := by
  have haborted := (hph.unspawned (.inr (.inl hrun))).2.2.2
  by_cases haside : e.aside = true
  · exact .inl ⟨(step_sameRun haside).same_run.trans hrun, (step_sameRun haside).broken⟩
  cases e with
  | keyframe expired => exact .inl (by simp [step, waitForKeyframe, hrun])
  | lock t =>
      left
      rw [step]
      rcases lock_cases s t with heq | ⟨-, ⟨-, hlocking, heq⟩ | ⟨-, pkt, -, heq⟩ | ⟨-, tel, -, heq⟩ |
        ⟨-, resp, -, heq⟩⟩
      · rw [heq]
        exact ⟨hrun, rfl⟩
      · rw [hrun] at hlocking
        cases hlocking
      · rw [heq]
        exact ⟨hrun, rfl⟩
      · rw [heq]
        exact ⟨hrun, rfl⟩
      · rw [heq]
        exact ⟨hrun, rfl⟩
  | write n =>
      left
      rw [step]
      rcases write_cases s n with hsame | ⟨t, f, k, next, -, -, -, ⟨-, hpart⟩ | ⟨-, hall⟩⟩
      · rw [hsame]
        exact ⟨hrun, rfl⟩
      · rw [hpart]
        exact ⟨hrun, rfl⟩
      · rw [hall]
        exact ⟨hrun, rfl⟩
  | writeFails =>
      rw [step, writeFails]
      split
      case h_1 t f n next hwriter =>
        obtain rfl := holder_of_greeting hwf hph hrun hwriter
        simp [sendFailed, failRun, hrun]
      case h_2 => exact .inl ⟨hrun, rfl⟩
  | flush ok =>
      rw [step, flush]
      split
      case h_1 t hwriter =>
        obtain rfl := holder_of_greeting hwf hph hrun hwriter
        cases ok with
        | true => exact .inr (.inr ⟨by simp [sent, hrun], hwriter⟩)
        | false => exact .inr (.inl (by simp [sendFailed, failRun, hrun]))
      case h_2 => exact .inl ⟨hrun, rfl⟩
  | cancel => exact .inl (by simp [step, cancel, haborted, hrun])
  | readLoopEnded => exact .inl (by simp [step, readLoopEnded, hrun])
  | finish => exact .inl (by simp [step, finish, hrun])
  | notify => exact .inl (by simp [step, notify, hrun])
  | joined timed_out => exact .inl (by simp [step, joined, hrun])
  | engineStop => exact .inl (by simp [step, engineStop, hrun])
  | _ => exact absurd rfl haside

/-- Before the tasks are spawned no frame begins but those of the handshake. -/
theorem begins_early (hph : s.Phases c)
    (hrun : s.run = .awaitKeyframe ∨ s.run = .greeting ∨ s.run = .failed) {e : Event}
    (he : s.run = .awaitKeyframe → ∀ expired, e ≠ .keyframe expired) : begins c s e = [] := by
  obtain ⟨hframe, htelemetry, hread, -⟩ := hph.unspawned hrun
  have hlock : s.run ≠ .lockingGoodbye := by
    rcases hrun with hrun | hrun | hrun <;> simp [hrun]
  cases e with
  | keyframe expired =>
      have hother : s.run ≠ .awaitKeyframe := fun h => he h expired rfl
      simp [begins, hother]
  | lock t =>
      cases hwriter : s.writer with
      | some held => simp [begins, hwriter]
      | none => cases t <;> simp [begins, hwriter, hlock, hframe, htelemetry, hread]
  | _ => rfl

/-- Behind the handshake every frame that begins is a later one. -/
theorem begins_later (hrank : RunPhase.serving.rank ≤ s.run.rank) (e : Event) :
    ∀ f ∈ begins c s e, Later f := by
  intro f hf
  rcases mem_begins hf with ⟨hwait, -⟩ | ⟨rfl, -⟩ | ⟨pkt, -, rfl⟩ | ⟨tel, -, rfl⟩ | ⟨resp, -, rfl⟩
  · rw [hwait] at hrank
    exact absurd hrank (by decide)
  · exact .goodbye
  · exact .video pkt
  · exact .telemetry tel
  · exact .resp resp

theorem start_grammar : (start c).Grammar c := by
  cases hoff : c.screen_off with
  | true => constructor <;> simp [start, script, first, taken, handshake, Writing.unbegun, hoff, RunPhase.rank]
  | false => constructor <;> simp [start, script, hoff, RunPhase.rank]

/-! ### Step by step -/

/-- The first keyframe ends the wait. -/
theorem keyframe_grammar (hph : s.Phases c) (hflow : s.Flow c) (h : s.Grammar c)
    (hrun : s.run = .awaitKeyframe) (expired : Bool) : (waitForKeyframe c s expired).Grammar c := by
  obtain ⟨hwriter, hwire, -⟩ := hph.waiting hrun
  have hscript := h.awaiting hrun
  have hfail : s.failRun.Grammar c := by
    have hnil : s.failRun.script = [] := by simp [failRun, script, hwire]
    refine ⟨?_, ?_, ?_, ?_, fun hne => absurd hnil hne⟩
    · intro hrun'
      cases hrun'
    · intro hrun'
      cases hrun'
    · intro _
      rw [hnil]
      exact List.nil_prefix
    · intro hrank
      exact absurd hrank (by decide : ¬ RunPhase.serving.rank ≤ RunPhase.failed.rank)
  have hagain : Grammar c { s with pop := .running } :=
    ⟨h.awaiting, h.greeting, h.failed, h.serving, h.mode⟩
  unfold waitForKeyframe
  split
  case h_1 pkt _ hpop =>
    split
    case isTrue hkey =>
      unfold greet
      split
      · exact hfail
      · have htaken := hflow.taken_of_keyframe hrun hpop hkey
        refine ⟨?_, ?_, ?_, ?_, ?_⟩
        · intro hrun'
          cases hrun'
        · intro _
          rw [script_of_some rfl, hwire]
          show _ = handshake c (taken s.departed).head?
          rw [htaken]
          rfl
        · intro hrun'
          cases hrun'
        · intro hrank
          exact absurd hrank (by decide : ¬ RunPhase.serving.rank ≤ RunPhase.greeting.rank)
        · intro _
          have hoff : c.screen_off ≠ true := fun hoff => (hph.screen_off hoff).2.2.1 hrun
          show (taken s.departed).head? = none ↔ _
          rw [htaken]
          simp [hoff]
    case isFalse =>
      split
      · exact hfail
      · exact hagain
  case h_2 =>
    split
    · exact hfail
    · exact hagain
  case h_3 => exact hfail
  case h_4 => exact h

/-- Anything else leaves the session waiting, with nothing to send. -/
theorem awaiting_grammar (hwf : s.Wf) (hph : s.Phases c) (h : s.Grammar c) (hrun : s.run = .awaitKeyframe)
    {e : Event} (hkey : ∀ expired, e ≠ .keyframe expired) : (step c s e).Grammar c := by
  have he : s.run = .awaitKeyframe → ∀ expired, e ≠ .keyframe expired := fun _ => hkey
  have hrun' := step_run_idle (c := c) hph (.inl hrun) he
  have hscript : (step c s e).script = [] := by
    rcases script_step hwf hph e with hscript | hcut
    · rw [hscript, h.awaiting hrun, begins_early hph (.inl hrun) he]
      rfl
    · have hfront := hcut.front
      rw [h.awaiting hrun] at hfront
      exact List.prefix_nil.1 hfront
  rw [hrun] at hrun'
  refine ⟨fun _ => hscript, ?_, ?_, ?_, fun hne => absurd hscript hne⟩ <;> rw [hrun']
  · intro hother
    cases hother
  · intro hother
    cases hother
  · intro hrank
    exact absurd hrank (by decide)

/-- What was decided about the first frame stays, whether the script is cut or begun. -/
theorem step_mode (hflow : s.Flow c) (h : s.Grammar c) (hrun : s.run ≠ .awaitKeyframe) {e : Event}
    (hscript : (step c s e).script <+: s.script ∨ s.script ≠ []) (hne : (step c s e).script ≠ []) :
    (step c s e).first = none ↔ c.screen_off = true := by
  rw [step_first hflow hrun e]
  apply h.mode
  rcases hscript with hfront | hscript
  · intro hnil
    rw [hnil] at hfront
    exact hne (List.prefix_nil.1 hfront)
  · exact hscript

/-- After a failure nothing is added. -/
theorem failed_grammar (hwf : s.Wf) (hph : s.Phases c) (hflow : s.Flow c) (h : s.Grammar c)
    (hfailed : s.run = .failed) (e : Event) : (step c s e).Grammar c := by
  have hrun : s.run ≠ .awaitKeyframe := by
    rw [hfailed]
    decide
  have hrun' := step_run_idle (c := c) (e := e) hph (.inr hfailed) fun h => absurd h hrun
  have hscript : (step c s e).script <+: s.script := by
    rcases script_step hwf hph e with hscript | hcut
    · rw [hscript, begins_early hph (.inr (.inr hfailed)) fun h => absurd h hrun, List.append_nil]
    · exact hcut.front
  rw [hfailed] at hrun'
  refine ⟨?_, ?_, ?_, ?_, step_mode hflow h hrun (.inl hscript)⟩ <;> rw [hrun']
  · intro hother
    cases hother
  · intro hother
    cases hother
  · intro _
    rw [step_first hflow hrun e]
    exact hscript.trans (h.failed hfailed)
  · intro hrank
    exact absurd hrank (by decide)

/-- The handshake stays as it was begun, unless a write fails and ends the run. -/
theorem greeting_grammar (hwf : s.Wf) (hph : s.Phases c) (hflow : s.Flow c) (h : s.Grammar c)
    (hgreet : s.run = .greeting) (e : Event) : (step c s e).Grammar c := by
  have hrun : s.run ≠ .awaitKeyframe := by
    rw [hgreet]
    decide
  have hfirst := step_first hflow hrun e
  have hcuts : Cut s (step c s e) → (step c s e).run = .failed := by
    rintro ⟨t, w, hwriter, -, hfail, -⟩
    exact hfail (holder_of_greeting hwf hph hgreet hwriter) hgreet
  have hscript := (script_step hwf hph e).imp_right fun hcut => And.intro hcut.front (hcuts hcut)
  rw [begins_early hph (.inr (.inl hgreet)) fun h => absurd h hrun, List.append_nil,
    h.greeting hgreet] at hscript
  have hne : s.script ≠ [] := by
    rw [h.greeting hgreet]
    exact handshake_ne_nil c s.first
  refine ⟨?_, ?_, ?_, ?_, step_mode hflow h hrun (.inr hne)⟩
  · intro hrun'
    have hrank := step_rank (c := c) hwf e
    rw [hgreet, hrun'] at hrank
    exact absurd hrank (by decide)
  · intro hrun'
    rw [hfirst]
    rcases hscript with hscript | ⟨-, hfail⟩
    · exact hscript
    · rw [hrun'] at hfail
      cases hfail
  · intro _
    rw [hfirst]
    rcases hscript with hscript | ⟨hfront, -⟩
    · rw [hscript]
    · exact hfront
  · intro hrank
    rw [hfirst]
    rcases step_run_greeting (c := c) hwf hph hgreet e with ⟨hrun', -⟩ | hrun' | ⟨hspawn, -⟩
    · rw [hrun'] at hrank
      exact absurd hrank (by decide)
    · rw [hrun'] at hrank
      exact absurd hrank (by decide)
    · rcases hscript with hscript | ⟨-, hfail⟩
      · have hwire : (step c s e).script = (step c s e).wire.map (·.frame) := by
          rw [hspawn]
          exact script_of_none rfl
        rw [← hwire, hscript]
        exact ⟨List.prefix_rfl, [], (List.append_nil _).symm, fun f hf => by cases hf⟩
      · rw [hfail] at hrank
        exact absurd hrank (by decide)

/-- Behind the handshake later frames are added, and what is cut off was one of them. -/
theorem serving_grammar (hwf : s.Wf) (hph : s.Phases c) (hflow : s.Flow c) (h : s.Grammar c)
    (hrank : RunPhase.serving.rank ≤ s.run.rank) (e : Event) : (step c s e).Grammar c := by
  have hrun : s.run ≠ .awaitKeyframe := by
    intro hrun
    rw [hrun] at hrank
    exact absurd hrank (by decide)
  have hfirst := step_first hflow hrun e
  have hrank' := le_trans hrank (step_rank (c := c) hwf e)
  obtain ⟨hwire, rest, hrest, hlater⟩ := h.serving hrank
  have hwire' := hwire.trans (step_wire_kept (c := c) hwf e)
  have hne : s.script ≠ [] := by
    rw [hrest]
    exact List.append_ne_nil_of_left_ne_nil (handshake_ne_nil c s.first) rest
  refine ⟨?_, ?_, ?_, ?_, step_mode hflow h hrun (.inr hne)⟩
  · intro hrun'
    rw [hrun'] at hrank'
    exact absurd hrank' (by decide)
  · intro hrun'
    rw [hrun'] at hrank'
    exact absurd hrank' (by decide)
  · intro hrun'
    rw [hrun'] at hrank'
    exact absurd hrank' (by decide)
  · intro _
    rw [hfirst]
    refine ⟨hwire', ?_⟩
    rcases script_step hwf hph e with hscript | hcut
    · refine ⟨rest ++ begins c s e, ?_, ?_⟩
      · rw [hscript, hrest, List.append_assoc]
      · intro f hf
        rcases List.mem_append.1 hf with hf | hf
        · exact hlater f hf
        · exact begins_later hrank e f hf
    · -- the handshake is on the wire, so that what is cut off stood behind it
      have hscript' : handshake c s.first <+: (step c s e).script :=
        hwire'.trans (List.prefix_append _ _)
      obtain ⟨rest', hrest'⟩ := hscript'
      have hfront := hcut.front
      rw [← hrest', hrest] at hfront
      refine ⟨rest', hrest'.symm, fun f hf => hlater f ?_⟩
      exact ((List.prefix_append_right_inj _).1 hfront).subset hf

theorem step_grammar (hwf : s.Wf) (hph : s.Phases c) (hflow : s.Flow c) (h : s.Grammar c) (e : Event) :
    (step c s e).Grammar c := by
  rcases s.run.early_or_serving with hrun | hgreet | hfailed | hrank
  · by_cases hkey : ∃ expired, e = .keyframe expired
    · obtain ⟨expired, rfl⟩ := hkey
      exact keyframe_grammar hph hflow h hrun expired
    · exact awaiting_grammar hwf hph h hrun fun expired he => hkey ⟨expired, he⟩
  · exact greeting_grammar hwf hph hflow h hgreet e
  · exact failed_grammar hwf hph hflow h hfailed e
  · exact serving_grammar hwf hph hflow h hrank e

/-! ### The handshake is out -/

/-- The session serves once the client has been sent the whole handshake. -/
structure Greeted (c : SessionConfig) (s : Session) : Prop where
  sound : s.run = .greeting → s.broken = false
  out : RunPhase.serving.rank ≤ s.run.rank → ∃ got, got <+: s.wire ∧ (∀ x ∈ got, x.Complete) ∧
    got.map (·.frame) = handshake c s.first

theorem start_greeted : (start c).Greeted c := by
  refine ⟨fun _ => rfl, fun hrank => ?_⟩
  cases hoff : c.screen_off <;> simp [start, hoff, RunPhase.rank] at hrank

theorem step_greeted (hwf : s.Wf) (hph : s.Phases c) (hflow : s.Flow c) (hgrammar : s.Grammar c)
    (htidy : s.Tidy) (h : s.Greeted c) (e : Event) : (step c s e).Greeted c := by
  by_cases hrank : RunPhase.serving.rank ≤ s.run.rank
  · have hrank' := le_trans hrank (step_rank (c := c) hwf e)
    have hawait : s.run ≠ .awaitKeyframe := by
      intro hrun
      rw [hrun] at hrank
      exact absurd hrank (by decide)
    refine ⟨fun hrun' => ?_, fun _ => ?_⟩
    · rw [hrun'] at hrank'
      exact absurd hrank' (by decide)
    · obtain ⟨got, hgot, hcomplete, hframes⟩ := h.out hrank
      refine ⟨got, step_complete hwf e hgot hcomplete, hcomplete, ?_⟩
      rw [step_first hflow hawait e]
      exact hframes
  by_cases hgreet : s.run = .greeting
  · have hawait : s.run ≠ .awaitKeyframe := by
      rw [hgreet]
      decide
    rcases step_run_greeting (c := c) hwf hph hgreet e with ⟨hrun', hbroken⟩ | hrun' | ⟨hspawn, hwriter⟩
    · refine ⟨fun _ => hbroken.trans (h.sound hgreet), fun hrank' => ?_⟩
      rw [hrun'] at hrank'
      exact absurd hrank' (by decide)
    · refine ⟨fun hrun => ?_, fun hrank' => ?_⟩
      · rw [hrun'] at hrun
        cases hrun
      · rw [hrun'] at hrank'
        exact absurd hrank' (by decide)
    · -- the writer flushes, so that no frame is in flight
      have hflight : ¬ s.InFlight := by
        rintro (hbroken | hfailed | ⟨t, f, n, next, hwriter'⟩)
        · rw [h.sound hgreet] at hbroken
          cases hbroken
        · rw [hgreet] at hfailed
          cases hfailed
        · rw [hwriter] at hwriter'
          cases hwriter'
      have hframes : s.wire.map (·.frame) = handshake c s.first := by
        rw [← hgrammar.greeting hgreet, script_of_some hwriter]
        exact (List.append_nil _).symm
      rw [hspawn]
      refine ⟨fun hrun => ?_, fun _ => ⟨s.wire, List.prefix_rfl, fun x hx => ?_, hframes⟩⟩
      · cases hrun
      · have hne : s.wire ≠ [] := List.ne_nil_of_mem hx
        rw [← List.dropLast_append_getLast hne] at hx
        rcases List.mem_append.1 hx with hx | hx
        · exact (htidy.whole x hx).complete
        · rw [List.mem_singleton.1 hx]
          exact ((htidy.last _ (List.getLast?_eq_getLast_of_ne_nil hne)).resolve_right hflight).complete
  · have hidle : s.run = .awaitKeyframe ∨ s.run = .failed := by
      rcases s.run.early_or_serving with hrun | hrun | hrun | hserving
      · exact .inl hrun
      · exact absurd hrun hgreet
      · exact .inr hrun
      · exact absurd hserving hrank
    by_cases hkey : s.run = .awaitKeyframe ∧ ∃ expired, e = .keyframe expired
    · obtain ⟨hrun, expired, rfl⟩ := hkey
      have hbroken := (hph.waiting hrun).2.2
      rw [step]
      rcases waitForKeyframe_cases c s expired with heq | ⟨-, heq | heq | ⟨pkt, -, -, -, heq⟩⟩
      · rw [heq]
        exact ⟨fun _ => hbroken, fun hrank' => absurd hrank' hrank⟩
      · rw [heq]
        exact ⟨fun _ => hbroken, fun hrank' =>
          absurd hrank' (by decide : ¬ RunPhase.serving.rank ≤ RunPhase.failed.rank)⟩
      · rw [heq]
        exact ⟨fun _ => hbroken, fun hrank' => absurd hrank' hrank⟩
      · rw [heq]
        exact ⟨fun _ => hbroken, fun hrank' =>
          absurd hrank' (by decide : ¬ RunPhase.serving.rank ≤ RunPhase.greeting.rank)⟩
    · have hrun' := step_run_idle (c := c) (e := e) hph hidle fun hrun expired he => hkey ⟨hrun, expired, he⟩
      refine ⟨fun hrun => ?_, fun hrank' => ?_⟩
      · rw [hrun'] at hrun
        exact absurd hrun hgreet
      · rw [hrun'] at hrank'
        exact absurd hrank' hrank

/-! ### The lengths -/

theorem Grammar.mem_script (h : s.Grammar c) {f : Frame} (hf : f ∈ s.script) :
    f ∈ handshake c s.first ∨ Later f := by
  have hserving : RunPhase.serving.rank ≤ s.run.rank → f ∈ handshake c s.first ∨ Later f := by
    intro hrank
    obtain ⟨-, rest, hrest, hlater⟩ := h.serving hrank
    rw [hrest] at hf
    exact (List.mem_append.1 hf).imp_right (hlater f)
  cases hrun : s.run with
  | awaitKeyframe =>
      rw [h.awaiting hrun] at hf
      cases hf
  | greeting => exact .inl (h.greeting hrun ▸ hf)
  | failed => exact .inl ((h.failed hrun).subset hf)
  | _ => exact hserving (by simp [hrun, RunPhase.rank])

theorem mem_videoFrames {pkts : List EncodedPacket} {f : Frame} (h : f ∈ videoFrames pkts) :
    ∃ pkt ∈ pkts, f = firstFrame pkt ∨ f = pumpFrame pkt := by
  cases pkts with
  | nil => cases h
  | cons first rest =>
      rcases List.mem_cons.1 h with rfl | h
      · exact ⟨first, List.mem_cons_self, .inl rfl⟩
      · obtain ⟨pkt, hpkt, rfl⟩ := List.mem_map.1 h
        exact ⟨pkt, List.mem_cons_of_mem first hpkt, .inr rfl⟩

/-- A session that cuts no frame and whose packets fit. -/
structure Sound (c : SessionConfig) (s : Session) : Prop where
  wf : s.Wf
  phases : s.Phases c
  flow : s.Flow c
  video : s.Video
  grammar : s.Grammar c
  tidy : s.Tidy
  greeted : s.Greeted c
  fits : ∀ pkt ∈ s.accounted, pkt.Fits c

theorem start_sound : (start c).Sound c :=
  ⟨start_wf, start_phases, start_flow, start_video, start_grammar, start_tidy, start_greeted,
    fun pkt hpkt => by cases hpkt⟩

theorem step_sound (h : s.Sound c) {e : Event} (hcut : ¬ CutsFrame c s e)
    (hfits : ∀ pkt, e = .push pkt → pkt.Fits c) : (step c s e).Sound c where
  wf := step_wf h.wf e
  phases := step_phases h.wf h.phases e
  flow := step_flow h.wf h.phases h.flow e
  video := step_video h.wf h.phases h.flow h.video e
  grammar := step_grammar h.wf h.phases h.flow h.grammar e
  tidy := step_tidy h.wf h.phases h.tidy e hcut
  greeted := step_greeted h.wf h.phases h.flow h.grammar h.tidy h.greeted e
  fits := by
    intro pkt hpkt
    rw [step_accounted] at hpkt
    rcases List.mem_append.1 hpkt with hpkt | hpkt
    · exact h.fits pkt hpkt
    · cases e with
      | push pkt' =>
          rw [accepted] at hpkt
          split at hpkt
          · cases hpkt
          · rw [List.mem_singleton.1 hpkt]
            exact hfits pkt' rfl
      | _ => cases hpkt

/-- Where the packets fit, every frame of the session does. -/
theorem Sound.script_fits (h : s.Sound c) : ∀ f ∈ s.script, f.payload.length ≤ maxPayloadLen := by
  have hvideo := h.video
  have hgrammar := h.grammar
  have htaken : ∀ pkt ∈ taken s.departed, pkt.Fits c := by
    intro pkt hpkt
    obtain ⟨x, hx, rfl⟩ := List.mem_map.1 hpkt
    exact h.fits x.1 (List.mem_append_left _ (List.mem_map_of_mem (List.mem_of_mem_filter hx)))
  have hfirst : ∀ pkt, pkt.Fits c → (firstFrame pkt).payload.length ≤ maxPayloadLen :=
    fun pkt hpkt => le_trans (VideoFrame.encode_length_le _) hpkt.1
  have hpump : ∀ pkt, pkt.Fits c → (pumpFrame pkt).payload.length ≤ maxPayloadLen :=
    fun pkt hpkt => le_trans (VideoFrame.encode_length_le _) hpkt.1
  intro f hf
  rcases hgrammar.mem_script hf with hshake | hlater
  · have hhello : c.helloFrame.payload.length ≤ maxPayloadLen := by
      simp [SessionConfig.helloFrame, HelloPc.encode, maxPayloadLen]
    have hconfig : c.configFrame.payload.length ≤ maxPayloadLen := by
      simp [SessionConfig.configFrame, ClientConfig.encode, maxPayloadLen]
    cases hpkt : s.first with
    | none =>
        rw [hpkt] at hshake
        simp only [handshake, List.mem_cons, List.not_mem_nil, or_false] at hshake
        rcases hshake with rfl | rfl
        · exact hhello
        · exact hconfig
    | some first =>
        have hmem := htaken first (List.mem_of_mem_head? hpkt)
        rw [hpkt] at hshake
        simp only [handshake, List.mem_cons, List.not_mem_nil, or_false] at hshake
        rcases hshake with rfl | rfl | rfl | rfl
        · exact hhello
        · exact hconfig
        · exact hmem.2
        · exact hfirst first hmem
  · cases hlater with
    | video pkt =>
        have hmem : pumpFrame pkt ∈ Penflow.video s.script :=
          List.mem_filter.2 ⟨hf, decide_eq_true rfl⟩
        obtain ⟨pkt', hpkt', heq | heq⟩ := mem_videoFrames (hvideo.isFront.subset hmem)
        · rw [heq]
          exact hfirst pkt' (htaken pkt' hpkt')
        · rw [heq]
          exact hpump pkt' (htaken pkt' hpkt')
    | telemetry tel => simp [telemetryFrame, Telemetry.encode, maxPayloadLen]
    | resp resp => simp [respFrame, TimeSyncResp.encode, maxPayloadLen]
    | goodbye => exact Nat.zero_le _

end Session

end Penflow
