import Penflow.Server.Script

/-!
# The video a session delivers

The packets leave the queue in the order of the encoder: dropped by an overflow, skipped before the first
keyframe, or taken to be sent.  `Flow` ties the pops to the phases of the session, and `Video` the
`VIDEO_FRAME`s of the script to the packets taken: they are the first keyframe and then all packets taken,
as far as the session has come.
-/

namespace Penflow

/-- The packets taken, of those that have left the queue. -/
def taken (departed : List (EncodedPacket × Departure)) : List EncodedPacket :=
  (departed.filter (·.2 = .taken)).map Prod.fst

/-- The frames that the handshake and then the pump send. -/
def videoFrames : List EncodedPacket → List Frame
  | [] => []
  | first :: rest => firstFrame first :: rest.map pumpFrame

def video (fs : List Frame) : List Frame := fs.filter (·.msg_id = msgVideoFrame)

theorem taken_append (xs ys : List (EncodedPacket × Departure)) :
    taken (xs ++ ys) = taken xs ++ taken ys := by
  rw [taken, List.filter_append, List.map_append]
  rfl

theorem taken_eq_nil {xs : List (EncodedPacket × Departure)} :
    taken xs = [] ↔ ∀ x ∈ xs, x.2 ≠ .taken := by
  rw [taken, List.map_eq_nil_iff, List.filter_eq_nil_iff]
  simp

theorem taken_overflowed (dropped : Option EncodedPacket) :
    taken (dropped.toList.map (·, .overflowed)) = [] := by
  cases dropped <;> rfl

theorem videoFrames_append {xs : List EncodedPacket} (h : xs ≠ []) (ys : List EncodedPacket) :
    videoFrames (xs ++ ys) = videoFrames xs ++ ys.map pumpFrame := by
  cases xs with
  | nil => exact absurd rfl h
  | cons first rest => simp [videoFrames]

theorem videoFrames_front (xs ys : List EncodedPacket) : videoFrames xs <+: videoFrames (xs ++ ys) := by
  by_cases h : xs = []
  · rw [h]
    exact List.nil_prefix
  · rw [videoFrames_append h]
    exact List.prefix_append _ _

theorem video_append (fs gs : List Frame) : video (fs ++ gs) = video fs ++ video gs :=
  List.filter_append ..

theorem video_of_none {fs : List Frame} (h : ∀ f ∈ fs, f.msg_id ≠ msgVideoFrame) : video fs = [] :=
  List.filter_eq_nil_iff.2 fun f hf => by simpa using h f hf

/-- The pump is past the pop it has begun. -/
def Pump.Busy {α : Type} (p : Pump α) : Prop := p = .head ∨ (∃ a, p = .locking a) ∨ ∃ a, p = .sending a

namespace Session

variable {c : SessionConfig} {s : Session}

/-! ### The pops -/

/-- Nothing is skipped behind a packet taken. -/
def NoSkip (departed : List (EncodedPacket × Departure)) : Prop :=
  departed.Pairwise fun x y => x.2 = .taken → y.2 ≠ .skipped

theorem NoSkip.concat {departed : List (EncodedPacket × Departure)} (h : NoSkip departed)
    {x : EncodedPacket × Departure} (hx : x.2 = .skipped → taken departed = []) :
    NoSkip (departed ++ [x]) := by
  refine List.pairwise_append.2 ⟨h, List.pairwise_singleton _ x, ?_⟩
  intro y hy z hz hyt hskip
  rw [List.mem_singleton.1 hz] at hskip
  exact taken_eq_nil.1 (hx hskip) y hy hyt

/-- The pops of a session, and what they have taken. -/
structure Flow (c : SessionConfig) (s : Session) : Prop where
  first_key : ∀ pkt ∈ (taken s.departed).head?, pkt.is_keyframe = true
  no_skip : NoSkip s.departed
  awaiting : s.run = .awaitKeyframe →
    (taken s.departed = [] ∧ ∀ pkt, s.pop = .done (some pkt) → pkt.is_keyframe = false) ∨
      ∃ pkt, taken s.departed = [pkt] ∧ s.pop = .done (some pkt) ∧ pkt.is_keyframe = true
  popping : s.pop = .running → s.run = .awaitKeyframe ∨ taken s.departed ≠ []
  idle : s.run = .greeting ∨ s.frame_pump = .head ∨ (∃ pkt, s.frame_pump = .locking pkt) ∨
    (∃ pkt, s.frame_pump = .sending pkt) → s.pop = .idle
  started : s.run = .greeting ∨ s.frame_pump ≠ .unspawned → c.screen_off = false →
    taken s.departed ≠ []

/-- The keyframe that `wait_for_keyframe` gets is the first packet taken. -/
theorem Flow.taken_of_keyframe (h : s.Flow c) (hrun : s.run = .awaitKeyframe) {pkt : EncodedPacket}
    (hpop : s.pop = .done (some pkt)) (hkey : pkt.is_keyframe = true) : taken s.departed = [pkt] := by
  rcases h.awaiting hrun with ⟨-, hnokey⟩ | ⟨first, htaken, hdone, -⟩
  · rw [hnokey pkt hpop] at hkey
    cases hkey
  · rw [hpop] at hdone
    cases hdone
    exact htaken

theorem start_flow : (start c).Flow c := by
  cases hoff : c.screen_off with
  | true => constructor <;> simp [start, taken, NoSkip, hoff]
  | false => constructor <;> simp [start, taken, NoSkip, hoff]

theorem push_flow (h : s.Flow c) (pkt : EncodedPacket) : (push c s pkt).Flow c := by
  unfold push
  split
  · exact h
  · have hdropped : ∀ x ∈ s.queue.evicted.toList.map (·, Departure.overflowed), x.2 = .overflowed := by
      intro x hx
      obtain ⟨old, -, rfl⟩ := List.mem_map.1 hx
      rfl
    have htaken : taken (s.departed ++ s.queue.evicted.toList.map (·, .overflowed)) =
        taken s.departed := by
      rw [taken_append, taken_overflowed, List.append_nil]
    obtain ⟨hkey, hskip, hawait, hpop, hidle, hstart⟩ := h
    refine ⟨?_, ?_, ?_, ?_, hidle, ?_⟩
    · show ∀ p ∈ (taken (_ ++ _)).head?, _
      rw [htaken]
      exact hkey
    · refine List.pairwise_append.2 ⟨hskip, ?_, fun x _ y hy _ => ?_⟩
      · refine List.pairwise_of_forall_mem_list fun x _ y hy _ => ?_
        rw [hdropped y hy]
        decide
      · rw [hdropped y hy]
        decide
    · show _ → (taken (_ ++ _) = [] ∧ _) ∨ ∃ p, taken (_ ++ _) = [p] ∧ _
      rw [htaken]
      exact hawait
    · show _ → _ ∨ taken (_ ++ _) ≠ []
      rw [htaken]
      exact hpop
    · show _ → _ → taken (_ ++ _) ≠ []
      rw [htaken]
      exact hstart

theorem popTurn_flow (h : s.Flow c) (expired : Bool) : (s.popTurn expired).Flow c := by
  unfold popTurn
  split
  case h_1 hrunning =>
    obtain ⟨hkey, hskip, hawait, hpop, hidle, hstart⟩ := h
    have hbusy : ¬ (s.run = .greeting ∨ s.frame_pump = .head ∨ (∃ pkt, s.frame_pump = .locking pkt) ∨
        (∃ pkt, s.frame_pump = .sending pkt)) := by
      intro hother
      rw [hidle hother] at hrunning
      cases hrunning
    split
    case h_1 => exact ⟨hkey, hskip, hawait, hpop, hidle, hstart⟩
    case h_2 =>
      refine ⟨hkey, hskip, ?_, ?_, fun hother => absurd hother hbusy, hstart⟩
      · intro hrun
        rcases hawait hrun with ⟨htaken, -⟩ | ⟨pkt, -, hdone, -⟩
        · exact .inl ⟨htaken, fun pkt hdone => by cases hdone⟩
        · rw [hrunning] at hdone
          cases hdone
      · intro hrun
        cases hrun
    case h_3 pkt hpopped =>
      by_cases hrun : s.run = .awaitKeyframe
      · -- nothing is taken before the first keyframe
        have hnone : taken s.departed = [] := by
          rcases hawait hrun with ⟨htaken, -⟩ | ⟨first, -, hdone, -⟩
          · exact htaken
          · rw [hrunning] at hdone
            cases hdone
        by_cases hpkt : pkt.is_keyframe = false
        · have hlabel : (if s.run = .awaitKeyframe ∧ pkt.is_keyframe = false then Departure.skipped
              else .taken) = .skipped := if_pos ⟨hrun, hpkt⟩
          have htaken : taken (s.departed ++ [(pkt, .skipped)]) = [] := by
            rw [taken_append, hnone]
            rfl
          rw [hlabel]
          refine ⟨?_, hskip.concat fun _ => hnone, fun _ => .inl ⟨htaken, ?_⟩, ?_,
            fun hother => absurd hother hbusy, ?_⟩
          · show ∀ p ∈ (taken (_ ++ _)).head?, _
            rw [htaken]
            intro p hp
            cases hp
          · intro p hp
            cases hp
            exact hpkt
          · intro hpop
            cases hpop
          · intro hstarted hoff
            exact absurd hnone (hstart hstarted hoff)
        · have hlabel : (if s.run = .awaitKeyframe ∧ pkt.is_keyframe = false then Departure.skipped
              else .taken) = .taken := if_neg fun h => hpkt h.2
          have htaken : taken (s.departed ++ [(pkt, .taken)]) = [pkt] := by
            rw [taken_append, hnone]
            rfl
          rw [hlabel]
          refine ⟨?_, hskip.concat fun h => (by cases h),
            fun _ => .inr ⟨pkt, htaken, rfl, Bool.eq_true_of_not_eq_false hpkt⟩, ?_,
            fun hother => absurd hother hbusy, ?_⟩
          · show ∀ p ∈ (taken (_ ++ _)).head?, _
            rw [htaken]
            intro p hp
            cases hp
            exact Bool.eq_true_of_not_eq_false hpkt
          · intro hpop
            cases hpop
          · intro hstarted hoff
            exact absurd hnone (hstart hstarted hoff)
      · have hlabel : (if s.run = .awaitKeyframe ∧ pkt.is_keyframe = false then Departure.skipped
            else .taken) = .taken := if_neg fun h => hrun h.1
        have hsome := (hpop hrunning).resolve_left hrun
        have htaken : taken (s.departed ++ [(pkt, .taken)]) = taken s.departed ++ [pkt] :=
          taken_append _ _
        rw [hlabel]
        refine ⟨?_, hskip.concat fun h => (by cases h), fun hawaiting => absurd hawaiting hrun, ?_,
          fun hother => absurd hother hbusy, ?_⟩
        · show ∀ p ∈ (taken (_ ++ _)).head?, _
          rw [htaken, List.head?_append_of_ne_nil _ hsome]
          exact hkey
        · intro hpop
          cases hpop
        · show _ → _ → taken (_ ++ _) ≠ []
          rw [htaken]
          intro _ _
          simp
  case h_2 => exact h

/-- A step that pops nothing, and begins no pop. -/
theorem Flow.keep {s' : Session} (h : s.Flow c) (hdeparted : s'.departed = s.departed) (hpop : s'.pop = s.pop)
    (hrun : s'.run = .awaitKeyframe ∨ s'.run = .greeting → s'.run = s.run)
    (hleave : s.run = .awaitKeyframe → s'.run = .awaitKeyframe ∨ s.pop ≠ .running)
    (hbusy : s'.frame_pump.Busy → s.frame_pump.Busy)
    (hspawned : s.frame_pump = .unspawned → s'.frame_pump = .unspawned) : s'.Flow c := by
  refine ⟨?_, ?_, ?_, ?_, ?_, ?_⟩
  · rw [hdeparted]
    exact h.first_key
  · rw [hdeparted]
    exact h.no_skip
  · intro hawait
    rw [hdeparted, hpop]
    exact h.awaiting ((hrun (.inl hawait)).symm.trans hawait)
  · intro hrunning
    rw [hpop] at hrunning
    rw [hdeparted]
    rcases h.popping hrunning with hawait | htaken
    · exact .inl ((hleave hawait).resolve_right fun hnot => hnot hrunning)
    · exact .inr htaken
  · intro hother
    rw [hpop]
    refine h.idle ?_
    rcases hother with hgreet | hother
    · exact .inl ((hrun (.inr hgreet)).symm.trans hgreet)
    · exact .inr (hbusy hother)
  · intro hother hoff
    rw [hdeparted]
    refine h.started ?_ hoff
    rcases hother with hgreet | hother
    · exact .inl ((hrun (.inr hgreet)).symm.trans hgreet)
    · exact .inr fun heq => hother (hspawned heq)

/-- The same where the run and the pump stay as they are. -/
theorem Flow.same {s' : Session} (h : s.Flow c) (hdeparted : s'.departed = s.departed) (hpop : s'.pop = s.pop)
    (hrun : s'.run = s.run) (hpump : s'.frame_pump = s.frame_pump) : s'.Flow c :=
  h.keep hdeparted hpop (fun _ => hrun) (fun hawait => .inl (hrun.trans hawait))
    (fun hbusy => hpump ▸ hbusy) fun heq => hpump.trans heq

/-- The run goes on from a phase in which no keyframe is waited for. -/
theorem Flow.goOn {s' : Session} (h : s.Flow c) (hdeparted : s'.departed = s.departed) (hpop : s'.pop = s.pop)
    (hpump : s'.frame_pump = s.frame_pump) (hrun : s.run ≠ .awaitKeyframe)
    (hrun' : s'.run ≠ .awaitKeyframe ∧ s'.run ≠ .greeting) : s'.Flow c := by
  refine h.keep hdeparted hpop ?_ (fun heq => absurd heq hrun) (fun hbusy => hpump ▸ hbusy)
    fun heq => hpump.trans heq
  rintro (heq | heq)
  · exact absurd heq hrun'.1
  · exact absurd heq hrun'.2

/-- The pump goes on, past its pop before and after. -/
theorem Flow.pump {s' : Session} (h : s.Flow c) (hdeparted : s'.departed = s.departed) (hpop : s'.pop = s.pop)
    (hrun : s'.run = s.run) (hbusy : s.frame_pump.Busy) : s'.Flow c := by
  refine h.keep hdeparted hpop (fun _ => hrun) (fun hawait => .inl (hrun.trans hawait)) (fun _ => hbusy) ?_
  intro heq
  rcases hbusy with hhead | ⟨a, hlocking⟩ | ⟨a, hsending⟩
  · rw [hhead] at heq
    cases heq
  · rw [hlocking] at heq
    cases heq
  · rw [hsending] at heq
    cases heq

/-- The pump returns. -/
theorem Flow.returns {s' : Session} (h : s.Flow c) (hdeparted : s'.departed = s.departed) (hpop : s'.pop = s.pop)
    (hrun : s'.run = s.run) (hpump : s'.frame_pump = .returned) (hspawned : s.frame_pump ≠ .unspawned) :
    s'.Flow c := by
  refine h.keep hdeparted hpop (fun _ => hrun) (fun hawait => .inl (hrun.trans hawait)) ?_
    fun heq => absurd heq hspawned
  rw [hpump]
  rintro (heq | ⟨a, heq⟩ | ⟨a, heq⟩) <;> cases heq

/-- A pump in its loop is in a session with a screen that is past its handshake. -/
theorem Phases.looping (h : s.Phases c) (hpump : s.frame_pump ≠ .unspawned) :
    c.screen_off = false ∧ s.run ≠ .awaitKeyframe ∧ s.run ≠ .greeting := by
  refine ⟨?_, fun hrun => hpump (h.unspawned (.inl hrun)).1,
    fun hrun => hpump (h.unspawned (.inr (.inl hrun))).1⟩
  rw [Bool.eq_false_iff]
  exact fun hoff => hpump (h.screen_off hoff).1

theorem enterSelect_flow (hph : s.Phases c) (h : s.Flow c) (t : Task) : (s.enterSelect t).Flow c := by
  rcases enterSelect_cases s t with heq | ⟨hhead, heq⟩ | ⟨-, heq⟩
  · rw [heq]
    exact h
  · have hne : s.frame_pump ≠ .unspawned := by simp [hhead]
    obtain ⟨hon, hawait, hgreet⟩ := hph.looping hne
    have htaken := h.started (.inr hne) hon
    rw [heq]
    refine ⟨h.first_key, h.no_skip, fun heq => absurd heq hawait, fun _ => .inr htaken, ?_, fun _ _ => htaken⟩
    rintro (heq | heq | ⟨_, heq⟩ | ⟨_, heq⟩)
    · exact absurd heq hgreet
    all_goals cases heq
  · rw [heq]
    exact h.same rfl rfl rfl rfl

theorem selectStop_flow (h : s.Flow c) (t : Task) : (s.selectStop t).Flow c := by
  rcases selectStop_cases s t with heq | ⟨hselect, heq⟩ | ⟨-, heq⟩
  · rw [heq]
    exact h
  · rw [heq]
    exact h.returns rfl rfl rfl rfl (by simp [hselect])
  · rw [heq]
    exact h.same rfl rfl rfl rfl

/-- The pump in its loop takes the result of its pop. -/
theorem Flow.popped {s' : Session} (hph : s.Phases c) (h : s.Flow c) (hpump : s.frame_pump ≠ .unspawned)
    (hdeparted : s'.departed = s.departed) (hpop : s'.pop = .idle) (hrun : s'.run = s.run) : s'.Flow c := by
  obtain ⟨hon, hawait, hgreet⟩ := hph.looping hpump
  refine ⟨?_, ?_, fun heq => absurd (hrun.symm.trans heq) hawait, fun heq => ?_, fun _ => hpop, fun _ _ => ?_⟩
  · rw [hdeparted]
    exact h.first_key
  · rw [hdeparted]
    exact h.no_skip
  · rw [hpop] at heq
    cases heq
  · rw [hdeparted]
    exact h.started (.inr hpump) hon

theorem selectPop_flow (hph : s.Phases c) (h : s.Flow c) : s.selectPop.Flow c := by
  rcases selectPop_cases s with heq | ⟨notified, hselect, ⟨pkt, -, heq⟩ | ⟨-, heq⟩ | ⟨-, heq⟩⟩
  · rw [heq]
    exact h
  · rw [heq]
    exact h.popped hph (by simp [hselect]) rfl rfl rfl
  · rw [heq]
    exact h.popped hph (by simp [hselect]) rfl rfl rfl
  · rw [heq]
    exact h.popped hph (by simp [hselect]) rfl rfl rfl

theorem lock_flow (h : s.Flow c) (t : Task) : (s.lock t).Flow c := by
  rcases lock_cases s t with heq | ⟨-, ⟨-, hrun, heq⟩ | ⟨-, pkt, hlocking, heq⟩ | ⟨-, tel, -, heq⟩ |
    ⟨-, resp, -, heq⟩⟩
  · rw [heq]
    exact h
  · rw [heq]
    exact h.goOn rfl rfl rfl (by simp [hrun]) ⟨by simp, by simp⟩
  · rw [heq]
    exact h.pump rfl rfl rfl (.inr (.inl ⟨pkt, hlocking⟩))
  · rw [heq]
    exact h.same rfl rfl rfl rfl
  · rw [heq]
    exact h.same rfl rfl rfl rfl

/-- `wait_for_keyframe` fails. -/
theorem failRun_flow (h : s.Flow c) (hpop : s.pop ≠ .running) : s.failRun.Flow c := by
  refine h.keep rfl rfl ?_ (fun _ => .inr hpop) id id
  rintro (heq | heq) <;> cases heq

theorem waitForKeyframe_flow (hph : s.Phases c) (h : s.Flow c) (expired : Bool) :
    (waitForKeyframe c s expired).Flow c := by
  -- the pop begins again
  have hagain : s.run = .awaitKeyframe → taken s.departed = [] → Flow c { s with pop := .running } := by
    intro hrun htaken
    have hpump := (hph.unspawned (.inl hrun)).1
    refine ⟨h.first_key, h.no_skip, fun _ => .inl ⟨htaken, fun pkt heq => (by cases heq)⟩, fun _ => .inl hrun,
      fun hother => ?_, h.started⟩
    rw [hrun, hpump] at hother
    rcases hother with heq | heq | ⟨_, heq⟩ | ⟨_, heq⟩ <;> cases heq
  unfold waitForKeyframe
  split
  case h_1 pkt hrun hpop =>
    rcases h.awaiting hrun with ⟨htaken, hkey⟩ | ⟨first, htaken, hpop', hkey⟩
    · rw [if_neg (by rw [hkey pkt hpop]; decide)]
      split
      · exact failRun_flow h (by simp [hpop])
      · exact hagain hrun htaken
    · obtain rfl : pkt = first := by
        rw [hpop] at hpop'
        cases hpop'
        rfl
      rw [if_pos hkey, greet]
      split
      · exact failRun_flow h (by simp [hpop])
      · have hne : taken s.departed ≠ [] := by
          rw [htaken]
          exact List.cons_ne_nil _ _
        exact ⟨h.first_key, h.no_skip, fun heq => (by cases heq), fun heq => (by cases heq), fun _ => rfl,
          fun _ _ => hne⟩
  case h_2 hrun hpop =>
    split
    · exact failRun_flow h (by simp [hpop])
    · rcases h.awaiting hrun with ⟨htaken, -⟩ | ⟨first, -, hpop', -⟩
      · exact hagain hrun htaken
      · rw [hpop] at hpop'
        cases hpop'
  case h_3 hrun hpop => exact failRun_flow h (by simp [hpop])
  case h_4 => exact h

theorem sent_flow (hwf : s.Wf) (h : s.Flow c) {t : Task} {w : Writing}
    (hwriter : s.writer = some (t, w)) : (sent c s t).Flow c := by
  have hsending := hwf.holder _ _ hwriter
  cases t with
  | run =>
      rw [sent]
      rcases hsending with hrun | ⟨hrun, -⟩
      · rw [if_pos hrun]
        refine ⟨h.first_key, h.no_skip, fun heq => (by cases heq), fun hrunning => ?_, fun _ => h.idle (.inl hrun),
          fun _ => h.started (.inl hrun)⟩
        have hidle := h.idle (.inl hrun)
        rw [spawn] at hrunning
        rw [hidle] at hrunning
        cases hrunning
      · rw [if_neg (by rw [hrun]; decide)]
        refine h.goOn rfl rfl rfl (by simp [hrun]) ?_
        cases c.screen_off <;> exact ⟨by simp, by simp⟩
  | framePump =>
      obtain ⟨pkt, hpump, -⟩ := hsending
      rw [sent, hpump]
      exact h.pump rfl rfl rfl (.inr (.inr ⟨pkt, hpump⟩))
  | telemetryPump => exact h.same rfl rfl rfl rfl
  | readLoop => exact h.same rfl rfl rfl rfl

theorem sendFailed_flow (hwf : s.Wf) (h : s.Flow c) {t : Task} {w : Writing}
    (hwriter : s.writer = some (t, w)) (flushing : Bool) : (sendFailed c s flushing t).Flow c := by
  have hsent := sent_flow hwf h hwriter
  have hsending := hwf.holder _ _ hwriter
  cases t with
  | run =>
      rw [sendFailed]
      split
      case isTrue hrun => exact h.goOn rfl rfl rfl (by simp [hrun]) ⟨by simp [failRun], by simp [failRun]⟩
      case isFalse =>
        cases flushing with
        | true => exact hsent
        | false => exact h.same rfl rfl rfl rfl
  | framePump =>
      obtain ⟨pkt, hpump, -⟩ := hsending
      exact h.returns rfl rfl rfl rfl (by simp [hpump])
  | telemetryPump => exact h.same rfl rfl rfl rfl
  | readLoop =>
      cases flushing with
      | true => exact hsent
      | false => exact h.same rfl rfl rfl rfl

/-- `run` leaves its loop. -/
theorem leave_flow {s' : Session} (h : s.Flow c) (hrun : s.run = .serving) (hdeparted : s'.departed = s.departed)
    (hpop : s'.pop = s.pop) (hpump : s'.frame_pump = s.frame_pump) : (leave c s').Flow c := by
  refine h.goOn hdeparted hpop hpump (by simp [hrun]) ?_
  rw [leave]
  cases c.screen_off <;> exact ⟨by simp, by simp⟩

theorem notify_flow (h : s.Flow c) : s.notify.Flow c := by
  unfold notify
  split
  case isTrue hrun =>
    refine h.keep rfl rfl ?_ (fun heq => by rw [hrun] at heq; cases heq) ?_ ?_
    · rintro (heq | heq) <;> cases heq
    · show s.frame_pump.notify.Busy → s.frame_pump.Busy
      unfold Pump.notify
      split
      · rintro (heq | ⟨_, heq⟩ | ⟨_, heq⟩) <;> cases heq
      · exact id
    · show s.frame_pump = .unspawned → s.frame_pump.notify = .unspawned
      intro heq
      rw [heq]
      rfl
  case isFalse => exact h

theorem step_flow (hwf : s.Wf) (hph : s.Phases c) (h : s.Flow c) (e : Event) : (step c s e).Flow c := by
  cases e with
  | push pkt => exact push_flow h pkt
  | popTurn expired => exact popTurn_flow h expired
  | popPanics =>
      rw [step]
      rcases popPanics_cases s with heq | ⟨hrunning, heq⟩
      · rw [heq]
        exact h
      · rw [heq]
        refine ⟨h.first_key, h.no_skip, fun hrun => ?_, fun heq => (by cases heq), fun hother => ?_, h.started⟩
        · rcases h.awaiting hrun with ⟨htaken, -⟩ | ⟨first, -, hpop, -⟩
          · exact .inl ⟨htaken, fun pkt heq => by cases heq⟩
          · rw [hrunning] at hpop
            cases hpop
        · rw [h.idle hother] at hrunning
          cases hrunning
  | keyframe expired => exact waitForKeyframe_flow hph h expired
  | enterSelect t => exact enterSelect_flow hph h t
  | selectStop t => exact selectStop_flow h t
  | selectPop => exact selectPop_flow hph h
  | selectTick =>
      rw [step, selectTick]
      split
      · exact h.same rfl rfl rfl rfl
      · exact h
  | receive msg_id payload t2 t3 =>
      rw [step]
      rcases receive_cases c s msg_id payload t2 t3 with heq | ⟨-, heq | ⟨resp, heq⟩⟩
      · rw [heq]
        exact h
      · rw [heq]
        exact h.same rfl rfl rfl rfl
      · rw [heq]
        exact h.same rfl rfl rfl rfl
  | readEnds =>
      rw [step, readEnds]
      split
      · exact h.same rfl rfl rfl rfl
      · exact h
  | lock t => exact lock_flow h t
  | write n =>
      rw [step]
      rcases write_cases s n with hsame | ⟨t, f, k, next, -, -, -, ⟨-, hpart⟩ | ⟨-, hall⟩⟩
      · rw [hsame]
        exact h
      · rw [hpart]
        exact h.same rfl rfl rfl rfl
      · rw [hall]
        exact h.same rfl rfl rfl rfl
  | writeFails =>
      rw [step, writeFails]
      split
      case h_1 t f n next hwriter => exact sendFailed_flow hwf.broken (h.same rfl rfl rfl rfl) hwriter false
      case h_2 => exact h
  | flush ok =>
      rw [step, flush]
      split
      case h_1 t hwriter =>
        cases ok with
        | true => exact sent_flow hwf h hwriter
        | false => exact sendFailed_flow hwf h hwriter true
      case h_2 => exact h
  | cancel =>
      rw [step, cancel]
      split
      · exact h.same rfl rfl rfl rfl
      · exact h
  | readLoopEnded =>
      rw [step, readLoopEnded]
      split
      case isTrue hrun => exact leave_flow h hrun.1 rfl rfl rfl
      case isFalse => exact h
  | finish =>
      rw [step, finish]
      split
      case isTrue hrun => split <;> exact leave_flow h hrun rfl rfl rfl
      case isFalse => exact h
  | notify => exact notify_flow h
  | joined timed_out =>
      rw [step, joined]
      split
      case h_1 hrun =>
        split
        · exact h.goOn rfl rfl rfl (by simp [hrun]) ⟨by simp, by simp⟩
        · exact h
      case h_2 hrun =>
        split
        · exact h.goOn rfl rfl rfl (by simp [hrun]) ⟨by simp, by simp⟩
        · exact h
      case h_3 => exact h
  | engineStop =>
      rw [step, engineStop]
      split
      case isTrue hrun => exact h.goOn rfl rfl rfl (by simp [hrun]) ⟨by simp, by simp⟩
      case isFalse => exact h

/-! ### The frames -/

/-- The packets that are taken and not yet begun. -/
def queued (s : Session) : List EncodedPacket :=
  (match s.frame_pump with
    | .locking pkt => [pkt]
    | _ => []) ++
  match s.pop with
    | .done (some pkt) => [pkt]
    | _ => []

/-- The handshake is being written, or the pump is in its loop. -/
def Live (s : Session) : Prop :=
  s.run = .greeting ∨ s.frame_pump ≠ .unspawned ∧ s.frame_pump ≠ .returned

/-- The video of the script is that of the packets taken, as far as it is begun. -/
structure Video (s : Session) : Prop where
  isFront : video s.script <+: videoFrames (taken s.departed)
  live : s.Live → video s.script ++ s.queued.map pumpFrame = videoFrames (taken s.departed)

theorem Video.of_live (h : video s.script ++ s.queued.map pumpFrame = videoFrames (taken s.departed)) :
    s.Video :=
  ⟨⟨_, h⟩, fun _ => h⟩

theorem Video.same {s' : Session} (h : s.Video) (hscript : video s'.script = video s.script)
    (hdeparted : s'.departed = s.departed) (hlive : s'.Live → s.Live ∧ s'.queued = s.queued) :
    s'.Video := by
  refine ⟨?_, fun hl => ?_⟩
  · rw [hscript, hdeparted]
    exact h.isFront
  · obtain ⟨hl, hqueued⟩ := hlive hl
    rw [hscript, hdeparted, hqueued]
    exact h.live hl

theorem Live.same {s' : Session} (hpump : s'.frame_pump = s.frame_pump) (hpop : s'.pop = s.pop)
    (hrun : s'.run = .greeting → s.run = .greeting) (h : s'.Live) : s.Live ∧ s'.queued = s.queued := by
  refine ⟨?_, by rw [queued, queued, hpump, hpop]⟩
  rcases h with hgreet | hloop
  · exact .inl (hrun hgreet)
  · exact .inr (hpump ▸ hloop)

theorem start_video : (start c).Video := by
  apply Video.of_live
  cases hoff : c.screen_off with
  | true =>
      have hframes : (start c).script = [c.helloFrame, c.configFrame] := by
        simp [start, script, Writing.unbegun, hoff]
      rw [hframes]
      simp [start, queued, taken, videoFrames, hoff]
      rfl
  | false =>
      have hframes : (start c).script = [] := by simp [start, script, hoff]
      rw [hframes]
      simp [start, queued, taken, videoFrames, hoff]
      rfl

theorem push_video (h : s.Video) (pkt : EncodedPacket) : (push c s pkt).Video := by
  unfold push
  split
  · exact h
  · have htaken : taken (s.departed ++ s.queue.evicted.toList.map (·, .overflowed)) =
        taken s.departed := by
      rw [taken_append, taken_overflowed, List.append_nil]
    refine ⟨?_, fun hl => ?_⟩
    · show _ <+: videoFrames (taken (_ ++ _))
      rw [htaken]
      exact h.isFront
    · show _ = videoFrames (taken (_ ++ _))
      rw [htaken]
      exact h.live hl

/-- A packet taken is queued behind the ones before it. -/
theorem popTurn_video (hph : s.Phases c) (hflow : s.Flow c) (h : s.Video) (expired : Bool) :
    (s.popTurn expired).Video := by
  unfold popTurn
  split
  case h_1 hrunning =>
    split
    case h_1 => exact h
    case h_2 =>
      refine h.same rfl rfl fun hl => ⟨hl, ?_⟩
      simp [queued, hrunning]
    case h_3 pkt hpopped =>
      refine ⟨?_, fun hl => ?_⟩
      · show _ <+: videoFrames (taken (_ ++ _))
        rw [taken_append]
        exact h.isFront.trans (videoFrames_front _ _)
      · have hbusy : s.run ≠ .greeting := by
          intro hgreet
          rw [hflow.idle (.inl hgreet)] at hrunning
          cases hrunning
        have hloop : s.frame_pump ≠ .unspawned ∧ s.frame_pump ≠ .returned := hl.resolve_left hbusy
        have hrun : s.run ≠ .awaitKeyframe := fun hawait =>
          hloop.1 (hph.unspawned (.inl hawait)).1
        have hsome := (hflow.popping hrunning).resolve_left hrun
        have hqueued : s.queued.map pumpFrame ++ [pumpFrame pkt] =
            (queued { s with pop := .done (some pkt) }).map pumpFrame := by
          simp [queued, hrunning]
        show _ ++ (queued { s with pop := .done (some pkt) }).map pumpFrame =
          videoFrames (taken (_ ++ [(pkt, if _ then _ else _)]))
        rw [if_neg fun h => hrun h.1, taken_append, videoFrames_append hsome, ← hqueued,
          ← List.append_assoc]
        exact congrArg (· ++ _) (h.live hl)
  case h_2 => exact h

/-- The handshake begins with the first keyframe. -/
theorem waitForKeyframe_video (hph : s.Phases c) (hflow : s.Flow c) (h : s.Video) (expired : Bool) :
    (waitForKeyframe c s expired).Video := by
  by_cases hrun : s.run = .awaitKeyframe
  · obtain ⟨hwriter, hwire, -⟩ := hph.waiting hrun
    have hpump := (hph.unspawned (.inl hrun)).1
    have hscript : s.script = [] := by
      rw [script_of_none hwriter, hwire]
      rfl
    -- without the handshake no frame begins and no packet is taken
    have hsame : ∀ s' : Session, s'.script = [] → s'.departed = s.departed → s'.frame_pump = s.frame_pump →
        s'.run ≠ .greeting → s'.Video := by
      intro s' hscript' hdeparted hpump' hgreet
      refine ⟨?_, fun hl => ?_⟩
      · rw [hscript']
        exact List.nil_prefix
      · have hloop := hl.resolve_left hgreet
        rw [hpump', hpump] at hloop
        exact absurd rfl hloop.1
    rcases waitForKeyframe_cases c s expired with heq | ⟨-, heq | heq | ⟨pkt, hpop, hkey, -, heq⟩⟩
    · rw [heq]
      exact h
    · rw [heq]
      exact hsame _ (by simp [failRun, script, hwire]) rfl rfl (by simp [failRun])
    · rw [heq]
      exact hsame _ hscript rfl rfl (by rw [hrun]; decide)
    · have htaken := hflow.taken_of_keyframe hrun hpop hkey
      rw [heq]
      apply Video.of_live
      rw [script_of_some rfl, hwire]
      show _ = videoFrames (taken s.departed)
      rw [htaken]
      simp [queued, hpump, Writing.unbegun, videoFrames, video]
      rfl
  · rcases waitForKeyframe_cases c s expired with hsame | ⟨hawait, -⟩
    · rw [hsame]
      exact h
    · exact absurd hawait hrun

theorem begins_lock_video (c : SessionConfig) (s : Session) {t : Task} (ht : t ≠ .framePump) :
    video (begins c s (.lock t)) = [] := by
  cases hwriter : s.writer with
  | some held => simp [begins, hwriter, video]
  | none =>
      cases t with
      | run =>
          simp only [begins, hwriter]
          split <;> rfl
      | framePump => exact absurd rfl ht
      | telemetryPump =>
          simp only [begins, hwriter]
          split <;> rfl
      | readLoop =>
          simp only [begins, hwriter]
          split <;> rfl

/-- Who takes the writer and is not the frame pump begins no video. -/
theorem lock_other_video (c : SessionConfig) (h : s.Video) {t : Task} (ht : t ≠ .framePump) :
    (s.lock t).Video := by
  have hsame : (s.lock t).frame_pump = s.frame_pump ∧ (s.lock t).pop = s.pop ∧
      (s.lock t).departed = s.departed ∧ ((s.lock t).run = .greeting → s.run = .greeting) := by
    rcases lock_cases s t with heq | ⟨-, ⟨-, -, heq⟩ | ⟨hpump, -⟩ | ⟨-, tel, -, heq⟩ | ⟨-, resp, -, heq⟩⟩
    · rw [heq]
      exact ⟨rfl, rfl, rfl, id⟩
    · rw [heq]
      exact ⟨rfl, rfl, rfl, fun hrun => by cases hrun⟩
    · exact absurd hpump ht
    · rw [heq]
      exact ⟨rfl, rfl, rfl, id⟩
    · rw [heq]
      exact ⟨rfl, rfl, rfl, id⟩
  obtain ⟨hpump, hpop, hdeparted, hrun⟩ := hsame
  refine h.same ?_ hdeparted (Live.same hpump hpop hrun)
  rw [lock_script (c := c), video_append, begins_lock_video c s ht, List.append_nil]

/-- The packet the pump begins is the one queued. -/
theorem lock_framePump_video (hflow : s.Flow c) (h : s.Video) : (s.lock .framePump).Video := by
  by_cases hbegin : s.writer = none ∧ ∃ pkt, s.frame_pump = .locking pkt
  · obtain ⟨hwriter, pkt, hpump⟩ := hbegin
    have hlock : s.lock .framePump = { s with
        frame_pump := .sending pkt
        writer := some (.framePump, .frame (pumpFrame pkt) 0 []) } := by
      simp [lock, hwriter, hpump]
    have hpop : s.pop = .idle := hflow.idle (.inr (.inr (.inl ⟨pkt, hpump⟩)))
    have hlive := h.live (.inr ⟨by simp [hpump], by simp [hpump]⟩)
    rw [hlock]
    apply Video.of_live
    rw [script_of_some rfl]
    show video (s.wire.map (·.frame) ++ [pumpFrame pkt]) ++ _ = videoFrames (taken s.departed)
    rw [← hlive, script_of_none hwriter, video_append]
    simp [queued, hpump, hpop, video]
    rfl
  · have hsame : s.lock .framePump = s := by
      cases hwriter : s.writer with
      | some held => simp [lock, hwriter]
      | none =>
          cases hpump : s.frame_pump with
          | locking pkt => exact absurd ⟨hwriter, pkt, hpump⟩ hbegin
          | _ => simp [lock, hwriter, hpump]
    rw [hsame]
    exact h

/-- The frames that a task that ends does not begin are no video, or the pump ends with them. -/
theorem Video.cut {s' : Session} (hwf : s.Wf) (hph : s.Phases c) (h : s.Video) (hcut : Cut s s')
    (hdeparted : s'.departed = s.departed) (hpop : s'.pop = s.pop)
    (hpump : s'.frame_pump = s.frame_pump ∨ s'.frame_pump = .returned)
    (hrun : s'.run = .greeting → s.run = .greeting) : s'.Video := by
  obtain ⟨t, w, hwriter, hscript, hfail, hreturned⟩ := hcut
  have hfront : video s'.script <+: video s.script := by
    rw [hscript, video_append]
    exact List.prefix_append _ _
  have hlive : s'.Live → s.Live ∧ s'.queued = s.queued := by
    rintro (hgreet | hloop)
    · refine ⟨.inl (hrun hgreet), ?_⟩
      have hunspawned := (hph.unspawned (.inr (.inl (hrun hgreet)))).1
      rcases hpump with hpump | hpump <;> simp [queued, hpump, hpop, hunspawned]
    · have hpump := hpump.resolve_right hloop.2
      exact Live.same hpump hpop hrun (.inr hloop)
  -- a task whose frames are no video leaves the video of the script as it is
  have hother : (∀ f ∈ w.frames, f.msg_id ≠ msgVideoFrame) → s'.Video := by
    intro hframes
    refine h.same ?_ hdeparted hlive
    rw [hscript, video_append, video_of_none fun f hf => hframes f (Writing.unbegun_subset f hf),
      List.append_nil]
  have hdead : ¬ s'.Live → s'.Video := by
    intro hnot
    refine ⟨?_, fun hl => absurd hl hnot⟩
    rw [hdeparted]
    exact hfront.trans h.isFront
  have hsending := hwf.holder _ _ hwriter
  cases t with
  | run =>
      rcases hsending with hgreet | ⟨-, hframes⟩
      · apply hdead
        rintro (hgreet' | hloop)
        · rw [hfail rfl hgreet] at hgreet'
          cases hgreet'
        · have hunspawned := (hph.unspawned (.inr (.inl hgreet))).1
          rw [hpump.resolve_right hloop.2] at hloop
          exact hloop.1 hunspawned
      · apply hother
        intro f hf
        rw [hframes f hf]
        decide
  | framePump =>
      obtain ⟨pkt, hsend, -⟩ := hsending
      apply hdead
      rintro (hgreet | hloop)
      · rw [(hph.unspawned (.inr (.inl (hrun hgreet)))).1] at hsend
        cases hsend
      · exact hloop.2 (hreturned rfl)
  | telemetryPump =>
      obtain ⟨tel, -, hframes⟩ := hsending
      apply hother
      intro f hf
      rw [hframes f hf]
      show msgTelemetry ≠ msgVideoFrame
      decide
  | readLoop =>
      obtain ⟨resp, -, hframes⟩ := hsending
      apply hother
      intro f hf
      rw [hframes f hf]
      show msgTimeSyncResp ≠ msgVideoFrame
      decide

theorem enterSelect_video (hflow : s.Flow c) (h : s.Video) (t : Task) : (s.enterSelect t).Video := by
  have hscript := congrArg video (enterSelect_sameRun (s := s) t).script
  rcases enterSelect_cases s t with heq | ⟨hhead, heq⟩ | ⟨-, heq⟩
  · rw [heq]
    exact h
  · have hidle := hflow.idle (.inr (.inl hhead))
    rw [heq] at hscript ⊢
    refine h.same hscript rfl fun _ => ⟨.inr ⟨by simp [hhead], by simp [hhead]⟩, ?_⟩
    simp [queued, hhead, hidle]
  · rw [heq] at hscript ⊢
    exact h.same hscript rfl (Live.same rfl rfl id)

/-- A pump in its loop returns. -/
theorem Video.returns {s' : Session} (hph : s.Phases c) (h : s.Video) (hpump : s.frame_pump ≠ .unspawned)
    (hscript : video s'.script = video s.script) (hdeparted : s'.departed = s.departed)
    (hreturned : s'.frame_pump = .returned) (hrun : s'.run = s.run) : s'.Video := by
  refine h.same hscript hdeparted ?_
  rintro (hgreet | hloop)
  · rw [hrun] at hgreet
    exact absurd hgreet (hph.looping hpump).2.2
  · exact absurd hreturned hloop.2

theorem selectStop_video (hph : s.Phases c) (h : s.Video) (t : Task) : (s.selectStop t).Video := by
  have hscript := congrArg video (selectStop_sameRun (s := s) t).script
  rcases selectStop_cases s t with heq | ⟨hselect, heq⟩ | ⟨-, heq⟩
  · rw [heq]
    exact h
  · rw [heq] at hscript ⊢
    exact h.returns hph (by simp [hselect]) hscript rfl rfl rfl
  · rw [heq] at hscript ⊢
    exact h.same hscript rfl (Live.same rfl rfl id)

theorem selectPop_video (hph : s.Phases c) (h : s.Video) : s.selectPop.Video := by
  have hscript := congrArg video (selectPop_sameRun (s := s)).script
  rcases selectPop_cases s with heq | ⟨notified, hselect, hpops⟩
  · rw [heq]
    exact h
  · have hlive : s.Live := .inr ⟨by simp [hselect], by simp [hselect]⟩
    rcases hpops with ⟨pkt, hpop, heq⟩ | ⟨hpop, heq⟩ | ⟨-, heq⟩
    · -- the packet goes from the pop to the pump
      rw [heq] at hscript ⊢
      refine h.same hscript rfl fun _ => ⟨hlive, ?_⟩
      simp [queued, hselect, hpop]
    · rw [heq] at hscript ⊢
      refine h.same hscript rfl fun _ => ⟨hlive, ?_⟩
      simp [queued, hselect, hpop]
    · rw [heq] at hscript ⊢
      exact h.returns hph (by simp [hselect]) hscript rfl rfl rfl

theorem sent_video (hwf : s.Wf) (hph : s.Phases c) (h : s.Video) {t : Task}
    (hwriter : s.writer = some (t, .flush)) : (sent c s t).Video := by
  have hsending := hwf.holder _ _ hwriter
  have hscript := congrArg video (sent_script (c := c) hwriter)
  cases t with
  | run =>
      by_cases hgreet : s.run = .greeting
      · have hunspawned := (hph.unspawned (.inr (.inl hgreet))).1
        rw [sent, if_pos hgreet] at hscript ⊢
        refine h.same hscript rfl fun _ => ⟨.inl hgreet, ?_⟩
        cases hoff : c.screen_off <;> simp [queued, spawn, hunspawned, hoff]
      · rw [sent, if_neg hgreet] at hscript ⊢
        refine h.same hscript rfl (Live.same rfl rfl ?_)
        cases c.screen_off <;> rintro ⟨⟩
  | framePump =>
      obtain ⟨pkt, hpump, -⟩ := hsending
      simp only [sent, hpump] at hscript ⊢
      refine h.same hscript rfl fun _ => ⟨.inr ⟨by simp [hpump], by simp [hpump]⟩, ?_⟩
      simp [queued, hpump]
  | telemetryPump => exact h.same hscript rfl (Live.same rfl rfl id)
  | readLoop => exact h.same hscript rfl (Live.same rfl rfl id)

theorem flush_video (hwf : s.Wf) (hph : s.Phases c) (h : s.Video) (ok : Bool) :
    (flush c s ok).Video := by
  have hscript := congrArg video (flush_script (c := c) s ok)
  rcases flush_cases c s ok with heq | ⟨t, hwriter, ⟨-, heq⟩ | ⟨-, heq⟩⟩
  · rw [heq]
    exact h
  · rw [heq]
    exact sent_video hwf hph h hwriter
  · have hsent := sent_video hwf hph h hwriter
    rw [heq] at hscript ⊢
    cases t with
    | run =>
        rw [sendFailed] at hscript ⊢
        by_cases hgreet : s.run = .greeting
        · rw [if_pos hgreet] at hscript ⊢
          exact h.same hscript rfl fun _ => ⟨.inl hgreet, rfl⟩
        · rw [if_neg hgreet]
          exact hsent
    | framePump =>
        obtain ⟨pkt, hpump, -⟩ := hwf.holder _ _ hwriter
        exact h.returns hph (by simp [hpump]) hscript rfl rfl rfl
    | telemetryPump => exact h.same hscript rfl (Live.same rfl rfl id)
    | readLoop => exact hsent

theorem writeFails_video (hwf : s.Wf) (hph : s.Phases c) (h : s.Video) : (writeFails c s).Video := by
  have hsame : (writeFails c s).departed = s.departed ∧ (writeFails c s).pop = s.pop ∧
      ((writeFails c s).frame_pump = s.frame_pump ∨ (writeFails c s).frame_pump = .returned) ∧
        ((writeFails c s).run = .greeting → s.run = .greeting) := by
    unfold writeFails sendFailed failRun
    repeat' split
    all_goals first
      | contradiction
      | simp
  obtain ⟨hdeparted, hpop, hpump, hrun⟩ := hsame
  rcases writeFails_script (c := c) s with hscript | hcut
  · refine h.same (congrArg video hscript) hdeparted ?_
    rintro (hgreet | hloop)
    · refine ⟨.inl (hrun hgreet), ?_⟩
      have hunspawned := (hph.unspawned (.inr (.inl (hrun hgreet)))).1
      rcases hpump with hpump | hpump <;> simp [queued, hpump, hpop, hunspawned]
    · exact Live.same (hpump.resolve_right hloop.2) hpop hrun (.inr hloop)
  · exact h.cut hwf hph hcut hdeparted hpop hpump hrun

theorem dropReadLoop_video (hwf : s.Wf) (hph : s.Phases c) (h : s.Video) : s.dropReadLoop.Video := by
  rcases dropReadLoop_script s with hscript | hcut
  · exact h.same (congrArg video hscript) rfl (Live.same rfl rfl id)
  · exact h.cut hwf hph hcut rfl rfl (.inl rfl) id

theorem finish_video (hwf : s.Wf) (hph : s.Phases c) (h : s.Video) : (finish c s).Video := by
  unfold finish
  split
  case isTrue hrun =>
    have hleave : ∀ s' : Session, s'.Video → (leave c s').Video := by
      intro s' h'
      refine h'.same rfl rfl (Live.same rfl rfl ?_)
      rw [leave]
      split <;> rintro ⟨⟩
    split
    · exact hleave _ (dropReadLoop_video hwf hph h)
    · exact hleave _ (h.same rfl rfl (Live.same rfl rfl id))
  case isFalse => exact h

theorem step_video (hwf : s.Wf) (hph : s.Phases c) (hflow : s.Flow c) (h : s.Video) (e : Event) :
    (step c s e).Video := by
  cases e with
  | push pkt => exact push_video h pkt
  | popTurn expired => exact popTurn_video hph hflow h expired
  | popPanics =>
      have hscript := congrArg video (popPanics_sameRun (s := s)).script
      rw [step]
      rcases popPanics_cases s with heq | ⟨hrunning, heq⟩
      · rw [heq]
        exact h
      · rw [heq] at hscript ⊢
        exact h.same hscript rfl fun hl => ⟨hl, by simp [queued, hrunning]⟩
  | keyframe expired => exact waitForKeyframe_video hph hflow h expired
  | enterSelect t => exact enterSelect_video hflow h t
  | selectStop t => exact selectStop_video hph h t
  | selectPop => exact selectPop_video hph h
  | selectTick =>
      rw [step, selectTick]
      split
      · exact h.same rfl rfl (Live.same rfl rfl id)
      · exact h
  | receive msg_id payload t2 t3 =>
      rw [step]
      rcases receive_cases c s msg_id payload t2 t3 with heq | ⟨-, heq | ⟨resp, heq⟩⟩
      · rw [heq]
        exact h
      · rw [heq]
        exact h.same rfl rfl (Live.same rfl rfl id)
      · rw [heq]
        exact h.same rfl rfl (Live.same rfl rfl id)
  | readEnds =>
      rw [step, readEnds]
      split
      · exact h.same rfl rfl (Live.same rfl rfl id)
      · exact h
  | lock t =>
      by_cases ht : t = .framePump
      · rw [ht]
        exact lock_framePump_video hflow h
      · exact lock_other_video c h ht
  | write n =>
      have hscript := congrArg video (write_script hwf n)
      rw [step]
      rcases write_cases s n with hsame | ⟨t, f, k, next, -, -, -, ⟨-, hpart⟩ | ⟨-, hall⟩⟩
      · rw [hsame]
        exact h
      · rw [hpart] at hscript ⊢
        exact h.same hscript rfl (Live.same rfl rfl id)
      · rw [hall] at hscript ⊢
        exact h.same hscript rfl (Live.same rfl rfl id)
  | writeFails => exact writeFails_video hwf hph h
  | flush ok => exact flush_video hwf hph h ok
  | cancel =>
      rw [step, cancel]
      split
      · exact dropReadLoop_video hwf hph h
      · exact h
  | readLoopEnded =>
      rw [step, readLoopEnded]
      split
      · refine h.same rfl rfl (Live.same rfl rfl ?_)
        rw [leave]
        split <;> rintro ⟨⟩
      · exact h
  | finish => exact finish_video hwf hph h
  | notify =>
      rw [step, notify]
      split
      · refine h.same rfl rfl ?_
        cases hpump : s.frame_pump <;> simp [Live, queued, Pump.notify, hpump]
      · exact h
  | joined timed_out =>
      rw [step]
      rcases joined_cases s timed_out with heq | ⟨-, -, heq⟩ | ⟨-, -, heq⟩
      · rw [heq]
        exact h
      · rw [heq]
        exact h.same rfl rfl (Live.same rfl rfl fun hrun => by cases hrun)
      · rw [heq]
        exact h.same rfl rfl (Live.same rfl rfl fun hrun => by cases hrun)
  | engineStop =>
      rw [step, engineStop]
      split
      · exact h.same rfl rfl (Live.same rfl rfl fun hrun => by cases hrun)
      · exact h

/-! ### The order of the encoder -/

/-- What the queue accepts at a step. -/
def accepted (c : SessionConfig) (s : Session) : Event → List EncodedPacket
  | .push pkt => if c.screen_off ∨ s.queue.closed then [] else [pkt]
  | _ => []

/-- The packets that the encoder pushes into the open queue, in its order. -/
def pushed (c : SessionConfig) : Session → List Event → List EncodedPacket
  | _, [] => []
  | s, e :: es => accepted c s e ++ pushed c (step c s e) es

/-- The packets that have left the queue, and those in it. -/
def accounted (s : Session) : List EncodedPacket := s.departed.map Prod.fst ++ s.queue.deque

theorem push_accounted (s : Session) (pkt : EncodedPacket) :
    (push c s pkt).accounted = s.accounted ++ accepted c s (.push pkt) := by
  cases hoff : c.screen_off with
  | true => simp [push, accepted, hoff]
  | false =>
      cases hclosed : s.queue.closed with
      | true =>
          have hnone : s.queue.evicted = none := if_pos hclosed
          simp [push, accepted, accounted, hoff, hclosed, hnone, PacketQueue.push_of_closed hclosed]
      | false =>
          have hdeque := PacketQueue.push_deque hclosed pkt
          simp [push, accepted, accounted, hoff, hclosed, hdeque, Function.comp_def]

theorem popTurn_accounted (s : Session) (expired : Bool) :
    (s.popTurn expired).accounted = s.accounted := by
  unfold popTurn
  split
  case h_1 =>
    split
    case h_1 => rfl
    case h_2 => rfl
    case h_3 pkt hpopped =>
      rw [accounted, accounted, PacketQueue.popTimeout_eq_some hpopped, List.map_append,
        List.append_assoc]
      rfl
  case h_2 => rfl

/-- The other steps leave the packets alone. -/
theorem step_departed (s : Session) {e : Event} (hpush : ∀ pkt, e ≠ .push pkt)
    (hpop : ∀ expired, e ≠ .popTurn expired) :
    (step c s e).departed = s.departed ∧ (step c s e).queue.deque = s.queue.deque := by
  cases e with
  | push pkt => exact absurd rfl (hpush pkt)
  | popTurn expired => exact absurd rfl (hpop expired)
  | popPanics =>
      show s.popPanics.departed = _ ∧ s.popPanics.queue.deque = _
      unfold popPanics
      split <;> exact ⟨rfl, rfl⟩
  | keyframe expired =>
      show (waitForKeyframe c s expired).departed = _ ∧ (waitForKeyframe c s expired).queue.deque = _
      unfold waitForKeyframe greet
      repeat' split
      all_goals exact ⟨rfl, rfl⟩
  | enterSelect t =>
      show (s.enterSelect t).departed = _ ∧ (s.enterSelect t).queue.deque = _
      unfold enterSelect
      repeat' split
      all_goals exact ⟨rfl, rfl⟩
  | selectStop t =>
      show (s.selectStop t).departed = _ ∧ (s.selectStop t).queue.deque = _
      unfold selectStop
      repeat' split
      all_goals exact ⟨rfl, rfl⟩
  | selectPop =>
      show s.selectPop.departed = _ ∧ s.selectPop.queue.deque = _
      unfold selectPop
      split <;> exact ⟨rfl, rfl⟩
  | selectTick =>
      show s.selectTick.departed = _ ∧ s.selectTick.queue.deque = _
      unfold selectTick
      split <;> exact ⟨rfl, rfl⟩
  | receive msg_id payload t2 t3 =>
      show (receive c s msg_id payload t2 t3).departed = _ ∧ (receive c s msg_id payload t2 t3).queue.deque = _
      unfold receive
      repeat' split
      all_goals exact ⟨rfl, rfl⟩
  | readEnds =>
      show s.readEnds.departed = _ ∧ s.readEnds.queue.deque = _
      unfold readEnds
      split <;> exact ⟨rfl, rfl⟩
  | lock t =>
      show (s.lock t).departed = _ ∧ (s.lock t).queue.deque = _
      unfold lock
      repeat' split
      all_goals exact ⟨rfl, rfl⟩
  | write n =>
      rw [step]
      rcases write_cases s n with hsame | ⟨t, f, k, next, -, -, -, ⟨-, hpart⟩ | ⟨-, hall⟩⟩
      · rw [hsame]
        exact ⟨rfl, rfl⟩
      · rw [hpart]
        exact ⟨rfl, rfl⟩
      · rw [hall]
        exact ⟨rfl, rfl⟩
  | writeFails =>
      show (writeFails c s).departed = _ ∧ (writeFails c s).queue.deque = _
      unfold writeFails sendFailed
      repeat' split
      all_goals first
        | contradiction
        | exact ⟨rfl, rfl⟩
  | flush ok =>
      show (flush c s ok).departed = _ ∧ (flush c s ok).queue.deque = _
      unfold flush sendFailed sent
      repeat' split
      all_goals exact ⟨rfl, rfl⟩
  | cancel =>
      show s.cancel.departed = _ ∧ s.cancel.queue.deque = _
      unfold cancel
      split <;> exact ⟨rfl, rfl⟩
  | readLoopEnded =>
      show (readLoopEnded c s).departed = _ ∧ (readLoopEnded c s).queue.deque = _
      unfold readLoopEnded
      split <;> exact ⟨rfl, rfl⟩
  | finish =>
      show (finish c s).departed = _ ∧ (finish c s).queue.deque = _
      unfold finish
      repeat' split
      all_goals exact ⟨rfl, rfl⟩
  | notify =>
      show s.notify.departed = _ ∧ s.notify.queue.deque = _
      unfold notify
      split <;> exact ⟨rfl, rfl⟩
  | joined timed_out =>
      show (s.joined timed_out).departed = _ ∧ (s.joined timed_out).queue.deque = _
      unfold joined
      repeat' split
      all_goals exact ⟨rfl, rfl⟩
  | engineStop =>
      show s.engineStop.departed = _ ∧ s.engineStop.queue.deque = _
      unfold engineStop
      split <;> exact ⟨rfl, rfl⟩

theorem step_accounted (s : Session) (e : Event) :
    (step c s e).accounted = s.accounted ++ accepted c s e := by
  by_cases hpush : ∃ pkt, e = .push pkt
  · obtain ⟨pkt, rfl⟩ := hpush
    exact push_accounted s pkt
  by_cases hpop : ∃ expired, e = .popTurn expired
  · obtain ⟨expired, rfl⟩ := hpop
    exact (popTurn_accounted s expired).trans (List.append_nil _).symm
  have hnone : accepted c s e = [] := by
    cases e with
    | push pkt => exact absurd ⟨pkt, rfl⟩ hpush
    | _ => rfl
  obtain ⟨hdeparted, hdeque⟩ := step_departed (c := c) s (fun pkt h => hpush ⟨pkt, h⟩)
    fun expired h => hpop ⟨expired, h⟩
  rw [accounted, accounted, hdeparted, hdeque, hnone, List.append_nil]

theorem accounted_eq (s : Session) (es : List Event) :
    (es.foldl (step c) s).accounted = s.accounted ++ pushed c s es := by
  induction es generalizing s with
  | nil => exact (List.append_nil _).symm
  | cons e es ih =>
      show (es.foldl (step c) (step c s e)).accounted = _
      rw [ih, step_accounted, List.append_assoc, pushed]

/-! ### The run -/

theorem after_video (c : SessionConfig) (es : List Event) : (after c es).Flow c ∧ (after c es).Video := by
  have hstep : ∀ s e, s.Wf ∧ s.Phases c ∧ s.Flow c ∧ s.Video →
      (step c s e).Wf ∧ (step c s e).Phases c ∧ (step c s e).Flow c ∧ (step c s e).Video := by
    rintro s e ⟨hwf, hph, hflow, hvideo⟩
    exact ⟨step_wf hwf e, step_phases hwf hph e, step_flow hwf hph hflow e,
      step_video hwf hph hflow hvideo e⟩
  have hinv := Run.invariant hstep es ⟨start_wf, start_phases, start_flow, start_video⟩
  exact hinv.2.2

/-- The packet before a delta frame that was taken was taken, or dropped by an overflow. -/
theorem Flow.before_delta (h : s.Flow c) {pre post : List (EncodedPacket × Departure)}
    {x y : EncodedPacket × Departure} (hsplit : s.departed = pre ++ x :: y :: post)
    (hy : y.2 = .taken) (hdelta : y.1.is_keyframe = false) : x.2 = .taken ∨ x.2 = .overflowed := by
  cases hx : x.2 with
  | taken => exact .inl rfl
  | overflowed => exact .inr rfl
  | skipped =>
      -- behind a packet skipped the next one taken is the first, and a keyframe
      have hnone : taken pre = [] := by
        rw [taken_eq_nil]
        intro z hz hzt
        have hskip := h.no_skip
        rw [NoSkip, hsplit] at hskip
        exact (List.pairwise_append.1 hskip).2.2 z hz x List.mem_cons_self hzt hx
      have hfirst : y.1 ∈ (taken s.departed).head? := by
        obtain ⟨yp, yd⟩ := y
        obtain ⟨xp, xd⟩ := x
        simp only at hx hy
        subst hx hy
        rw [hsplit, taken_append, hnone]
        rfl
      rw [h.first_key y.1 hfirst] at hdelta
      cases hdelta

/-- **The delivery.**  The packets leave the queue in the order of the encoder.  The video on the wire is
that of the packets taken, as far as the session has come; the first of them is a keyframe, and before a
delta frame only an overflow leaves one out. -/
theorem delivery (c : SessionConfig) (es : List Event) :
    let s := after c es
    s.departed.map Prod.fst <+: pushed c (start c) es ∧
      video (s.wire.map (·.frame)) <+: videoFrames (taken s.departed) ∧
      (∀ pkt ∈ (taken s.departed).head?, pkt.is_keyframe = true) ∧
      ∀ pre x y post, s.departed = pre ++ x :: y :: post → y.2 = .taken → y.1.is_keyframe = false →
        x.2 = .taken ∨ x.2 = .overflowed := by
  intro s
  obtain ⟨hflow, hvideo⟩ := after_video c es
  refine ⟨?_, ?_, hflow.first_key, fun pre x y post => hflow.before_delta⟩
  · have haccounted := accounted_eq (c := c) (start c) es
    have hstart : (start c).accounted = [] := rfl
    rw [hstart, List.nil_append] at haccounted
    rw [← haccounted]
    exact List.prefix_append _ _
  · have hscript : video (s.wire.map (·.frame)) <+: video s.script := by
      rw [script, video_append]
      exact List.prefix_append _ _
    exact hscript.trans hvideo.isFront

/-- A queue of one packet overflows between two pops; the delta frame behind the dropped one is sent. -/
theorem delta_behind_overflow : ¬ ∀ (c : SessionConfig) (es : List Event) (pre post : List EncodedPacket)
    (x y : EncodedPacket), pushed c (start c) es = pre ++ x :: y :: post → y.is_keyframe = false →
      pumpFrame y ∈ (after c es).wire.map (·.frame) →
        firstFrame x ∈ (after c es).wire.map (·.frame) ∨ pumpFrame x ∈ (after c es).wire.map (·.frame) := by
  intro h
  have hsent := h (.fullHd false 1) [.push (.idr 0), .popTurn false, .keyframe false, .write 16,
    .write 9, .write 10, .write 24, .flush true, .push (.delta 1), .push (.delta 2),
    .enterSelect .framePump, .popTurn false, .selectPop, .lock .framePump, .write 19, .flush true]
    [.idr 0] [] (.delta 1) (.delta 2) (by decide +kernel) rfl (by decide +kernel)
  revert hsent
  decide +kernel

end Session

end Penflow
