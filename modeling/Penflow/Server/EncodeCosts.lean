import Penflow.Lib.Recent
import Penflow.Server.Grammar
import Penflow.Server.Telemetry

/-!
# What a report tells of the encoder

A `TELEMETRY` message carries the mean of the last encode costs and their 99th percentile.  A cost enters the
ring when its frame has been sent, and the sample is taken before the pump asks for the writer: other frames
may go in between.  A message reports on a front of the frames ahead of it, and at most one of those ahead of
an earlier message is missing there.
-/

namespace Penflow

/-! ### The ring -/

/-- The costs that the packets carry. -/
def encodeCosts (pkts : List EncodedPacket) : List UInt32 := pkts.filterMap (·.encode_us)

theorem encodeCosts_append (pkts pkts' : List EncodedPacket) :
    encodeCosts (pkts ++ pkts') = encodeCosts pkts ++ encodeCosts pkts' :=
  List.filterMap_append ..

namespace Stats

/-- The two numbers are those of the costs. -/
structure Summary (costs : List UInt32) (avg p99 : UInt32) : Prop where
  empty : costs = [] → avg = 0 ∧ p99 = 0
  mean : costs ≠ [] → avg.toNat = (costs.map UInt32.toNat).sum / costs.length
  rank : costs ≠ [] → Recent.Rank (costs.map UInt32.toNat) (p99Index costs.length) p99.toNat

theorem p99Index_lt {len : ℕ} (hpos : 0 < len) : p99Index len < len := by
  rw [p99Index]
  omega

theorem encodeUsSummary_mean {s : Stats} (hne : s.encode_us_ring ≠ []) :
    s.encodeUsSummary.1.toNat = (s.encode_us_ring.map UInt32.toNat).sum / s.encode_us_ring.length := by
  have hmap : s.encode_us_ring.map UInt32.toNat ≠ [] := by
    rw [Ne, List.map_eq_nil_iff]
    exact hne
  -- the mean of words is one
  have hword : (s.encode_us_ring.map UInt32.toNat).sum / s.encode_us_ring.length ≤ 2 ^ 32 - 1 := by
    have hcost : ∀ x ∈ s.encode_us_ring.map UInt32.toNat, 0 ≤ x ∧ x ≤ 2 ^ 32 - 1 := by
      intro x hx
      obtain ⟨us, -, rfl⟩ := List.mem_map.1 hx
      have := us.toNat_lt
      omega
    have hmean := (Recent.mean_mem hmap hcost).2
    rwa [List.length_map] at hmean
  have hfirst : s.encodeUsSummary.1 =
      UInt32.ofNat ((s.encode_us_ring.map UInt32.toNat).sum / s.encode_us_ring.length) := by
    rw [encodeUsSummary, if_neg (by simpa using hne)]
  rw [hfirst, UInt32.toNat_ofNat']
  exact Nat.mod_eq_of_lt (Nat.lt_of_le_of_lt hword (by decide))

theorem encodeUsSummary_rank {s : Stats} (hne : s.encode_us_ring ≠ []) :
    Recent.Rank (s.encode_us_ring.map UInt32.toNat) (p99Index s.encode_us_ring.length)
      s.encodeUsSummary.2.toNat := by
  have hlt : p99Index s.encode_us_ring.length < (s.encode_us_ring.map UInt32.toNat).length := by
    rw [List.length_map]
    exact p99Index_lt (List.length_pos_iff.2 hne)
  have hsorted : (s.encode_us_ring.mergeSort (· ≤ ·)).map UInt32.toNat =
      (s.encode_us_ring.map UInt32.toNat).mergeSort (· ≤ ·) := by
    apply List.map_mergeSort
    intro a _ b _
    exact decide_eq_decide.2 UInt32.le_iff_toNat_le
  obtain ⟨v, hv, hrank⟩ := Recent.rank_mergeSort hlt
  have hsecond : s.encodeUsSummary.2 =
      (s.encode_us_ring.mergeSort (· ≤ ·)).getD (p99Index s.encode_us_ring.length) 0 := by
    rw [encodeUsSummary, if_neg (by simpa using hne)]
  rw [← hsorted, List.getElem?_map, Option.map_eq_some_iff] at hv
  obtain ⟨us, hus, rfl⟩ := hv
  rw [hsecond, List.getD_eq_getElem?_getD, hus]
  exact hrank

theorem encodeUsSummary_summary (s : Stats) :
    Summary s.encode_us_ring s.encodeUsSummary.1 s.encodeUsSummary.2 where
  empty := by
    intro hnil
    have hempty : s.encode_us_ring.isEmpty = true := by
      rw [hnil]
      rfl
    rw [encodeUsSummary, if_pos hempty]
    exact ⟨rfl, rfl⟩
  mean := encodeUsSummary_mean
  rank := encodeUsSummary_rank

/-- The packet of a frame that is counted enters its cost. -/
theorem count_ring (s : Stats) (pkt : EncodedPacket) : (s.count pkt).encode_us_ring =
    (encodeCosts [pkt]).foldl (Recent.pushBounded encodeRingCapacity) s.encode_us_ring := by
  cases hus : pkt.encode_us with
  | none => simp [count, encodeCosts, hus]
  | some us => simp [count, encodeCosts, recordEncodeUs, Recent.pushBounded, hus]

end Stats

namespace Session

variable {c : SessionConfig} {s : Session}

/-- The packet that `frame_pump` counts in the step. -/
def counts (s : Session) : Event → List EncodedPacket
  | .flush true =>
    match s.writer, s.frame_pump with
    | some (.framePump, .flush), .sending pkt => [pkt]
    | _, _ => []
  | _ => []

theorem counts_of_ne {e : Event} (he : e ≠ .flush true) : s.counts e = [] := by
  cases e with
  | flush ok =>
      cases ok with
      | true => exact absurd rfl he
      | false => rfl
  | _ => rfl

theorem counts_cases (s : Session) (e : Event) : s.counts e = [] ∨ ∃ pkt, s.counts e = [pkt] ∧ e = .flush true ∧
    s.writer = some (.framePump, .flush) ∧ s.frame_pump = .sending pkt := by
  by_cases he : e = .flush true
  · subst he
    rw [counts]
    split
    case h_1 pkt hwriter hpump => exact Or.inr ⟨pkt, rfl, rfl, hwriter, hpump⟩
    case h_2 => exact Or.inl rfl
  · exact Or.inl (counts_of_ne he)

/-! ### A step of the ring -/

theorem sent_ring {t : Task} (hwriter : s.writer = some (t, .flush)) :
    (sent c s t).stats.encode_us_ring =
      (encodeCosts (s.counts (.flush true))).foldl (Recent.pushBounded Stats.encodeRingCapacity)
        s.stats.encode_us_ring := by
  simp only [counts, hwriter]
  cases t with
  | framePump =>
      cases hpump : s.frame_pump with
      | sending pkt =>
          simp only [sent, hpump]
          exact Stats.count_ring s.stats pkt
      | _ =>
          simp only [sent, hpump]
          rfl
  | run =>
      rw [sent]
      split
      · rfl
      · rfl
  | telemetryPump => rfl
  | readLoop => rfl

theorem sendFailed_ring (s : Session) (flushing : Bool) (t : Task) :
    (sendFailed c s flushing t).stats.encode_us_ring = s.stats.encode_us_ring := by
  cases t with
  | framePump => rfl
  | telemetryPump => rfl
  | run =>
      rw [sendFailed, sent]
      repeat' split
      all_goals rfl
  | readLoop =>
      cases flushing with
      | true => rfl
      | false => rfl

/-- **A step of the ring.**  The cost of a frame enters it with the frame's flush. -/
theorem step_ring (s : Session) (e : Event) : (step c s e).stats.encode_us_ring =
    (encodeCosts (s.counts e)).foldl (Recent.pushBounded Stats.encodeRingCapacity) s.stats.encode_us_ring := by
  cases e with
  | flush ok =>
      rw [step]
      rcases flush_cases c s ok with hsame | ⟨t, hwriter, ⟨hok, hsent⟩ | ⟨hok, hfailed⟩⟩
      · have hnone : s.counts (.flush ok) = [] := by
          rcases counts_cases s (.flush ok) with hnone | ⟨pkt, -, he, hwriter, hpump⟩
          · exact hnone
          · -- a frame that is flushed leaves the writer
            have hleft : (flush c s ok).writer = none := by
              cases he
              simp only [flush, hwriter, sent, hpump, if_true]
            rw [hsame, hwriter] at hleft
            cases hleft
        rw [hsame, hnone]
        rfl
      · rw [hsent, hok]
        exact sent_ring hwriter
      · rw [hfailed, hok]
        exact sendFailed_ring s true t
  | selectTick =>
      rw [step, selectTick]
      split
      · rfl
      · rfl
  | push pkt =>
      rw [step, push]
      split
      · rfl
      · rfl
  | popTurn expired =>
      rw [step, popTurn]
      repeat' split
      all_goals rfl
  | popPanics =>
      rw [step, popPanics]
      split
      all_goals rfl
  | keyframe expired =>
      show (waitForKeyframe c s expired).stats.encode_us_ring = s.stats.encode_us_ring
      unfold waitForKeyframe greet
      repeat' split
      all_goals rfl
  | enterSelect t =>
      show (s.enterSelect t).stats.encode_us_ring = s.stats.encode_us_ring
      rcases enterSelect_cases s t with heq | ⟨-, heq⟩ | ⟨-, heq⟩
      all_goals rw [heq]
  | selectStop t =>
      show (s.selectStop t).stats.encode_us_ring = s.stats.encode_us_ring
      rcases selectStop_cases s t with heq | ⟨-, heq⟩ | ⟨-, heq⟩
      all_goals rw [heq]
  | selectPop =>
      rw [step, selectPop]
      split
      all_goals rfl
  | receive msg_id payload t2 t3 =>
      rw [step, receive]
      repeat' split
      all_goals rfl
  | readEnds =>
      rw [step, readEnds]
      split
      all_goals rfl
  | lock t =>
      show (s.lock t).stats.encode_us_ring = s.stats.encode_us_ring
      unfold lock
      repeat' split
      all_goals rfl
  | write n =>
      show (s.write n).stats.encode_us_ring = s.stats.encode_us_ring
      rcases write_cases s n with hsame | ⟨t, f, k, next, -, -, -, ⟨-, hpart⟩ | ⟨-, hall⟩⟩
      · rw [hsame]
      · rw [hpart]
      · rw [hall]
  | writeFails =>
      show (writeFails c s).stats.encode_us_ring = s.stats.encode_us_ring
      rcases writeFails_cases c s with hsame | ⟨t, f, k, next, -, hfailed⟩
      · rw [hsame]
      · rw [hfailed]
        exact sendFailed_ring _ false t
  | cancel =>
      rw [step, cancel]
      split
      all_goals rfl
  | readLoopEnded =>
      rw [step, readLoopEnded]
      split
      all_goals rfl
  | finish =>
      rw [step, finish]
      repeat' split
      all_goals rfl
  | notify =>
      rw [step, notify]
      split
      all_goals rfl
  | joined timed_out =>
      rw [step, joined]
      repeat' split
      all_goals rfl
  | engineStop =>
      rw [step, engineStop]
      split
      all_goals rfl

/-! ### What the pump holds -/

/-- The pump is in its loop. -/
def Looping (s : Session) : Prop := s.frame_pump ≠ .unspawned ∧ s.frame_pump ≠ .returned

/-- The packet that the pump is sending. -/
def inSend (s : Session) : List EncodedPacket :=
  match s.frame_pump with
  | .sending pkt => [pkt]
  | _ => []

/-- The packets go through the pump in their order: those behind the first one are counted, being sent, or
queued. -/
def Conveyed (s : Session) (counted : List EncodedPacket) : Prop :=
  s.Looping → (taken s.departed).tail = counted ++ s.inSend ++ s.queued

theorem Conveyed.keep {s' : Session} {counted : List EncodedPacket} (h : s.Conveyed counted)
    (htaken : taken s'.departed = taken s.departed)
    (hsame : s'.Looping → s.Looping ∧ s'.inSend = s.inSend ∧ s'.queued = s.queued) : s'.Conveyed counted := by
  intro hloop
  obtain ⟨hloop, hsend, hqueued⟩ := hsame hloop
  rw [htaken, hsend, hqueued]
  exact h hloop

/-- The pump stays where it is, or returns. -/
theorem Conveyed.same {s' : Session} {counted : List EncodedPacket} (h : s.Conveyed counted)
    (htaken : taken s'.departed = taken s.departed) (hpop : s'.pop = s.pop)
    (hpump : s'.frame_pump = s.frame_pump ∨ s'.frame_pump = .returned) : s'.Conveyed counted := by
  apply h.keep htaken
  intro hloop
  have hpump := hpump.resolve_right hloop.2
  rw [Looping, hpump] at hloop
  exact ⟨hloop, by rw [inSend, inSend, hpump], by rw [queued, queued, hpump, hpop]⟩

theorem Conveyed.of_unspawned {s' : Session} {counted : List EncodedPacket} (h : s'.frame_pump = .unspawned) :
    s'.Conveyed counted :=
  fun hloop => absurd h hloop.1

/-- The pump takes its packet, one more, behind those it has. -/
theorem popTurn_conveyed (hflow : s.Flow c) {counted : List EncodedPacket} (h : s.Conveyed counted)
    (hearly : s.run.rank < RunPhase.serving.rank → s.frame_pump = .unspawned) (expired : Bool) :
    (s.popTurn expired).Conveyed counted := by
  unfold popTurn
  split
  case h_1 hrunning =>
    split
    case h_1 => exact h
    case h_2 =>
      refine h.keep rfl ?_
      intro hloop
      exact ⟨hloop, rfl, by simp [queued, hrunning]⟩
    case h_3 pkt hpopped =>
      intro hloop
      have hrun : s.run ≠ .awaitKeyframe := by
        intro hrun
        apply hloop.1
        apply hearly
        rw [hrun]
        decide
      have hsome := (hflow.popping hrunning).resolve_left hrun
      have hqueued : (queued { s with pop := .done (some pkt) }) = s.queued ++ [pkt] := by
        simp [queued, hrunning]
      show (taken (_ ++ [(pkt, if _ then _ else _)])).tail =
        counted ++ s.inSend ++ queued { s with pop := .done (some pkt) }
      rw [if_neg fun h => hrun h.1, taken_append, List.tail_append_of_ne_nil hsome, h hloop, hqueued,
        ← List.append_assoc]
      rfl
  case h_2 => exact h

/-- The tasks are spawned with the packet of the handshake taken, and no other. -/
theorem spawn_conveyed (hph : s.Phases c) (hflow : s.Flow c) (hvideo : s.Video) (hgrammar : s.Grammar c)
    (hgreet : s.run = .greeting) : (spawn c s).Conveyed [] := by
  have hunspawned := (hph.unspawned (Or.inr (Or.inl hgreet))).1
  have hidle := hflow.idle (Or.inl hgreet)
  have hqueued : s.queued = [] := by
    simp [queued, hunspawned, hidle]
  cases hoff : c.screen_off with
  | true =>
      apply Conveyed.of_unspawned
      rw [spawn, hoff]
      rfl
  | false =>
      intro _
      have hframes := hvideo.live (Or.inl hgreet)
      rw [hqueued, List.map_nil, List.append_nil, hgrammar.greeting hgreet, first] at hframes
      have htail : (taken s.departed).tail = [] := by
        cases htaken : taken s.departed with
        | nil => rfl
        | cons first rest =>
            rw [htaken] at hframes
            have hone : [firstFrame first] = firstFrame first :: rest.map pumpFrame := hframes
            exact List.map_eq_nil_iff.1 (List.cons.inj hone).2.symm
      have hsend : (spawn c s).inSend = [] := by
        simp [inSend, spawn, hoff]
      have hnone : (spawn c s).queued = [] := by
        simp [queued, spawn, hoff, hidle]
      rw [hsend, hnone]
      exact htail

/-- The frame that is flushed is counted. -/
theorem flush_conveyed (hwf : s.Wf) (hph : s.Phases c) (hflow : s.Flow c) (hvideo : s.Video)
    (hgrammar : s.Grammar c) {counted : List EncodedPacket} (h : s.Conveyed counted)
    (hearly : s.run = .greeting → counted = []) (ok : Bool) :
    (flush c s ok).Conveyed (counted ++ s.counts (.flush ok)) := by
  rcases counts_cases s (.flush ok) with hnone | ⟨pkt, hcounts, he, hwriter, hpump⟩
  · rw [hnone, List.append_nil]
    have hspawn : s.run = .greeting → (spawn c s).Conveyed counted := by
      intro hgreet
      rw [hearly hgreet]
      exact spawn_conveyed hph hflow hvideo hgrammar hgreet
    rcases flush_cases c s ok with hsame | ⟨t, hwriter, ⟨hok, hsent⟩ | ⟨hok, hfailed⟩⟩
    · rw [hsame]
      exact h
    · rw [hsent]
      cases t with
      | run =>
          rw [sent]
          split
          case isTrue hgreet => exact hspawn hgreet
          case isFalse => exact h.same rfl rfl (Or.inl rfl)
      | framePump =>
          obtain ⟨pkt, hpump, -⟩ := hwf.holder _ _ hwriter
          rw [hok, counts, hwriter, hpump] at hnone
          cases hnone
      | telemetryPump => exact h.same rfl rfl (Or.inl rfl)
      | readLoop => exact h.same rfl rfl (Or.inl rfl)
    · rw [hfailed]
      cases t with
      | run =>
          rw [sendFailed]
          split
          case isTrue => exact h.same rfl rfl (Or.inl rfl)
          case isFalse hgreet =>
            rw [if_pos rfl, sent, if_neg hgreet]
            exact h.same rfl rfl (Or.inl rfl)
      | framePump => exact h.same rfl rfl (Or.inr rfl)
      | telemetryPump => exact h.same rfl rfl (Or.inl rfl)
      | readLoop => exact h.same rfl rfl (Or.inl rfl)
  · cases he
    have hheld : s.inSend = [pkt] := by
      rw [inSend, hpump]
    have hqueued : (sent c s .framePump).queued = s.queued := by
      simp [queued, sent, hpump]
    have hsend : (sent c s .framePump).inSend = [] := by
      simp [inSend, sent, hpump]
    have hflush : flush c s true = sent c s .framePump := by
      simp only [flush, hwriter, if_true]
    have hdeparted : (sent c s .framePump).departed = s.departed := by
      simp only [sent, hpump]
    intro _
    rw [hflush, hdeparted, hcounts, hqueued, hsend, List.append_nil, ← hheld]
    exact h ⟨by rw [hpump]; simp, by rw [hpump]; simp⟩

/-- **A step of the pump.** -/
theorem step_conveyed (hwf : s.Wf) (hph : s.Phases c) (hflow : s.Flow c) (hvideo : s.Video)
    (hgrammar : s.Grammar c) {counted : List EncodedPacket} (h : s.Conveyed counted)
    (hearly : s.run = .greeting → counted = []) (e : Event) :
    (step c s e).Conveyed (counted ++ s.counts e) := by
  have hother : (step c s e).Conveyed counted → s.counts e = [] →
      (step c s e).Conveyed (counted ++ s.counts e) := by
    intro hstep hnone
    rw [hnone, List.append_nil]
    exact hstep
  cases e with
  | flush ok => exact flush_conveyed hwf hph hflow hvideo hgrammar h hearly ok
  | push pkt =>
      apply hother _ rfl
      rw [step, push]
      split
      · exact h
      · refine h.same ?_ rfl (Or.inl rfl)
        show taken (_ ++ _) = _
        rw [taken_append, taken_overflowed, List.append_nil]
  | popTurn expired =>
      apply hother _ rfl
      apply popTurn_conveyed hflow h
      intro hrank
      apply (hph.unspawned _).1
      rcases s.run.early_or_serving with hrun | hrun | hrun | hserving
      · exact Or.inl hrun
      · exact Or.inr (Or.inl hrun)
      · exact Or.inr (Or.inr hrun)
      · omega
  | popPanics =>
      apply hother _ rfl
      rw [step]
      rcases popPanics_cases s with heq | ⟨hrunning, heq⟩
      · rw [heq]
        exact h
      · rw [heq]
        refine h.keep rfl ?_
        intro hloop
        exact ⟨hloop, rfl, by simp [queued, hrunning]⟩
  | keyframe expired =>
      apply hother _ rfl
      rw [step]
      rcases waitForKeyframe_cases c s expired with heq | ⟨hrun, hcases⟩
      · rw [heq]
        exact h
      · have hunspawned := (hph.unspawned (Or.inl hrun)).1
        apply Conveyed.of_unspawned
        rcases hcases with heq | heq | ⟨pkt, -, -, -, heq⟩
        all_goals rw [heq]
        all_goals exact hunspawned
  | enterSelect t =>
      apply hother _ rfl
      rw [step]
      rcases enterSelect_cases s t with heq | ⟨hhead, heq⟩ | ⟨-, heq⟩
      · rw [heq]
        exact h
      · have hidle := hflow.idle (Or.inr (Or.inl hhead))
        rw [heq]
        refine h.keep rfl ?_
        intro _
        exact ⟨by simp [Looping, hhead], by simp [inSend, hhead], by simp [queued, hhead, hidle]⟩
      · rw [heq]
        exact h.same rfl rfl (Or.inl rfl)
  | selectStop t =>
      apply hother _ rfl
      rw [step]
      rcases selectStop_cases s t with heq | ⟨-, heq⟩ | ⟨-, heq⟩
      · rw [heq]
        exact h
      · rw [heq]
        exact h.same rfl rfl (Or.inr rfl)
      · rw [heq]
        exact h.same rfl rfl (Or.inl rfl)
  | selectPop =>
      apply hother _ rfl
      rw [step]
      rcases selectPop_cases s with heq | ⟨notified, hselect, hpops⟩
      · rw [heq]
        exact h
      · have hloop : s.Looping := by simp [Looping, hselect]
        rcases hpops with ⟨pkt, hpop, heq⟩ | ⟨hpop, heq⟩ | ⟨-, heq⟩
        · rw [heq]
          refine h.keep rfl ?_
          intro _
          exact ⟨hloop, by simp [inSend, hselect], by simp [queued, hselect, hpop]⟩
        · rw [heq]
          refine h.keep rfl ?_
          intro _
          exact ⟨hloop, by simp [inSend, hselect], by simp [queued, hselect, hpop]⟩
        · rw [heq]
          exact fun hloop => absurd rfl hloop.2
  | selectTick =>
      apply hother _ rfl
      rw [step, selectTick]
      split
      · exact h.same rfl rfl (Or.inl rfl)
      · exact h
  | receive msg_id payload t2 t3 =>
      apply hother _ rfl
      rw [step]
      rcases receive_cases c s msg_id payload t2 t3 with heq | ⟨-, heq | ⟨resp, heq⟩⟩
      · rw [heq]
        exact h
      · rw [heq]
        exact h.same rfl rfl (Or.inl rfl)
      · rw [heq]
        exact h.same rfl rfl (Or.inl rfl)
  | readEnds =>
      apply hother _ rfl
      rw [step]
      rcases readEnds_cases s with heq | ⟨-, heq⟩
      · rw [heq]
        exact h
      · rw [heq]
        exact h.same rfl rfl (Or.inl rfl)
  | lock t =>
      apply hother _ rfl
      rw [step]
      rcases lock_cases s t with heq | ⟨-, ⟨-, -, heq⟩ | ⟨-, pkt, hpump, heq⟩ | ⟨-, tel, -, heq⟩ |
        ⟨-, resp, -, heq⟩⟩
      · rw [heq]
        exact h
      · rw [heq]
        exact h.same rfl rfl (Or.inl rfl)
      · -- the packet goes from the front of the queue to the writer
        have hloop : s.Looping := by simp [Looping, hpump]
        have hbefore := h hloop
        rw [heq]
        intro _
        rw [hbefore]
        simp [inSend, queued, hpump]
      · rw [heq]
        exact h.same rfl rfl (Or.inl rfl)
      · rw [heq]
        exact h.same rfl rfl (Or.inl rfl)
  | write n =>
      apply hother _ rfl
      rw [step]
      rcases write_cases s n with hsame | ⟨t, f, k, next, -, -, -, ⟨-, hpart⟩ | ⟨-, hall⟩⟩
      · rw [hsame]
        exact h
      · rw [hpart]
        exact h.same rfl rfl (Or.inl rfl)
      · rw [hall]
        exact h.same rfl rfl (Or.inl rfl)
  | writeFails =>
      apply hother _ rfl
      rw [step]
      rcases writeFails_cases c s with hsame | ⟨t, f, k, next, hwriter, hfailed⟩
      · rw [hsame]
        exact h
      · rw [hfailed]
        cases t with
        | run =>
            rw [sendFailed]
            split
            · exact h.same rfl rfl (Or.inl rfl)
            · exact h.same rfl rfl (Or.inl rfl)
        | framePump => exact h.same rfl rfl (Or.inr rfl)
        | telemetryPump => exact h.same rfl rfl (Or.inl rfl)
        | readLoop => exact h.same rfl rfl (Or.inl rfl)
  | cancel =>
      apply hother _ rfl
      rw [step, cancel]
      split
      · exact h.same rfl rfl (Or.inl rfl)
      · exact h
  | readLoopEnded =>
      apply hother _ rfl
      rw [step, readLoopEnded]
      split
      · exact h.same rfl rfl (Or.inl rfl)
      · exact h
  | finish =>
      apply hother _ rfl
      rw [step, finish]
      repeat' split
      · exact h.same rfl rfl (Or.inl rfl)
      · exact h.same rfl rfl (Or.inl rfl)
      · exact h
  | notify =>
      apply hother _ rfl
      rw [step, notify]
      split
      · refine h.keep rfl ?_
        cases hpump : s.frame_pump with
        | _ => simp [Looping, inSend, queued, Pump.notify, hpump]
      · exact h
  | joined timed_out =>
      apply hother _ rfl
      rw [step]
      rcases joined_cases s timed_out with heq | ⟨-, -, heq⟩ | ⟨-, -, heq⟩
      · rw [heq]
        exact h
      · rw [heq]
        exact h.same rfl rfl (Or.inl rfl)
      · rw [heq]
        exact h.same rfl rfl (Or.inl rfl)
  | engineStop =>
      apply hother _ rfl
      rw [step, engineStop]
      split
      · exact h.same rfl rfl (Or.inl rfl)
      · exact h

/-! ### The frames in front of a report -/

theorem tail_front {fs gs : List Frame} (h : fs <+: gs) : fs.tail <+: gs.tail := by
  obtain ⟨hs, rfl⟩ := h
  cases fs with
  | nil => exact List.nil_prefix
  | cons f fs => exact List.prefix_append fs hs

theorem dropLast_front {fs gs : List Frame} (h : fs <+: gs) : fs.dropLast <+: gs.dropLast := by
  obtain ⟨hs, rfl⟩ := h
  by_cases hnil : hs = []
  · rw [hnil, List.append_nil]
  · rw [List.dropLast_append_of_ne_nil hnil]
    exact (List.dropLast_prefix fs).trans (List.prefix_append fs _)

theorem video_front {fs gs : List Frame} (h : fs <+: gs) : (video fs).tail <+: (video gs).tail := by
  obtain ⟨hs, rfl⟩ := h
  apply tail_front
  rw [video_append]
  exact List.prefix_append _ _

/-- Each telemetry frame, and the frames in front of it. -/
def Each (P : List Frame → Frame → Prop) (fs : List Frame) : Prop :=
  ∀ pre f post, fs = pre ++ f :: post → f.msg_id = msgTelemetry → P pre f

theorem Each.front {P : List Frame → Frame → Prop} {fs gs : List Frame} (h : Each P gs) (hfront : fs <+: gs) :
    Each P fs := by
  obtain ⟨hs, rfl⟩ := hfront
  intro pre f post hfs hf
  apply h pre f (post ++ hs) _ hf
  rw [hfs, List.append_assoc]
  rfl

theorem Each.imp {P Q : List Frame → Frame → Prop} {fs : List Frame} (h : Each P fs)
    (himp : ∀ pre f, P pre f → Q pre f) : Each Q fs :=
  fun pre f post hfs hf => himp pre f (h pre f post hfs hf)

/-- The frames behind are no telemetry, or one that is told by the frames in front of it. -/
theorem Each.append {P : List Frame → Frame → Prop} {fs gs : List Frame} (h : Each P fs)
    (hgs : telemetries gs = [] ∨ ∃ f, gs = [f] ∧ P fs f) : Each P (fs ++ gs) := by
  intro pre f post hsplit hf
  rcases List.append_eq_append_iff.1 hsplit with ⟨between, rfl, hgs'⟩ | ⟨between, rfl, hpost⟩
  · -- among those behind
    rcases hgs with hnone | ⟨g, rfl, hg⟩
    · have hmem : f ∈ telemetries gs := by
        rw [telemetries, List.mem_filter, hgs']
        exact ⟨by simp, by simpa using hf⟩
      rw [hnone] at hmem
      cases hmem
    · cases between with
      | nil =>
          obtain ⟨rfl, -⟩ := List.cons.inj hgs'
          rw [List.append_nil]
          exact hg
      | cons x xs =>
          have hlength := congrArg List.length hgs'
          simp at hlength
  · cases between with
    | nil =>
        rcases hgs with hnone | ⟨g, rfl, hg⟩
        · have hmem : f ∈ telemetries gs := by
            rw [telemetries, List.mem_filter, ← List.nil_append gs, ← hpost]
            exact ⟨List.mem_cons_self, by simpa using hf⟩
          rw [hnone] at hmem
          cases hmem
        · obtain ⟨rfl, -⟩ := List.cons.inj hpost
          rw [List.append_nil] at hg
          exact hg
    | cons x xs =>
        obtain ⟨rfl, -⟩ := List.cons.inj hpost
        exact h pre f xs rfl hf

/-- The packets are all those of the frames in front of an earlier message but one. -/
def Covers (pkts : List EncodedPacket) : List Frame → Prop :=
  Each fun pre _ => (video pre).tail.dropLast <+: pkts.map pumpFrame

theorem Covers.more {pkts pkts' : List EncodedPacket} {fs : List Frame} (h : Covers pkts fs) (hpkts : pkts <+: pkts') :
    Covers pkts' fs :=
  Each.imp h fun _ _ hpre => hpre.trans (hpkts.map pumpFrame)

/-- What a message tells: the last encode costs of the packets, whose frames stand in front of it. -/
structure Report (pkts : List EncodedPacket) (tel : Telemetry) (pre : List Frame) (f : Frame) : Prop where
  frame : f = telemetryFrame tel
  ahead : pkts.map pumpFrame <+: (video pre).tail
  covers : Covers pkts pre
  summary : Stats.Summary ((encodeCosts pkts).rtake Stats.encodeRingCapacity) tel.encode_us_avg tel.encode_us_p99

/-- Each message reports on the frames in front of it. -/
def Reports : List Frame → Prop := Each fun pre f => ∃ pkts tel, Report pkts tel pre f

/-! ### A step of the reports -/

theorem Conveyed.began {counted : List EncodedPacket} (h : s.Conveyed counted) (hph : s.Phases c)
    (hflow : s.Flow c) (hvideo : s.Video) (hloop : s.Looping) :
    (video s.script).tail = (counted ++ s.inSend).map pumpFrame := by
  have hoff : c.screen_off = false := by
    cases hoff : c.screen_off with
    | false => rfl
    | true => exact absurd (hph.screen_off hoff).1 hloop.1
  have hframes := hvideo.live (Or.inr hloop)
  have htail := h hloop
  cases htaken : taken s.departed with
  | nil => exact absurd htaken (hflow.started (Or.inr hloop.1) hoff)
  | cons first rest =>
      rw [htaken] at hframes htail
      rw [List.tail_cons] at htail
      rw [videoFrames, htail, List.map_append] at hframes
      cases hscript : video s.script with
      | nil =>
          rw [hscript] at hframes
          have hlength := congrArg List.length hframes
          simp only [List.nil_append, List.length_cons, List.length_append, List.length_map] at hlength
          omega
      | cons f fs =>
          rw [hscript] at hframes
          exact List.append_cancel_right (List.cons.inj hframes).2

/-- A video frame that begins is that of the handshake, or of the pump in its loop. -/
theorem video_begins (c : SessionConfig) (s : Session) (e : Event) : video (begins c s e) = [] ∨
    (s.run = .awaitKeyframe ∧ (video (begins c s e)).tail = []) ∨ (step c s e).Looping := by
  cases e with
  | keyframe expired =>
      rw [begins]
      split
      case h_1 pkt hrun hpop =>
        split
        · exact Or.inr (Or.inl ⟨hrun, rfl⟩)
        · exact Or.inl rfl
      case h_2 => exact Or.inl rfl
  | lock t =>
      by_cases ht : t = .framePump
      · rw [ht, step]
        rcases lock_cases s .framePump with heq | ⟨-, ⟨hne, -⟩ | ⟨-, pkt, -, heq⟩ | ⟨hne, -⟩ | ⟨hne, -⟩⟩
        · left
          have hsame := congrArg script heq
          rw [lock_script (c := c), List.append_right_eq_self] at hsame
          rw [hsame]
          rfl
        · cases hne
        · rw [heq]
          exact Or.inr (Or.inr ⟨by simp, by simp⟩)
        · cases hne
        · cases hne
      · exact Or.inl (begins_lock_video c s ht)
  | _ => exact Or.inl rfl

/-- A telemetry frame that begins is the one the pump waits with. -/
theorem telemetry_begins (c : SessionConfig) (s : Session) (e : Event) : telemetries (begins c s e) = [] ∨
    ∃ tel, s.writer = none ∧ s.telemetry_pump = .locking tel ∧ begins c s e = [telemetryFrame tel] ∧
      (step c s e).telemetry_pump = .sending tel := by
  by_cases hlock : ∃ t, e = .lock t
  · obtain ⟨t, rfl⟩ := hlock
    by_cases ht : t = .telemetryPump
    · subst ht
      cases hwriter : s.writer with
      | some held =>
          left
          simp only [begins, hwriter, telemetries, List.filter_nil]
      | none =>
          cases hpump : s.telemetry_pump with
          | locking tel =>
              right
              refine ⟨tel, rfl, rfl, ?_, ?_⟩
              · simp only [begins, hwriter, hpump]
              · simp only [step, lock, hwriter, hpump]
          | _ =>
              left
              simp only [begins, hwriter, hpump, telemetries, List.filter_nil]
    · exact Or.inl (telemetries_begins_lock ht)
  · exact Or.inl (telemetries_begins fun t he => hlock ⟨t, he⟩)

/-- The pump waits with the sample of the step, or with the one it had. -/
theorem locking_before (hwf : s.Wf) (hph : s.Phases c) {e : Event} {tel : Telemetry}
    (h : (step c s e).telemetry_pump = .locking tel) :
    s.telemetry_pump = .locking tel ∨ e = .selectTick ∧ tel = s.sample := by
  by_cases htick : e = .selectTick
  · subst htick
    rw [step] at h
    rcases selectTick_cases s with heq | ⟨notified, -, heq⟩
    · rw [heq] at h
      exact Or.inl h
    · rw [heq] at h
      exact Or.inr ⟨rfl, (Pump.locking.inj h).symm⟩
  left
  by_cases hlock : ∃ t, e = .lock t
  · obtain ⟨t, rfl⟩ := hlock
    rw [step] at h
    rcases lock_cases s t with heq | ⟨-, ⟨-, -, heq⟩ | ⟨-, pkt, -, heq⟩ | ⟨-, tel', -, heq⟩ | ⟨-, resp, -, heq⟩⟩
    · rw [heq] at h
      exact h
    · rw [heq] at h
      exact h
    · rw [heq] at h
      exact h
    · rw [heq] at h
      cases h
    · rw [heq] at h
      exact h
  by_cases hpush : ∃ pkt, e = .push pkt
  · obtain ⟨pkt, rfl⟩ := hpush
    rw [step, push] at h
    split at h
    · exact h
    · exact h
  · exact ((step_quiet hwf hph (fun pkt he => hpush ⟨pkt, he⟩) htick fun t he => hlock ⟨t, he⟩).locking tel).1 h

/-- **The invariant.** -/
structure Reporting (c : SessionConfig) (s : Session) (counted : List EncodedPacket) : Prop where
  wf : s.Wf
  phases : s.Phases c
  flow : s.Flow c
  video : s.Video
  grammar : s.Grammar c
  conveyed : s.Conveyed counted
  early : s.run.rank < RunPhase.serving.rank → counted = []
  ring : s.stats.encode_us_ring = (encodeCosts counted).rtake Stats.encodeRingCapacity
  ahead : counted.map pumpFrame <+: (Penflow.video (s.wire.map (·.frame))).tail
  behind : (Penflow.video s.script).tail.dropLast <+: counted.map pumpFrame
  covers : Covers counted s.script
  waiting : ∀ tel, s.telemetry_pump = .locking tel → ∃ pkts, pkts <+: counted ∧ Covers pkts s.script ∧
    Stats.Summary ((encodeCosts pkts).rtake Stats.encodeRingCapacity) tel.encode_us_avg tel.encode_us_p99
  reports : Reports s.script

theorem start_reporting (c : SessionConfig) : (start c).Reporting c [] := by
  have hwf : (start c).Wf := start_wf
  have hnone : telemetries (start c).script = [] := by
    exact List.prefix_nil.1 start_sends.front
  have heach : ∀ P : List Frame → Frame → Prop, Each P (start c).script := by
    intro P
    have hnil : Each P [] := by
      intro pre f post hsplit
      cases pre with
      | nil => cases hsplit
      | cons x pre => cases hsplit
    exact Each.append hnil (Or.inl hnone)
  have hvideo : (Penflow.video (start c).script).tail = [] := by
    cases hoff : c.screen_off with
    | true =>
        rw [script, start, hoff]
        rfl
    | false =>
        rw [script, start, hoff]
        rfl
  exact {
    wf := hwf
    phases := start_phases
    flow := start_flow
    video := start_video
    grammar := start_grammar
    conveyed := Conveyed.of_unspawned rfl
    early := fun _ => rfl
    ring := rfl
    ahead := List.nil_prefix
    behind := by
      rw [hvideo]
      exact List.nil_prefix
    covers := heach _
    waiting := by
      intro tel hpump
      cases hpump
    reports := heach _ }

section Step

variable {counted : List EncodedPacket}

/-- The frames counted are on the wire. -/
theorem Reporting.step_ahead (h : s.Reporting c counted) (e : Event) :
    (counted ++ s.counts e).map pumpFrame <+: (Penflow.video ((step c s e).wire.map (·.frame))).tail := by
  have hkept := video_front (step_wire_kept (c := c) h.wf e)
  rcases counts_cases s e with hnone | ⟨pkt, hcounts, -, hwriter, hpump⟩
  · rw [hnone, List.append_nil]
    exact h.ahead.trans hkept
  · -- the frame that is flushed is the last one begun
    have hscript : s.script = s.wire.map (·.frame) := by
      rw [script_of_some hwriter]
      exact List.append_nil _
    have hbegan := h.conveyed.began h.phases h.flow h.video ⟨by rw [hpump]; simp, by rw [hpump]; simp⟩
    have hsend : s.inSend = [pkt] := by
      rw [inSend, hpump]
    rw [hscript, hsend] at hbegan
    rw [hcounts, ← hbegan]
    exact hkept

/-- All the frames begun but one are counted. -/
theorem Reporting.step_behind (h : s.Reporting c counted) (e : Event)
    (hconveyed : (step c s e).Conveyed (counted ++ s.counts e)) :
    (Penflow.video (step c s e).script).tail.dropLast <+: (counted ++ s.counts e).map pumpFrame := by
  by_cases hloop : (step c s e).Looping
  · have hwf' := step_wf (c := c) h.wf e
    have hphases' := step_phases h.wf h.phases e
    have hflow' := step_flow h.wf h.phases h.flow e
    have hvideo' := step_video h.wf h.phases h.flow h.video e
    rw [hconveyed.began hphases' hflow' hvideo' hloop, inSend]
    split
    · rw [List.map_append, List.map_singleton, List.dropLast_concat]
    · rw [List.append_nil]
      exact List.dropLast_prefix _
  · have hfront : (step c s e).script <+: s.script ++ begins c s e := by
      rcases script_step h.wf h.phases e with hscript | hcut
      · rw [hscript]
      · exact hcut.front.trans (List.prefix_append _ _)
    have hvideo := dropLast_front (video_front hfront)
    rw [video_append] at hvideo
    rcases video_begins c s e with hnone | ⟨hawait, htail⟩ | hloop'
    · rw [hnone, List.append_nil] at hvideo
      rw [List.map_append]
      exact (hvideo.trans h.behind).trans (List.prefix_append _ _)
    · have hnil : Penflow.video s.script = [] := by
        rw [h.grammar.awaiting hawait]
        rfl
      rw [hnil, List.nil_append, htail] at hvideo
      exact hvideo.trans List.nil_prefix
    · exact absurd hloop' hloop

/-- The sample that waits stays as good as it was. -/
theorem Reporting.step_waiting (h : s.Reporting c counted) (e : Event) {tel : Telemetry}
    (hpump : (step c s e).telemetry_pump = .locking tel) : ∃ pkts, pkts <+: counted ++ s.counts e ∧
      Covers pkts (step c s e).script ∧
        Stats.Summary ((encodeCosts pkts).rtake Stats.encodeRingCapacity) tel.encode_us_avg tel.encode_us_p99 := by
  rcases locking_before h.wf h.phases hpump with hbefore | ⟨rfl, rfl⟩
  · obtain ⟨pkts, hpkts, hcovers, hsummary⟩ := h.waiting tel hbefore
    refine ⟨pkts, hpkts.trans (List.prefix_append _ _), ?_, hsummary⟩
    rcases script_step h.wf h.phases e with hscript | hcut
    · rw [hscript]
      apply Each.append hcovers
      rcases telemetry_begins c s e with hnone | ⟨tel', -, -, -, hsending⟩
      · exact Or.inl hnone
      · rw [hsending] at hpump
        cases hpump
    · exact Each.front hcovers hcut.front
  · refine ⟨counted, List.prefix_append _ _, ?_, ?_⟩
    · have hscript : (step c s .selectTick).script = s.script := selectTick_sameRun.script
      rw [hscript]
      exact h.covers
    · rw [← h.ring]
      exact Stats.encodeUsSummary_summary s.stats

/-- A message that begins is a report on what is on the wire. -/
theorem Reporting.report (h : s.Reporting c counted) {tel : Telemetry} (hwriter : s.writer = none)
    (hpump : s.telemetry_pump = .locking tel) : ∃ pkts, Report pkts tel s.script (telemetryFrame tel) := by
  obtain ⟨pkts, hpkts, hcovers, hsummary⟩ := h.waiting tel hpump
  refine ⟨pkts, rfl, ?_, hcovers, hsummary⟩
  rw [script_of_none hwriter]
  exact (hpkts.map pumpFrame).trans h.ahead

/-- **A step of the reports.** -/
theorem step_reporting (h : s.Reporting c counted) (e : Event) :
    (step c s e).Reporting c (counted ++ s.counts e) := by
  have hconveyed : (step c s e).Conveyed (counted ++ s.counts e) := by
    apply step_conveyed h.wf h.phases h.flow h.video h.grammar h.conveyed
    intro hgreet
    apply h.early
    rw [hgreet]
    decide
  have hmore : counted <+: counted ++ s.counts e := List.prefix_append _ _
  exact {
    wf := step_wf h.wf e
    phases := step_phases h.wf h.phases e
    flow := step_flow h.wf h.phases h.flow e
    video := step_video h.wf h.phases h.flow h.video e
    grammar := step_grammar h.wf h.phases h.flow h.grammar e
    conveyed := hconveyed
    early := by
      intro hrank
      have hbefore := Nat.lt_of_le_of_lt (step_rank (c := c) h.wf e) hrank
      rcases counts_cases s e with hnone | ⟨pkt, -, -, -, hpump⟩
      · rw [hnone, List.append_nil]
        exact h.early hbefore
      · -- before the tasks are spawned there is no pump
        have hunspawned : s.frame_pump = .unspawned := by
          apply (h.phases.unspawned _).1
          rcases s.run.early_or_serving with hrun | hrun | hrun | hserving
          · exact Or.inl hrun
          · exact Or.inr (Or.inl hrun)
          · exact Or.inr (Or.inr hrun)
          · omega
        rw [hpump] at hunspawned
        cases hunspawned
    ring := by
      have hall := Recent.foldl_pushBounded (by decide : 0 < Stats.encodeRingCapacity)
        (encodeCosts (counted ++ s.counts e))
      rw [encodeCosts_append, List.foldl_append,
        Recent.foldl_pushBounded (by decide : 0 < Stats.encodeRingCapacity), ← h.ring] at hall
      rw [step_ring, hall, encodeCosts_append]
    ahead := h.step_ahead e
    behind := h.step_behind e hconveyed
    covers := by
      rcases script_step h.wf h.phases e with hscript | hcut
      · rw [hscript]
        apply Covers.more _ hmore
        apply Each.append h.covers
        rcases telemetry_begins c s e with hnone | ⟨tel, hwriter, hpump, hbegins, -⟩
        · exact Or.inl hnone
        · exact Or.inr ⟨_, hbegins, h.behind⟩
      · exact Covers.more (Each.front h.covers hcut.front) hmore
    waiting := fun tel hpump => h.step_waiting e hpump
    reports := by
      rcases script_step h.wf h.phases e with hscript | hcut
      · rw [hscript]
        apply Each.append h.reports
        rcases telemetry_begins c s e with hnone | ⟨tel, hwriter, hpump, hbegins, -⟩
        · exact Or.inl hnone
        · obtain ⟨pkts, hreport⟩ := h.report hwriter hpump
          exact Or.inr ⟨_, hbegins, pkts, tel, hreport⟩
      · exact Each.front h.reports hcut.front }

end Step

theorem after_reporting (c : SessionConfig) (es : List Event) : ∃ counted, (after c es).Reporting c counted := by
  induction es using List.reverseRecOn with
  | nil => exact ⟨[], start_reporting c⟩
  | append_singleton es e ih =>
      obtain ⟨counted, h⟩ := ih
      refine ⟨counted ++ (after c es).counts e, ?_⟩
      rw [after, List.foldl_concat]
      exact step_reporting h e

/-- **What the reports tell.**  In every run, each `TELEMETRY` message on the wire carries the mean and the
99th percentile of the last encode costs of frames that stand in front of it, and all the frames in front of an
earlier message but one are among those. -/
theorem telemetry_reports (c : SessionConfig) (es : List Event) : Reports ((after c es).wire.map (·.frame)) := by
  obtain ⟨counted, h⟩ := after_reporting c es
  exact Each.front h.reports (List.prefix_append _ _)

/-- A frame that took 700 µs is sent, and then the sample. -/
example : telemetries ((after (.fullHd false 1) [.push (.idr 0), .popTurn false, .keyframe false, .write 16,
    .write 9, .write 10, .write 24, .flush true, .push { EncodedPacket.delta 1 with encode_us := some 700 },
    .enterSelect .framePump, .enterSelect .telemetryPump, .popTurn false, .selectPop, .lock .framePump, .write 27,
    .flush true, .selectTick, .lock .telemetryPump, .write 26, .flush true]).wire.map (·.frame)) =
      [telemetryFrame ⟨1, 0, 0, 700, 700, 0⟩] := by
  decide +kernel

end Session

end Penflow
