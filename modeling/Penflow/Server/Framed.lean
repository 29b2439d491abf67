import Penflow.Server.Script

/-!
# The server's byte stream stays framed

The bytes on the wire are those of the frames begun, in order, and of all frames but the last they are all
there: as long as the read loop is not dropped while its frame is out in part.  An abort of the read loop,
and the screen-off `select!`, drop it wherever it is; then the writer is free, and the goodbye goes behind
the piece of a frame.
-/

namespace Penflow

/-- The frame is out. -/
def Sent.Whole (x : Sent) : Prop := x.written = x.frame.encode.length

/-- All bytes of the frame are out. -/
def Sent.Complete (x : Sent) : Prop := x.bytes = x.frame.encode

theorem Sent.Whole.complete {x : Sent} (h : x.Whole) : x.Complete := by
  rw [Complete, bytes, h, List.take_length]

theorem Sent.complete_iff {x : Sent} : x.Complete ↔ x.frame.encode.length ≤ x.written := by
  rw [Complete, bytes, List.take_eq_self_iff]

namespace Session

variable {c : SessionConfig} {s : Session}

/-- The bytes the client is sent. -/
def wireBytes (s : Session) : List UInt8 := s.wire.flatMap Sent.bytes

/-- The bytes are those of the frames begun, of which at most the last is truncated. -/
def Framed (s : Session) : Prop :=
  ∃ whole last n, s.wire.map (·.frame) = whole ++ last ∧ last.length ≤ 1 ∧
    s.wireBytes = whole.flatMap Frame.encode ++ (last.flatMap Frame.encode).take n

/-- The step drops the read loop while its frame is out in part. -/
def CutsFrame (c : SessionConfig) (s : Session) (e : Event) : Prop :=
  (e = .cancel ∧ s.aborted = true ∨ e = .finish ∧ s.run = .serving ∧ c.screen_off = true) ∧
    ∃ f n next, s.writer = some (.readLoop, .frame f (n + 1) next)

instance (c : SessionConfig) (s : Session) (e : Event) : Decidable (CutsFrame c s e) :=
  have : Decidable (∃ f n next, s.writer = some (.readLoop, .frame f (n + 1) next)) :=
    match h : s.writer with
    | some (.readLoop, .frame f (n + 1) next) => .isTrue ⟨f, n, next, rfl⟩
    | some (.readLoop, .frame f 0 next) => .isFalse (by simp)
    | some (.readLoop, .flush) => .isFalse (by simp)
    | some (.run, w) => .isFalse (by simp)
    | some (.framePump, w) => .isFalse (by simp)
    | some (.telemetryPump, w) => .isFalse (by simp)
    | none => .isFalse (by simp)
  inferInstanceAs (Decidable (_ ∧ _))

/-! ### What may be truncated -/

/-- Nothing more comes behind the frame at the end of the wire, or not before the rest of it. -/
def InFlight (s : Session) : Prop :=
  s.broken = true ∨ s.run = .failed ∨ ∃ t f n next, s.writer = some (t, .frame f (n + 1) next)

/-- Every frame on the wire is out, but the last one while it is in flight. -/
structure Tidy (s : Session) : Prop where
  whole : ∀ x ∈ s.wire.dropLast, Sent.Whole x
  last : ∀ x ∈ s.wire.getLast?, Sent.Whole x ∨ s.InFlight

/-- Only a write changes the wire. -/
theorem step_wire (s : Session) (e : Event) (he : ∀ n, e ≠ .write n) : (step c s e).wire = s.wire := by
  by_cases haside : e.aside = true
  · exact (step_sameRun haside).wire
  cases e with
  | keyframe expired =>
      show (waitForKeyframe c s expired).wire = s.wire
      rcases waitForKeyframe_cases c s expired with heq | ⟨-, heq | heq | ⟨pkt, -, -, -, heq⟩⟩
      · rw [heq]
      · rw [heq]
        rfl
      · rw [heq]
      · rw [heq]
  | lock t =>
      show (s.lock t).wire = s.wire
      rcases lock_cases s t with heq | ⟨-, ⟨-, -, heq⟩ | ⟨-, pkt, -, heq⟩ | ⟨-, tel, -, heq⟩ |
        ⟨-, resp, -, heq⟩⟩
      all_goals
        rw [heq]
  | write n => exact absurd rfl (he n)
  | writeFails =>
      show (writeFails c s).wire = s.wire
      unfold writeFails sendFailed failRun
      repeat' split
      all_goals first
        | rfl
        | contradiction
  | flush ok =>
      show (flush c s ok).wire = s.wire
      unfold flush sendFailed sent spawn failRun
      repeat' split
      all_goals rfl
  | cancel =>
      show s.cancel.wire = s.wire
      unfold cancel
      split <;> rfl
  | readLoopEnded => exact readLoopEnded_sameWriter.wire
  | finish =>
      show (finish c s).wire = s.wire
      unfold finish
      repeat' split
      all_goals rfl
  | notify => exact notify_sameWriter.wire
  | joined timed_out => exact (joined_sameWriter timed_out).wire
  | engineStop => exact engineStop_sameWriter.wire
  | _ => exact absurd rfl haside

/-! ### A step that is no write -/

theorem SameRun.inFlight {s' : Session} (hsame : s.SameRun s') (h : s.InFlight) : s'.InFlight := by
  rcases h with hbroken | hfailed | ⟨t, f, n, next, hwriter⟩
  · exact .inl (hsame.broken.trans hbroken)
  · exact .inr (.inl (hsame.same_run.trans hfailed))
  · exact .inr (.inr ⟨t, f, n, next, hsame.writer.trans hwriter⟩)

/-- The same where the run leaves a phase in which it had not failed. -/
theorem SameWriter.inFlight {s' : Session} (hsame : s.SameWriter s')
    (hrun : s.run = .failed → s'.run = .failed) (h : s.InFlight) : s'.InFlight := by
  rcases h with hbroken | hfailed | ⟨t, f, n, next, hwriter⟩
  · exact .inl (hsame.broken.trans hbroken)
  · exact .inr (.inl (hrun hfailed))
  · exact .inr (.inr ⟨t, f, n, next, hsame.writer.trans hwriter⟩)

theorem waitForKeyframe_inFlight (hph : s.Phases c) (expired : Bool) (h : s.InFlight) :
    (waitForKeyframe c s expired).InFlight := by
  by_cases hrun : s.run = .awaitKeyframe
  · -- nothing has been written yet
    obtain ⟨hwriter, -, hbroken⟩ := hph.waiting hrun
    rcases h with hbroken' | hfailed | ⟨t, f, n, next, hwriter'⟩
    · rw [hbroken] at hbroken'
      cases hbroken'
    · rw [hrun] at hfailed
      cases hfailed
    · rw [hwriter] at hwriter'
      cases hwriter'
  · have hsame : waitForKeyframe c s expired = s := by
      rcases waitForKeyframe_cases c s expired with heq | ⟨hrun', -⟩
      · exact heq
      · exact absurd hrun' hrun
    rw [hsame]
    exact h

theorem lock_inFlight (hph : s.Phases c) (t : Task) (h : s.InFlight) : (s.lock t).InFlight := by
  rcases h with hbroken | hfailed | ⟨t', f, n, next, hwriter⟩
  · left
    rcases lock_cases s t with heq | ⟨-, ⟨-, -, heq⟩ | ⟨-, pkt, -, heq⟩ | ⟨-, tel, -, heq⟩ |
      ⟨-, resp, -, heq⟩⟩
    all_goals
      rw [heq]
      exact hbroken
  · -- no task is there to take the writer
    obtain ⟨hframe, htelemetry, hread, -⟩ := hph.unspawned (.inr (.inr hfailed))
    refine .inr (.inl ?_)
    rcases lock_cases s t with heq | ⟨-, ⟨-, hrun, heq⟩ | ⟨-, pkt, hpump, heq⟩ | ⟨-, tel, hpump, heq⟩ |
      ⟨-, resp, hloop, heq⟩⟩
    · rw [heq]
      exact hfailed
    · rw [hfailed] at hrun
      cases hrun
    · rw [hframe] at hpump
      cases hpump
    · rw [htelemetry] at hpump
      cases hpump
    · rw [hread] at hloop
      cases hloop
  · refine .inr (.inr ⟨t', f, n, next, ?_⟩)
    simp [lock, hwriter]

theorem writeFails_inFlight (h : s.InFlight) : (writeFails c s).InFlight := by
  unfold writeFails
  split
  case h_1 t f n next hwriter =>
    left
    unfold sendFailed
    repeat' split
    all_goals first
      | rfl
      | contradiction
  case h_2 => exact h

theorem flush_inFlight (hph : s.Phases c) (ok : Bool) (h : s.InFlight) : (flush c s ok).InFlight := by
  rcases h with hbroken | hfailed | ⟨t, f, n, next, hwriter⟩
  · left
    unfold flush sendFailed sent
    repeat' split
    all_goals exact hbroken
  · refine .inr (.inl ?_)
    rw [flush, hph.failed hfailed]
    exact hfailed
  · refine .inr (.inr ⟨t, f, n, next, ?_⟩)
    simp [flush, hwriter]

theorem dropReadLoop_inFlight (h : s.InFlight)
    (hcut : ¬ ∃ f n next, s.writer = some (.readLoop, .frame f (n + 1) next)) :
    s.dropReadLoop.InFlight := by
  rcases h with hbroken | hfailed | ⟨t, f, n, next, hwriter⟩
  · exact .inl hbroken
  · exact .inr (.inl hfailed)
  · refine .inr (.inr ⟨t, f, n, next, ?_⟩)
    rw [dropReadLoop, hwriter]
    cases t with
    | readLoop => exact absurd ⟨f, n, next, hwriter⟩ hcut
    | run => rfl
    | framePump => rfl
    | telemetryPump => rfl

theorem finish_inFlight (h : s.InFlight) (hcut : ¬ CutsFrame c s .finish) :
    (finish c s).InFlight := by
  unfold finish
  split
  case isTrue hrun =>
    split
    case isTrue hoff =>
      have hdrop := dropReadLoop_inFlight h fun hpart => hcut ⟨.inr ⟨rfl, hrun, hoff⟩, hpart⟩
      rcases hdrop with hbroken | hfailed | hwriter
      · exact .inl hbroken
      · rw [show s.dropReadLoop.run = s.run from rfl, hrun] at hfailed
        cases hfailed
      · exact .inr (.inr hwriter)
    case isFalse =>
      rcases h with hbroken | hfailed | hwriter
      · exact .inl hbroken
      · rw [hrun] at hfailed
        cases hfailed
      · exact .inr (.inr hwriter)
  case isFalse => exact h

theorem step_inFlight (hph : s.Phases c) (e : Event) (he : ∀ n, e ≠ .write n)
    (hcut : ¬ CutsFrame c s e) (h : s.InFlight) : (step c s e).InFlight := by
  by_cases haside : e.aside = true
  · exact (step_sameRun haside).inFlight h
  cases e with
  | keyframe expired => exact waitForKeyframe_inFlight hph expired h
  | lock t => exact lock_inFlight hph t h
  | write n => exact absurd rfl (he n)
  | writeFails => exact writeFails_inFlight h
  | flush ok => exact flush_inFlight hph ok h
  | cancel =>
      show s.cancel.InFlight
      unfold cancel
      split
      case isTrue haborted =>
        exact dropReadLoop_inFlight h fun hpart => hcut ⟨.inl ⟨rfl, haborted⟩, hpart⟩
      case isFalse => exact h
  | readLoopEnded =>
      refine readLoopEnded_sameWriter.inFlight (fun hfailed => ?_) h
      simp [readLoopEnded, hfailed]
  | finish => exact finish_inFlight h hcut
  | notify =>
      refine notify_sameWriter.inFlight (fun hfailed => ?_) h
      simp [notify, hfailed]
  | joined timed_out =>
      refine (joined_sameWriter timed_out).inFlight (fun hfailed => ?_) h
      simp [joined, hfailed]
  | engineStop =>
      refine engineStop_sameWriter.inFlight (fun hfailed => ?_) h
      simp [engineStop, hfailed]
  | _ => exact absurd rfl haside

/-! ### The run -/

theorem start_tidy : (start c).Tidy := by
  refine ⟨fun x hx => ?_, fun x hx => ?_⟩
  · cases hx
  · cases hx

/-- The frames before the one that is written are out. -/
theorem write_tidy (hwf : s.Wf) (hph : s.Phases c) (h : s.Tidy) (n : ℕ) : (s.write n).Tidy := by
  rcases write_cases s n with hsame | ⟨t, f, k, next, hwriter, hbroken, hpos, hpart⟩
  · rw [hsame]
    exact h
  · obtain ⟨pre, hput, hwire⟩ := put_eq hwf hwriter hbroken n
    have hpre : ∀ x ∈ pre, Sent.Whole x := by
      cases k with
      | succ k =>
          have hdrop : s.wire.dropLast = pre := by
            rw [hwire]
            exact List.dropLast_concat
          rw [← hdrop]
          exact h.whole
      | zero =>
          -- the frame before is not in flight, since the holder begins
          have hflight : ¬ s.InFlight := by
            rintro (hbroken' | hfailed | ⟨t', f', n', next', hwriter'⟩)
            · rw [hbroken] at hbroken'
              cases hbroken'
            · rw [hph.failed hfailed] at hwriter
              cases hwriter
            · rw [hwriter] at hwriter'
              cases hwriter'
          have hall : s.wire = pre := by
            rw [hwire]
            exact List.append_nil pre
          intro x hx
          rw [← hall] at hx
          obtain hne : s.wire ≠ [] := List.ne_nil_of_mem hx
          rw [← List.dropLast_append_getLast hne] at hx
          rcases List.mem_append.1 hx with hx | hx
          · exact h.whole x hx
          · have hlast : x ∈ s.wire.getLast? := by
              rw [List.mem_singleton.1 hx]
              exact List.getLast?_eq_getLast_of_ne_nil hne
            exact (h.last x hlast).resolve_right hflight
    have hwired : (s.write n).wire = pre ++ [⟨f, k + n⟩] := by
      rcases hpart with ⟨-, heq⟩ | ⟨-, heq⟩
      · rw [heq]
        exact hput
      · rw [heq]
        exact hput
    refine ⟨fun x hx => ?_, fun x hx => ?_⟩
    · rw [hwired, List.dropLast_concat] at hx
      exact hpre x hx
    · rw [hwired, List.getLast?_concat] at hx
      obtain rfl := Option.some.inj hx
      rcases hpart with ⟨hlt, heq⟩ | ⟨hall, heq⟩
      · refine .inr (.inr (.inr ⟨t, f, k + n - 1, next, ?_⟩))
        rw [heq, Nat.sub_add_cancel (by omega)]
      · exact .inl hall

theorem step_tidy (hwf : s.Wf) (hph : s.Phases c) (h : s.Tidy) (e : Event)
    (hcut : ¬ CutsFrame c s e) : (step c s e).Tidy := by
  by_cases he : ∃ n, e = .write n
  · obtain ⟨n, rfl⟩ := he
    exact write_tidy hwf hph h n
  · have he' : ∀ n, e ≠ .write n := fun n hn => he ⟨n, hn⟩
    refine ⟨fun x hx => ?_, fun x hx => ?_⟩
    · rw [step_wire s e he'] at hx
      exact h.whole x hx
    · rw [step_wire s e he'] at hx
      exact (h.last x hx).imp_right (step_inFlight hph e he' hcut)

theorem flatMap_bytes_of_whole {xs : List Sent} (h : ∀ x ∈ xs, Sent.Whole x) :
    xs.flatMap Sent.bytes = (xs.map (·.frame)).flatMap Frame.encode := by
  rw [List.flatMap_map]
  refine List.flatMap_congr fun x hx => ?_
  rw [Sent.bytes, h x hx, List.take_length]

theorem Tidy.framed (h : s.Tidy) : s.Framed := by
  by_cases hne : s.wire = []
  · refine ⟨[], [], 0, ?_, Nat.zero_le 1, ?_⟩
    · rw [hne]
      rfl
    · rw [wireBytes, hne]
      rfl
  · obtain ⟨pre, x, hwire⟩ : ∃ pre x, s.wire = pre ++ [x] :=
      ⟨_, _, (List.dropLast_append_getLast hne).symm⟩
    have hpre : ∀ y ∈ pre, Sent.Whole y := by
      have hwhole := h.whole
      rw [hwire, List.dropLast_concat] at hwhole
      exact hwhole
    refine ⟨pre.map (·.frame), [x.frame], x.written, ?_, le_refl 1, ?_⟩
    · rw [hwire, List.map_append]
      rfl
    · rw [wireBytes, hwire, List.flatMap_append, flatMap_bytes_of_whole hpre]
      simp [Sent.bytes]

/-- **The stream stays framed** in every run that drops no read loop in the middle of its frame. -/
theorem framed_of_uncut {es : List Event}
    (h : Run.Steps (step c) (fun s e => ¬ CutsFrame c s e) (start c) es) : (after c es).Framed := by
  have hinv : ∀ (s : Session) (e : Event), (s.Wf ∧ s.Phases c ∧ s.Tidy) → ¬ CutsFrame c s e →
      ((step c s e).Wf ∧ (step c s e).Phases c ∧ (step c s e).Tidy) := by
    rintro s e ⟨hwf, hph, htidy⟩ hcut
    exact ⟨step_wf hwf e, step_phases hwf hph e, step_tidy hwf hph htidy e hcut⟩
  exact (Run.Steps.invariant hinv ⟨start_wf, start_phases, start_tidy⟩ h).2.2.framed

/-- A whole reply, and a goodbye that breaks off. -/
theorem framed_of_uncut_goodbye :
    (after (.fullHd true 4) [.write 16, .write 9, .flush true,
      .receive msgTimeSyncReq [0, 0, 0, 0, 0, 0, 0, 1] 2 3, .lock .readLoop, .write 29, .finish,
      .lock .run, .write 3, .writeFails]).Framed :=
  framed_of_uncut (by decide +kernel)

theorem Framed.length_le (h : s.Framed) :
    ((s.wire.map (·.frame)).dropLast.flatMap Frame.encode).length ≤ s.wireBytes.length := by
  obtain ⟨whole, last, n, hframes, hlast, hbytes⟩ := h
  have hpre : (s.wire.map (·.frame)).dropLast <+: whole := by
    rw [hframes]
    cases last with
    | nil =>
        rw [List.append_nil]
        exact List.dropLast_prefix whole
    | cons f last =>
        obtain rfl : last = [] := List.eq_nil_of_length_eq_zero (Nat.le_zero.1 (Nat.le_of_succ_le_succ hlast))
        rw [List.dropLast_concat]
  obtain ⟨rest, hwhole⟩ := hpre
  rw [hbytes, ← hwhole, List.flatMap_append, List.length_append, List.length_append]
  omega

/-- The reply is cut off after 16 of its 29 bytes, and the goodbye goes behind them. -/
theorem goodbye_not_framed : ¬ ∀ (c : SessionConfig) (es : List Event), (after c es).Framed := by
  intro h
  have hle := (h (.fullHd true 4) [.write 16, .write 9, .flush true,
    .receive msgTimeSyncReq [0, 0, 0, 0, 0, 0, 0, 1] 2 3, .lock .readLoop, .write 16, .finish,
    .lock .run, .write 5, .flush true]).length_le
  revert hle
  decide +kernel

/-! ### What stays on the wire -/

/-- A frame that is out is not touched again. -/
theorem step_complete (hwf : s.Wf) (e : Event) {got : List Sent} (hgot : got <+: s.wire)
    (hcomplete : ∀ x ∈ got, x.Complete) : got <+: (step c s e).wire := by
  by_cases hwrite : ∃ n, e = .write n
  · obtain ⟨n, rfl⟩ := hwrite
    rw [step]
    rcases write_wire hwf n with hsame | ⟨t, f, k, next, pre, hwriter, hwire, hwritten⟩
    · rw [hsame]
      exact hgot
    · have hshort := hwf.short t f k next hwriter
      have hpre : got <+: pre := by
        cases k with
        | zero =>
            rw [hwire] at hgot
            simpa using hgot
        | succ k =>
            rw [hwire, if_neg (Nat.succ_ne_zero k), List.prefix_concat_iff] at hgot
            refine hgot.resolve_left fun hall => ?_
            have hlast := hcomplete ⟨f, k + 1⟩ (by rw [hall]; exact List.mem_concat_self)
            rw [Sent.complete_iff] at hlast
            simp only at hlast
            omega
      rw [hwritten]
      exact hpre.trans (List.prefix_append _ _)
  · rw [step_wire s e fun n hn => hwrite ⟨n, hn⟩]
    exact hgot

/-- The bytes on the wire stay there. -/
theorem step_wireBytes (hwf : s.Wf) (e : Event) : s.wireBytes <+: (step c s e).wireBytes := by
  by_cases hwrite : ∃ n, e = .write n
  · obtain ⟨n, rfl⟩ := hwrite
    rw [step]
    rcases write_wire hwf n with hsame | ⟨t, f, k, next, pre, -, hwire, hwritten⟩
    · rw [wireBytes, wireBytes, hsame]
    · rw [wireBytes, wireBytes, hwritten, hwire, List.flatMap_append, List.flatMap_append]
      refine (List.prefix_append_right_inj _).2 ?_
      cases k with
      | zero => exact List.nil_prefix
      | succ k =>
          rw [if_neg (Nat.succ_ne_zero k), List.flatMap_singleton, List.flatMap_singleton]
          show f.encode.take (k + 1) <+: f.encode.take (k + 1 + n)
          exact List.take_prefix_take_left (by omega)
  · rw [wireBytes, wireBytes, step_wire s e fun n hn => hwrite ⟨n, hn⟩]

/-- Behind a frame that is not out nothing stands. -/
theorem Tidy.last_of_incomplete (h : s.Tidy) {got rest : List Sent} {x : Sent}
    (hwire : s.wire = got ++ x :: rest) (hx : ¬ x.Complete) : rest = [] := by
  cases rest with
  | nil => rfl
  | cons y rest =>
      refine absurd (h.whole x ?_).complete hx
      rw [hwire, List.dropLast_append_of_ne_nil (List.cons_ne_nil _ _)]
      exact List.mem_append_right got List.mem_cons_self

end Session

end Penflow
