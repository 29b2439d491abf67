import Mathlib.Data.Finset.Insert
import Mathlib.Data.Fintype.Defs
import Penflow.Client.SendLoops
import Penflow.Lib.Run
import Penflow.Lib.Turns

/-!
# The client's byte stream stays framed

As long as the goodbye of `disconnect` meets no frame that is out in part, and no frame the goodbye, the bytes
on the socket are whole frames, those of each caller in the order in which it was given them, and at the end
of the socket at most a part of one more: the callers take turns on the stream.
-/

namespace Penflow.Client

namespace PenflowClient

/-- What a caller was given to send. -/
def given (s : PenflowClient) : Caller → List Frame
  | .handshake => [s.caps.frame]
  | .timeSync => s.syncs.map timeSyncFrame
  | .pen => s.pens.map PenSample.frame
  | .touch => s.touches.map touchFrame
  | .disconnect => .replicate s.goodbyes goodbyeFrame

/-- The bytes are those of whole frames, of which at most the last is truncated, by the end of the socket or
while it is being sent; the frames of each caller are in the order of what it was given. -/
def Framed (s : PenflowClient) : Prop :=
  ∃ (whole last : List (Caller × Frame)) (n : ℕ), last.length ≤ 1 ∧
    s.wire = whole.flatMap (fun x => x.2.encode) ++ (last.flatMap fun x => x.2.encode).take n ∧
    (∀ w, (Turns.ofWriter w (whole ++ last)).Sublist (s.given w)) ∧
    (s.socketOpen = true → ∀ x ∈ last, (s.calls x.1).part = some (x.2, n))

end PenflowClient

/-- The caller that puts bytes on the socket. -/
def SendEvent.writer : SendEvent → Option Caller
  | write w | writeFails w _ => some w
  | _ => none

/-- The goodbye and a frame of another caller meet: one is out in part, and of the other bytes come. -/
def PenflowClient.Meets (s : PenflowClient) (e : SendEvent) : Prop :=
  s.socketOpen = true ∧ ∃ w v, e.writer = some w ∧ (s.calls w).next ≠ [] ∧ v ≠ w ∧
    (w = .disconnect ∨ v = .disconnect) ∧ (s.calls v).part ≠ none

instance : Fintype Caller where
  elems := {.handshake, .timeSync, .pen, .touch, .disconnect}
  complete w := by cases w <;> decide

instance (s : PenflowClient) (e : SendEvent) : Decidable (s.Meets e) := inferInstanceAs (Decidable (_ ∧ _))

namespace PenflowClient

variable {caps : DeviceCaps} {s : PenflowClient}

/-! ### The frames on the socket -/

/-- The frame that is to be sent, no byte of which is out. -/
def unbegun : Send → List Frame
  | .idle => []
  | .waiting f => [f]
  | .writing f 0 => [f]
  | .writing _ (_ + 1) => []

def queue (s : PenflowClient) : Caller → List Frame
  | .pen => s.penChannel.map PenSample.frame
  | .touch => s.touchChannel.map touchFrame
  | _ => []

/-- What a caller still has to send, but for the frame of which a part is out. -/
def coming (s : PenflowClient) (w : Caller) : List Frame := unbegun (s.calls w) ++ s.queue w

/-- The bytes are those of a stream on which the callers have taken turns. -/
structure Follows (s : PenflowClient) (t : Turns Caller Frame) : Prop where
  wire : s.wire = t.stream Frame.encode
  current : s.socketOpen = true → ∀ w p, (s.calls w).part = some p ↔ t.current = some (w, p)
  order : ∀ w, (Turns.ofWriter w t.begun ++ s.coming w).Sublist (s.given w)

theorem Follows.framed {t : Turns Caller Frame} (h : s.Follows t) : s.Framed := by
  refine ⟨t.whole, t.last, t.out, t.last_length, h.wire, fun w => ?_, fun hopen x hx => ?_⟩
  · exact (List.sublist_append_left _ _).trans (h.order w)
  · rw [h.current hopen]
    cases hcurrent : t.current with
    | none =>
        rw [Turns.last, hcurrent] at hx
        cases hx
    | some c =>
        rw [Turns.last, hcurrent] at hx
        obtain rfl := List.mem_singleton.1 hx
        rw [Turns.out, hcurrent]
        rfl

/-- A step that puts nothing on the socket. -/
structure Quiet (s s' : PenflowClient) : Prop where
  wire : s'.wire = s.wire
  socketOpen : s'.socketOpen = true → s.socketOpen = true
  part : s'.socketOpen = true → ∀ w, (s'.calls w).part = (s.calls w).part
  order : ∀ w l, (l ++ s.coming w).Sublist (s.given w) → (l ++ s'.coming w).Sublist (s'.given w)

theorem Follows.quiet {s' : PenflowClient} {t : Turns Caller Frame} (h : s.Follows t) (hquiet : s.Quiet s') :
    s'.Follows t := by
  refine ⟨hquiet.wire.trans h.wire, fun hopen w p => ?_, fun w => hquiet.order w _ (h.order w)⟩
  rw [hquiet.part hopen, h.current (hquiet.socketOpen hopen)]

theorem Quiet.refl (s : PenflowClient) : s.Quiet s := ⟨rfl, id, fun _ _ => rfl, fun _ _ h => h⟩

/-- The call of `w` is now `x`, and no byte of it is out in part, before and after. -/
theorem quiet_update {s' : PenflowClient} {w : Caller} {x : Send} (hcalls : s'.calls = Function.update s.calls w x)
    (hwire : s'.wire = s.wire) (hopen : s'.socketOpen = s.socketOpen)
    (hpart : s.socketOpen = true → x.part = (s.calls w).part)
    (hothers : ∀ v, v ≠ w → s'.queue v = s.queue v ∧ s'.given v = s.given v)
    (horder : ∀ l, (l ++ s.coming w).Sublist (s.given w) →
      (l ++ (unbegun x ++ s'.queue w)).Sublist (s'.given w)) : s.Quiet s' := by
  refine ⟨hwire, fun h => hopen ▸ h, fun h v => ?_, fun v l h => ?_⟩
  · by_cases hv : v = w
    · rw [hv, hcalls, Function.update_self, hpart (hopen ▸ h)]
    · rw [hcalls, Function.update_of_ne hv]
  · by_cases hv : v = w
    · subst hv
      rw [coming, hcalls, Function.update_self]
      exact horder l h
    · obtain ⟨hqueue, hgiven⟩ := hothers v hv
      rw [coming, hcalls, Function.update_of_ne hv, hqueue, hgiven]
      exact h

/-- A sender that has nothing in hand takes the head of its channel. -/
theorem quiet_taken {s' : PenflowClient} {w : Caller} {f : Frame}
    (hcalls : s'.calls = Function.update s.calls w (.waiting f)) (hwire : s'.wire = s.wire)
    (hopen : s'.socketOpen = s.socketOpen) (hidle : s.calls w = .idle) (hqueue : s.queue w = f :: s'.queue w)
    (hgiven : s'.given = s.given) (hothers : ∀ v, v ≠ w → s'.queue v = s.queue v) : s.Quiet s' := by
  refine quiet_update hcalls hwire hopen (fun _ => ?_) (fun v hv => ⟨hothers v hv, ?_⟩) fun l h => ?_
  · rw [hidle]
    rfl
  · rw [hgiven]
  · rw [coming, hidle, hqueue] at h
    rw [hgiven]
    exact h

theorem launch_quiet : s.Quiet s.launch := by
  unfold PenflowClient.launch
  split
  · rename_i f hcall
    refine quiet_update (w := .handshake) (x := .idle) rfl rfl rfl (fun _ => ?_) (fun v _ => ?_) fun l h => ?_
    · rw [hcall, Send.part_all]
      rfl
    · exact ⟨rfl, rfl⟩
    · rw [coming, hcall] at h
      exact h
  · exact .refl s

theorem sendOneSync_quiet (t1 : Int64) : s.Quiet (s.sendOneSync t1) := by
  unfold PenflowClient.sendOneSync
  split
  · rename_i hon
    rw [Bool.and_eq_true, beq_iff_eq] at hon
    refine quiet_update (w := .timeSync) (x := .waiting (timeSyncFrame t1)) rfl rfl rfl (fun _ => ?_)
      (fun v hv => ?_) fun l h => ?_
    · rw [hon.2]
      rfl
    · cases v <;> first | exact ⟨rfl, rfl⟩ | exact absurd rfl hv
    · rw [coming, hon.2] at h
      have hgiven : l.Sublist (s.given .timeSync) := by
        simpa [unbegun, queue] using h
      show (l ++ [timeSyncFrame t1]).Sublist ((s.syncs ++ [t1]).map timeSyncFrame)
      rw [List.map_append]
      exact List.Sublist.append hgiven (.refl _)
  · exact .refl s

theorem nextPen_quiet : s.Quiet s.nextPen := by
  unfold PenflowClient.nextPen
  split
  · rename_i hon
    rw [Bool.and_eq_true, beq_iff_eq] at hon
    split
    · exact .refl s
    · rename_i x xs hchannel
      refine quiet_taken (w := .pen) (f := x.frame) rfl rfl rfl hon.2 ?_ rfl fun v hv => ?_
      · rw [queue, hchannel]
        rfl
      · cases v <;> first | rfl | exact absurd rfl hv
  · exact .refl s

theorem nextTouch_quiet : s.Quiet s.nextTouch := by
  unfold PenflowClient.nextTouch
  split
  · rename_i hon
    rw [Bool.and_eq_true, beq_iff_eq] at hon
    split
    · exact .refl s
    · rename_i x xs hchannel
      refine quiet_taken (w := .touch) (f := touchFrame x) rfl rfl rfl hon.2 ?_ rfl fun v hv => ?_
      · rw [queue, hchannel]
        rfl
      · cases v <;> first | rfl | exact absurd rfl hv
  · exact .refl s

theorem lock_quiet (w : Caller) : s.Quiet (s.lock w) := by
  unfold PenflowClient.lock
  split
  · rename_i f hcall
    split
    · refine quiet_update (w := w) (x := .writing f 0) rfl rfl rfl (fun _ => ?_) (fun v _ => ⟨rfl, rfl⟩)
        fun l h => ?_
      · rw [hcall, Send.part_zero]
        rfl
      · rw [coming, hcall] at h
        exact h
    · exact .refl s
  · exact .refl s

/-- A call is left with nothing of it out, or with the socket closed. -/
theorem quiet_leave {s' : PenflowClient} {w : Caller} (hcalls : s'.calls = Function.update s.calls w .idle)
    (hwire : s'.wire = s.wire) (hopen : s'.socketOpen = s.socketOpen) (hqueue : s'.queue = s.queue)
    (hgiven : s'.given = s.given) (hpart : s.socketOpen = true → (s.calls w).part = none) : s.Quiet s' := by
  refine quiet_update hcalls hwire hopen (fun h => (hpart h).symm) (fun v _ => ?_) fun l h => ?_
  · rw [hqueue, hgiven]
    exact ⟨rfl, rfl⟩
  · rw [hqueue, hgiven]
    exact (List.Sublist.append (.refl l) (List.sublist_append_right _ _)).trans h

/-- **A step that is no write** puts nothing. -/
theorem step_quiet (e : SendEvent) (he : e.writer = none) : s.Quiet (s.step e) := by
  cases e with
  | sendPenEvent x =>
      refine ⟨rfl, id, fun _ _ => rfl, fun w l h => ?_⟩
      cases w with
      | pen =>
          show (l ++ (unbegun (s.calls .pen) ++ (s.penChannel ++ [x]).map PenSample.frame)).Sublist
            ((s.pens ++ [x]).map PenSample.frame)
          rw [List.map_append, List.map_append, ← List.append_assoc, ← List.append_assoc]
          refine List.Sublist.append ?_ (.refl _)
          rw [List.append_assoc]
          exact h
      | _ => exact h
  | sendTouchSnapshot x =>
      refine ⟨rfl, id, fun _ _ => rfl, fun w l h => ?_⟩
      cases w with
      | touch =>
          show (l ++ (unbegun (s.calls .touch) ++ (s.touchChannel ++ [x]).map touchFrame)).Sublist
            ((s.touches ++ [x]).map touchFrame)
          rw [List.map_append, List.map_append, ← List.append_assoc, ← List.append_assoc]
          refine List.Sublist.append ?_ (.refl _)
          rw [List.append_assoc]
          exact h
      | _ => exact h
  | launch => exact launch_quiet
  | sendOneSync t1 => exact sendOneSync_quiet t1
  | nextPen => exact nextPen_quiet
  | nextTouch => exact nextTouch_quiet
  | lock w => exact lock_quiet w
  | lockCancelled w =>
      show s.Quiet (s.lockCancelled w)
      unfold PenflowClient.lockCancelled
      split
      · rename_i f hcall
        split
        · exact quiet_leave (w := w) rfl rfl rfl rfl rfl fun _ => by rw [hcall]; rfl
        · exact .refl s
      · exact .refl s
  | write w => cases he
  | writeFails w n => cases he
  | sent w =>
      show s.Quiet (s.sent w)
      unfold PenflowClient.sent
      split
      · rename_i f hcall
        split
        · exact .refl s
        · exact quiet_leave (w := w) rfl rfl rfl rfl rfl fun _ => by rw [hcall, Send.part_all]
      · exact .refl s
  | disconnect =>
      show s.Quiet s.disconnect
      unfold PenflowClient.disconnect
      split
      · rename_i hon
        rw [Bool.and_eq_true, beq_iff_eq] at hon
        refine quiet_update (w := .disconnect) (x := .writing goodbyeFrame 0) rfl rfl rfl (fun _ => ?_)
          (fun v hv => ?_) fun l h => ?_
        · rw [hon.2, Send.part_zero]
          rfl
        · cases v <;> first | exact ⟨rfl, rfl⟩ | exact absurd rfl hv
        · rw [coming, hon.2] at h
          have hgiven : l.Sublist (s.given .disconnect) := by
            simpa [unbegun, queue] using h
          show (l ++ [goodbyeFrame]).Sublist (.replicate (s.goodbyes + 1) goodbyeFrame)
          rw [List.replicate_succ']
          exact List.Sublist.append hgiven (.refl _)
      · exact .refl s
  | cancel => exact ⟨rfl, id, fun _ _ => rfl, fun _ _ h => h⟩
  | close =>
      show s.Quiet s.close
      unfold PenflowClient.close
      split
      · exact ⟨rfl, fun h => (by cases h), fun h => (by cases h), fun _ _ h => h⟩
      · exact .refl s

/-! ### A write -/

/-- Where the goodbye meets no frame, a caller that puts bytes finds no frame of another out in part. -/
theorem others_none (h : s.Orderly) {e : SendEvent} (hclear : ¬ s.Meets e) {w : Caller} (hw : e.writer = some w)
    (hopen : s.socketOpen = true) {f : Frame} {k : ℕ} (hcall : s.calls w = .writing f k)
    (hnext : (s.calls w).next ≠ []) {v : Caller} (hv : v ≠ w) : (s.calls v).part = none := by
  by_contra hpart
  by_cases hgoodbye : w = .disconnect ∨ v = .disconnect
  · exact hclear ⟨hopen, w, v, hw, hnext, hv, hgoodbye, hpart⟩
  · rw [not_or] at hgoodbye
    obtain ⟨g, j, hcall'⟩ := Send.eq_writing_of_part hpart
    exact hv (h.alone hcall hcall' hgoodbye.1 hgoodbye.2)

/-- It is the turn of that caller. -/
theorem Follows.free {t : Turns Caller Frame} (h : s.Follows t) (hopen : s.socketOpen = true) {w : Caller}
    {f : Frame} {k : ℕ} (hcall : s.calls w = .writing f k) (hk : k < 3) (hnext : (s.calls w).next ≠ [])
    (hothers : ∀ v, v ≠ w → (s.calls v).part = none) : t.Free w f (written f k) := by
  rw [Turns.Free]
  cases k with
  | zero =>
      rw [if_pos (written_zero f), Option.eq_none_iff_forall_not_mem]
      rintro ⟨v, p⟩ hcurrent
      have hpart := (h.current hopen v p).2 hcurrent
      by_cases hv : v = w
      · rw [hv, hcall, Send.part_zero] at hpart
        cases hpart
      · rw [hothers v hv] at hpart
        cases hpart
  | succ k =>
      have hlt : written f (k + 1) < f.encode.length := by
        have hle := written_le f (k + 1 + 1)
        have hpos : 0 < (Send.writing f (k + 1)).next.length := by
          rw [← hcall]
          exact List.length_pos_iff.2 hnext
        rw [written_succ hk] at hle
        omega
      have hpos : 0 < written f (k + 1) := written_pos (Nat.succ_pos k)
      rw [if_neg (by omega), ← h.current hopen, hcall, Send.part_some (Nat.succ_pos k) hlt]

/-- **The order stays** when `w` puts `n` bytes of its frame. -/
theorem Follows.put_order {t : Turns Caller Frame} (h : s.Follows t) {w : Caller} {f : Frame} {k n : ℕ}
    (hcall : s.calls w = .writing f k) (hfree : t.Free w f (written f k)) (hn : 0 < n) (v : Caller) :
    (Turns.ofWriter v (t.put Frame.encode w f (written f k) n).begun ++
      ((if v = w then [] else unbegun (s.calls v)) ++ s.queue v)).Sublist (s.given v) := by
  have horder := h.order v
  rw [coming] at horder
  rw [Turns.begun_put hfree (by omega)]
  by_cases hv : v = w
  · subst hv
    rw [if_pos rfl]
    rw [hcall] at horder
    cases k with
    | zero =>
        rw [if_pos (written_zero f), Turns.ofWriter_append, Turns.ofWriter_same, List.append_assoc]
        exact horder
    | succ k =>
        have hpos : 0 < written f (k + 1) := written_pos (Nat.succ_pos k)
        rw [if_neg (by omega)]
        exact horder
  · rw [if_neg hv]
    split
    · rw [Turns.ofWriter_append, Turns.ofWriter_other (Ne.symm hv), List.append_nil]
      exact horder
    · exact horder

theorem write_follows {t : Turns Caller Frame} (horderly : s.Orderly) (h : s.Follows t) {w : Caller}
    (hclear : ¬ s.Meets (.write w)) : ∃ t', (s.write w).Follows t' := by
  unfold PenflowClient.write
  split
  · rename_i f k hcall
    split
    · rename_i hk
      split
      · rename_i hopen
        by_cases hnext : (s.calls w).next = []
        · -- the payload of the goodbye is empty
          refine ⟨t, h.quiet (quiet_update (w := w) (x := .writing f (k + 1)) rfl ?_ rfl (fun _ => ?_)
            (fun v _ => ⟨rfl, rfl⟩) fun l hl => ?_)⟩
          · show s.wire ++ (s.calls w).next = s.wire
            rw [hnext, List.append_nil]
          · rw [hcall, Send.part, Send.part, written_succ hk, ← hcall, hnext, List.length_nil, Nat.add_zero]
          · refine (List.Sublist.append (.refl l) ?_).trans hl
            exact List.sublist_append_right _ _
        · have hothers := fun v => others_none horderly hclear rfl hopen hcall hnext (v := v)
          have hfree := h.free hopen hcall hk hnext hothers
          have hpos : 0 < (s.calls w).next.length := List.length_pos_iff.2 hnext
          have hnew : written f (k + 1) = written f k + (s.calls w).next.length := by
            rw [hcall]
            exact written_succ hk
          have hle : written f k + (s.calls w).next.length ≤ f.encode.length := by
            rw [← hnew]
            exact written_le f (k + 1)
          refine ⟨t.put Frame.encode w f (written f k) (s.calls w).next.length, ?_, fun _ v p => ?_, fun v => ?_⟩
          · rw [Turns.stream_put hfree hle, ← h.wire]
            show s.wire ++ (s.calls w).next = _
            rw [hcall]
            exact congrArg (s.wire ++ ·) (next_eq hk)
          · by_cases hv : v = w
            · subst hv
              show (Function.update s.calls v (.writing f (k + 1)) v).part = some p ↔ _
              rw [Function.update_self, Send.part, hnew, Turns.put]
              by_cases hlt : written f k + (s.calls v).next.length < f.encode.length
              · rw [if_pos ⟨by omega, hlt⟩, if_pos hlt, if_neg (by omega)]
                simp
              · rw [if_neg (fun h => hlt h.2), if_neg hlt]
                simp
            · show (Function.update s.calls w (.writing f (k + 1)) v).part = some p ↔ _
              rw [Function.update_of_ne hv, hothers v hv, Turns.put]
              split
              · rw [if_neg (by omega)]
                simp [Ne.symm hv]
              · simp
          · have horder := h.put_order hcall hfree hpos v
            by_cases hv : v = w
            · subst hv
              rw [if_pos rfl] at horder
              rw [coming]
              show (_ ++ (unbegun (Function.update s.calls v (.writing f (k + 1)) v) ++ s.queue v)).Sublist _
              rw [Function.update_self]
              exact horder
            · rw [if_neg hv] at horder
              rw [coming]
              show (_ ++ (unbegun (Function.update s.calls w (.writing f (k + 1)) v) ++ s.queue v)).Sublist _
              rw [Function.update_of_ne hv]
              exact horder
      · rename_i hclosed
        exact ⟨t, h.quiet (quiet_leave (w := w) rfl rfl rfl rfl rfl fun hopen => absurd hopen hclosed)⟩
    · exact ⟨t, h⟩
  · exact ⟨t, h⟩

theorem writeFails_follows {t : Turns Caller Frame} (horderly : s.Orderly) (h : s.Follows t) {w : Caller} {n : ℕ}
    (hclear : ¬ s.Meets (.writeFails w n)) : ∃ t', (s.writeFails w n).Follows t' := by
  unfold PenflowClient.writeFails
  split
  · rename_i f k hcall
    split
    · rename_i hk
      obtain ⟨hk, hopen⟩ := hk
      have hcoming : ∀ v, unbegun (Function.update s.calls w .idle v) =
          if v = w then [] else unbegun (s.calls v) := by
        intro v
        by_cases hv : v = w
        · rw [hv, Function.update_self, if_pos rfl]
          rfl
        · rw [Function.update_of_ne hv, if_neg hv]
      by_cases hput : (s.calls w).next.take n = []
      · -- no byte got out
        refine ⟨t, ?_, fun h => (by cases h), fun v => ?_⟩
        · show s.wire ++ (s.calls w).next.take n = _
          rw [hput, List.append_nil]
          exact h.wire
        · show (_ ++ (unbegun (Function.update s.calls w .idle v) ++ s.queue v)).Sublist (s.given v)
          rw [hcoming]
          refine (List.Sublist.append (.refl _) (List.Sublist.append ?_ (.refl _))).trans (h.order v)
          split
          · exact List.nil_sublist _
          · exact .refl _
      · have hnext : (s.calls w).next ≠ [] := by
          intro hnil
          rw [hnil, List.take_nil] at hput
          exact hput rfl
        have hothers := fun v => others_none horderly hclear rfl hopen hcall hnext (v := v)
        have hfree := h.free hopen hcall hk hnext hothers
        have hpos : 0 < min n (s.calls w).next.length := by
          rw [← List.length_take]
          exact List.length_pos_iff.2 hput
        have hle : written f k + min n (s.calls w).next.length ≤ f.encode.length := by
          have hnew := written_succ (f := f) hk
          have hbound := written_le f (k + 1)
          rw [← hcall] at hnew
          omega
        refine ⟨t.put Frame.encode w f (written f k) (min n (s.calls w).next.length), ?_,
          fun h => (by cases h), fun v => ?_⟩
        · rw [Turns.stream_put hfree hle, ← h.wire, ← List.take_take]
          show s.wire ++ (s.calls w).next.take n = _
          rw [hcall]
          exact congrArg (fun x => s.wire ++ x.take n) (next_eq hk)
        · show (_ ++ (unbegun (Function.update s.calls w .idle v) ++ s.queue v)).Sublist (s.given v)
          rw [hcoming]
          exact h.put_order hcall hfree hpos v
    · exact ⟨t, h⟩
  · exact ⟨t, h⟩

/-- **One step.** -/
theorem step_follows {t : Turns Caller Frame} (horderly : s.Orderly) (h : s.Follows t) {e : SendEvent}
    (hclear : ¬ s.Meets e) : ∃ t', (s.step e).Follows t' := by
  cases hwriter : e.writer with
  | none => exact ⟨t, h.quiet (step_quiet e hwriter)⟩
  | some w =>
      cases e with
      | write w => exact write_follows horderly h hclear
      | writeFails w n => exact writeFails_follows horderly h hclear
      | _ => cases hwriter

theorem start_follows (caps : DeviceCaps) : (start caps).Follows ⟨[], none⟩ := by
  refine ⟨rfl, fun _ w p => ?_, fun w => ?_⟩
  · have hpart : ((start caps).calls w).part = none := by
      cases w <;> rfl
    rw [hpart]
    simp
  · cases w <;> exact .refl _

/-- **The byte stream stays framed** in every run in which the goodbye meets no frame. -/
theorem stays_framed {es : List SendEvent} (h : Run.Steps step (fun s e => ¬ s.Meets e) (start caps) es) :
    ∀ pre, pre <+: es → (pre.foldl step (start caps)).Framed := by
  rintro pre ⟨post, rfl⟩
  have hstep : ∀ s e, (Orderly s ∧ ∃ t, s.Follows t) → ¬ s.Meets e →
      (Orderly (s.step e) ∧ ∃ t, (s.step e).Follows t) := by
    rintro s e ⟨horderly, t, ht⟩ hclear
    exact ⟨step_orderly horderly e, step_follows horderly ht hclear⟩
  obtain ⟨-, t, ht⟩ := (Run.steps_append.1 h).1.invariant hstep ⟨start_orderly caps, _, start_follows caps⟩
  exact ht.framed

/-- The session opens, a pen sample is sent, and `disconnect` is called. -/
theorem stays_framed_pen :
    ([.write .handshake, .write .handshake, .write .handshake, .launch,
        .sendPenEvent ⟨0, 1, 0, 0, 0, 0, 0, 0, 0⟩, .nextPen, .lock .pen, .write .pen, .write .pen, .write .pen,
        .disconnect, .write .disconnect, .write .disconnect, .write .disconnect, .sent .pen, .sent .disconnect,
        .cancel, .close].foldl step (start ⟨2560, 1600, 8191, -60, 60, 2, 3⟩)).Framed :=
  stays_framed (by decide +kernel) _ (List.prefix_refl _)

/-- The first frame of a stream of frames. -/
theorem first_frame {whole last : List (Caller × Frame)} {n : ℕ} {bs : List UInt8} (hlast : last.length ≤ 1)
    (h : bs = whole.flatMap (fun x => x.2.encode) ++ (last.flatMap fun x => x.2.encode).take n) (hne : bs ≠ []) :
    ∃ x ∈ whole ++ last, bs <+: x.2.encode ∨ ∃ whole', whole = x :: whole' ∧
      bs = x.2.encode ++ (whole'.flatMap (fun x => x.2.encode) ++ (last.flatMap fun x => x.2.encode).take n) := by
  cases whole with
  | cons x whole' =>
      refine ⟨x, List.mem_append_left _ List.mem_cons_self, .inr ⟨whole', rfl, ?_⟩⟩
      rw [h, List.flatMap_cons, List.append_assoc]
  | nil =>
      cases last with
      | nil => exact absurd (h.trans List.take_nil) hne
      | cons x rest =>
          obtain rfl : rest = [] := List.length_eq_zero_iff.1 (by rw [List.length_cons] at hlast; omega)
          refine ⟨x, List.mem_cons_self, .inl ?_⟩
          rw [h, List.flatMap_nil, List.nil_append, List.flatMap_singleton]
          exact List.take_prefix _ _

/-- A goodbye behind the first byte of a pen frame, the second frame of the session. -/
theorem not_framed_of_split {hello : List UInt8} (hwire : s.wire = (0x81 :: hello) ++ [0x82, 0xFF, 0, 0, 0, 0])
    (hlen : hello.length = 17)
    (hgiven : ∀ w, ∀ f ∈ s.given w, f.msg_id = 0x81 ∧ f.payload.length = 13 ∨
      f.msg_id = 0x82 ∧ f.payload.length = 31 ∨ f.msg_id = 0xFF ∧ f.payload.length = 0) : ¬ s.Framed := by
  rintro ⟨whole, last, n, hlast, hframes, horder, -⟩
  have hsent := fun y hy => hgiven (Prod.fst y) y.2 ((horder y.1).subset (Turns.mem_ofWriter.2 hy))
  rw [hwire] at hframes
  -- the first frame is the hello
  have hhello : ∀ y ∈ whole ++ last, y.2.msg_id = 0x81 → y.2.encode.length = 18 := by
    intro y hy hid
    rw [Frame.encode_length]
    rcases hsent y hy with h | h | h
    · rw [h.2]
    · rw [h.1] at hid
      cases hid
    · rw [h.1] at hid
      cases hid
  -- the second one would have to be the pen frame, the length of which is 31
  have hpen : ∀ z ∈ whole ++ last, z.2.msg_id = 0x82 → ∃ tail, z.2.encode = 0x82 :: 0 :: tail := by
    intro z hz hid
    rcases hsent z hz with h | h | h
    · rw [h.1] at hid
      cases hid
    · rw [Frame.encode, encodeFrame, h.1, h.2]
      exact ⟨_, rfl⟩
    · rw [h.1] at hid
      cases hid
  obtain ⟨y, hy, hfront | ⟨whole', rfl, hsplit⟩⟩ := first_frame hlast hframes (by simp)
  · have hle := hfront.length_le
    rw [hhello y hy (List.cons_prefix_cons.1 hfront).1.symm] at hle
    simp [hlen] at hle
  · have hfirst := hhello y hy (List.cons.inj hsplit).1.symm
    have hsame : (0x81 :: hello).length = y.2.encode.length := by
      rw [hfirst, List.length_cons, hlen]
    obtain ⟨z, hz, hstart⟩ := first_frame hlast (List.append_inj hsplit hsame).2 (by simp)
    have hz' : z ∈ (y :: whole') ++ last := List.mem_cons_of_mem y hz
    rcases hstart with hfront | ⟨_, -, hsecond⟩
    · obtain ⟨tail, htail⟩ := hpen z hz' (List.cons_prefix_cons.1 hfront).1.symm
      rw [htail] at hfront
      cases (List.cons_prefix_cons.1 (List.cons_prefix_cons.1 hfront).2).1
    · obtain ⟨tail, htail⟩ := hpen z hz' (List.cons.inj hsecond).1.symm
      rw [htail] at hsecond
      cases (List.cons.inj (List.cons.inj hsecond).2).1

/-- The goodbye comes behind the first write of a pen frame. -/
theorem goodbye_splits_frame : ¬ ∀ caps es pre, pre <+: es → (pre.foldl step (start caps)).Framed := by
  intro h
  refine @not_framed_of_split _ (start ⟨2560, 1600, 8191, -60, 60, 2, 3⟩).caps.frame.encode.tail
    (by decide +kernel) (by decide +kernel) (by decide +kernel)
    (h ⟨2560, 1600, 8191, -60, 60, 2, 3⟩
      [.write .handshake, .write .handshake, .write .handshake, .launch,
        .sendPenEvent ⟨0, 1, 0, 0, 0, 0, 0, 0, 0⟩, .nextPen, .lock .pen, .write .pen, .disconnect,
        .write .disconnect, .write .disconnect] _ (List.prefix_refl _))

end PenflowClient

end Penflow.Client
