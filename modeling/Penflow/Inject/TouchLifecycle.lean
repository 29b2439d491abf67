import Penflow.Inject.PenLifecycle
import Penflow.Lib.Contacts
import Mathlib.Data.List.Forall2

/-!
# The life of the touch contacts

`inject_touch` compares a snapshot with the one Windows accepted last, and makes one frame for each contact
that goes down, moves or goes up.  Windows believes a contact down unless the last frame it accepted of it
says UP.  After every call the remembered contacts are those that Windows believes are down
(`TouchTracked`), whatever calls Windows rejects.
-/

namespace Penflow

open InjectM Contacts

/-! ### Touch frames in the log -/

/-- What a touch frame does to its contact. -/
def PointerTouchInfo.act (f : PointerTouchInfo) : Act :=
  if hasFlag f.pointerInfo.pointerFlags pointerFlagDown then .down
  else if hasFlag f.pointerInfo.pointerFlags pointerFlagUp then .up
  else .update

/-- A touch frame that Windows accepted, with the number of the call. -/
abbrev TouchEvt := ℕ × PointerTouchInfo

def TouchEvt.id (e : TouchEvt) : UInt32 := e.2.pointerInfo.pointerId

def TouchEvt.act (e : TouchEvt) : Act := e.2.act

/-- The touch frames of call number `n`, where Windows accepted it. -/
def touchEvtsOf : (OsCall × Bool) × ℕ → List TouchEvt
  | ((.injectTouch frames, true), n) => frames.map (n, ·)
  | _ => []

/-- The touch frames that Windows accepted. -/
def touchEvts (log : List (OsCall × Bool)) : List TouchEvt := log.zipIdx.flatMap touchEvtsOf

theorem touchEvts_append (xs ys : List (OsCall × Bool)) :
    touchEvts (xs ++ ys) = touchEvts xs ++ (ys.zipIdx xs.length).flatMap touchEvtsOf := by
  rw [touchEvts, List.zipIdx_append, List.flatMap_append, Nat.zero_add]
  rfl

theorem touchEvts_concat (log : List (OsCall × Bool)) (frames : List PointerTouchInfo) :
    touchEvts (log ++ [(.injectTouch frames, true)]) = touchEvts log ++ frames.map (log.length, ·) := by
  rw [touchEvts_append, List.zipIdx_singleton, List.flatMap_singleton, touchEvtsOf]

/-- Calls that are no accepted touch call add nothing. -/
theorem touchEvts_append_of_other {log more : List (OsCall × Bool)}
    (h : ∀ c ∈ more, ∀ frames, c ≠ (.injectTouch frames, true)) :
    touchEvts (log ++ more) = touchEvts log := by
  have hnone : (more.zipIdx log.length).flatMap touchEvtsOf = [] := by
    apply List.flatMap_eq_nil_iff.2
    intro c hc
    have hmem : c.1 ∈ more := List.fst_mem_of_mem_zipIdx hc
    unfold touchEvtsOf
    split
    case h_1 frames n => exact absurd rfl (h _ hmem frames)
    case h_2 => rfl
  rw [touchEvts_append, hnone, List.append_nil]

/-! ### Loops -/

/-- A loop that returns has done so for every element. -/
theorem mapM_eq_ok {α β : Type} {g : α → Outcome β} {xs : List α} {ys : List β}
    (h : xs.mapM g = .ok ys) : List.Forall₂ (fun x y => g x = .ok y) xs ys := by
  induction xs generalizing ys with
  | nil =>
      cases h
      exact .nil
  | cons x xs ih =>
      rw [List.mapM_cons] at h
      obtain ⟨y, hy, h⟩ := Outcome.bind_eq_ok.1 h
      obtain ⟨zs, hzs, h⟩ := Outcome.bind_eq_ok.1 h
      cases h
      exact .cons hy (ih hzs)

theorem forall₂_map_eq {α β γ : Type} {r : α → β → Prop} {f : α → γ} {g : β → γ} {xs : List α}
    {ys : List β} (h : List.Forall₂ r xs ys) (hr : ∀ x y, r x y → g y = f x) : ys.map g = xs.map f := by
  induction h with
  | nil => rfl
  | cons hxy _ ih => rw [List.map_cons, List.map_cons, hr _ _ hxy, ih]

theorem exists_of_mem_right {α β : Type} {r : α → β → Prop} {xs : List α} {ys : List β}
    (h : List.Forall₂ r xs ys) {y : β} (hy : y ∈ ys) : ∃ x ∈ xs, r x y := by
  induction h with
  | nil => cases hy
  | cons hxy _ ih =>
      rcases List.mem_cons.1 hy with rfl | hy
      · exact ⟨_, List.mem_cons_self, hxy⟩
      · obtain ⟨x, hx, hr⟩ := ih hy
        exact ⟨x, List.mem_cons_of_mem _ hx, hr⟩

theorem exists_of_mem_left {α β : Type} {r : α → β → Prop} {xs : List α} {ys : List β}
    (h : List.Forall₂ r xs ys) {x : α} (hx : x ∈ xs) : ∃ y ∈ ys, r x y := by
  induction h with
  | nil => cases hx
  | cons hxy _ ih =>
      rcases List.mem_cons.1 hx with rfl | hx
      · exact ⟨_, List.mem_cons_self, hxy⟩
      · obtain ⟨y, hy, hr⟩ := ih hx
        exact ⟨y, List.mem_cons_of_mem _ hy, hr⟩

section Frames

variable [Windows] [BuildProfile]

/-- The frame is the one for this point, under the screen that Windows had at the call. -/
def TouchEvt.At (e : TouchEvt) (x y : ℤ) : Prop :=
  ∃ flags, makeTouchInfo (Windows.screen e.1) e.id x y flags = .ok e.2

/-- Both frames are for one point of the desktop. -/
def SamePoint (e e' : TouchEvt) : Prop := ∃ x y, e.At x y ∧ e'.At x y

/-! ### The frames of a snapshot -/

omit [Windows] in
theorem makeTouchInfo_ok {screen : VirtualScreen} {id : UInt32} {x y : ℤ} {flags : UInt32}
    {f : PointerTouchInfo} (h : makeTouchInfo screen id x y flags = .ok f) :
    f.pointerInfo.pointerId = id ∧ f.pointerInfo.pointerFlags = flags := by
  obtain ⟨kx, -, h⟩ := Outcome.bind_eq_ok.1 h
  obtain ⟨ky, -, h⟩ := Outcome.bind_eq_ok.1 h
  obtain ⟨right, -, h⟩ := Outcome.bind_eq_ok.1 h
  obtain ⟨bottom, -, h⟩ := Outcome.bind_eq_ok.1 h
  cases h
  exact ⟨rfl, rfl⟩

omit [Windows] in
/-- The frames of a snapshot and of the lost contacts. -/
theorem touchFrames_ok {screen : VirtualScreen} {last lost : List (UInt32 × ℤ × ℤ)}
    {snapshot : List TouchPoint} {infos : List PointerTouchInfo}
    (h : touchFrames screen last lost snapshot = .ok infos) : ∃ down up, infos = down ++ up ∧
      List.Forall₂ (fun (p : TouchPoint × ℕ) f => makeTouchInfo screen p.1.id p.1.x p.1.y
        (touchFlags (last.any fun pos => pos.1 == p.1.id) p.2) = .ok f) snapshot.zipIdx down ∧
      List.Forall₂ (fun (pos : UInt32 × ℤ × ℤ) f =>
        makeTouchInfo screen pos.1 pos.2.1 pos.2.2 pointerFlagUp = .ok f) lost up := by
  obtain ⟨down, hdown, h⟩ := Outcome.bind_eq_ok.1 h
  obtain ⟨up, hup, h⟩ := Outcome.bind_eq_ok.1 h
  cases h
  exact ⟨down, up, rfl, mapM_eq_ok hdown, mapM_eq_ok hup⟩

omit [Windows] in
theorem touchFrames_eq_nil {screen : VirtualScreen} {last lost : List (UInt32 × ℤ × ℤ)}
    {snapshot : List TouchPoint} (h : touchFrames screen last lost snapshot = .ok []) :
    snapshot = [] ∧ lost = [] := by
  obtain ⟨down, up, hnil, hdown, hup⟩ := touchFrames_ok h
  obtain ⟨rfl, rfl⟩ := List.append_eq_nil_iff.1 hnil.symm
  exact ⟨List.zipIdx_eq_nil_iff.1 (List.forall₂_nil_right_iff.1 hdown), List.forall₂_nil_right_iff.1 hup⟩

/-- The contacts of `last` that the snapshot does not list. -/
def lostContacts (n : ℕ) (last : List (UInt32 × ℤ × ℤ)) (snapshot : List TouchPoint) :
    List (UInt32 × ℤ × ℤ) :=
  (Windows.touchOrder n last).filter fun pos => !snapshot.any fun tp => tp.id == pos.1

omit [BuildProfile] in
theorem mem_lostContacts {n : ℕ} {last : List (UInt32 × ℤ × ℤ)} {snapshot : List TouchPoint}
    {pos : UInt32 × ℤ × ℤ} :
    pos ∈ lostContacts n last snapshot ↔ pos ∈ last ∧ pos.1 ∉ snapshot.map TouchPoint.id := by
  rw [lostContacts, List.mem_filter, (Windows.touchOrder_perm n last).mem_iff, Bool.not_eq_true',
    List.any_eq_false]
  simp

/-- **What a touch call does.**  It is refused before Windows sees it, or has nothing to do; or Windows gets
the frames, and the snapshot is remembered where it takes them. -/
theorem injectTouch_cases (snapshot : List TouchPoint) (w : World) :
    (∃ e, exec (injectTouch snapshot) w = (.error e, w)) ∨
      (exec (injectTouch snapshot) w = (.ok (), w) ∧ snapshot = [] ∧ w.inj.last_touch_pos = []) ∨
      ∃ infos, touchFrames (Windows.screen w.log.length) w.inj.last_touch_pos
          (lostContacts w.log.length w.inj.last_touch_pos snapshot) snapshot = .ok infos ∧
        exec (injectTouch snapshot) w =
          if Windows.accepts w.log.length (.injectTouch infos) then
            (.ok (), { inj := { w.inj with last_touch_pos := snapshot.foldl insertPos [] }
                       log := w.log ++ [(.injectTouch infos, true)] })
          else (.error (.err .win32), { w with log := w.log ++ [(.injectTouch infos, false)] }) := by
  rw [injectTouch, exec_bind_of_ok (exec_get w)]
  dsimp only
  split
  case isTrue hempty =>
    rw [Bool.and_eq_true, List.isEmpty_iff, List.isEmpty_iff] at hempty
    exact .inr (.inl ⟨rfl, hempty⟩)
  case isFalse hempty =>
    rw [exec_bind_of_ok (exec_virtualScreen w), exec_bind, exec_ofOutcome]
    show _ ∨ _ ∨ ∃ infos, touchFrames _ _ _ _ = .ok infos ∧ _
    rw [lostContacts]
    cases hframes : touchFrames (Windows.screen w.log.length) w.inj.last_touch_pos
        ((Windows.touchOrder w.log.length w.inj.last_touch_pos).filter fun pos =>
          !snapshot.any fun tp => tp.id == pos.1) snapshot with
    | error e => exact .inl ⟨e, rfl⟩
    | ok infos =>
        -- a call that has something to do has a frame to inject
        have hinfos : infos.isEmpty = false := by
          rw [Bool.eq_false_iff]
          intro hnil
          rw [List.isEmpty_iff] at hnil
          subst hnil
          apply hempty
          obtain ⟨hsnapshot, hlost⟩ := touchFrames_eq_nil hframes
          subst hsnapshot
          rw [List.filter_eq_nil_iff] at hlost
          rw [Bool.and_eq_true, List.isEmpty_iff, List.isEmpty_iff]
          refine ⟨rfl, List.eq_nil_iff_forall_not_mem.2 fun pos hpos => ?_⟩
          exact hlost pos ((Windows.touchOrder_perm _ _).mem_iff.2 hpos) rfl
        dsimp only
        rw [hinfos, if_neg Bool.false_ne_true, exec_bind, exec_ofOutcome]
        cases hassert : debugAssert (infos.length ≤ maxTouchContacts) with
        | error e => exact .inl ⟨e, rfl⟩
        | ok u =>
            dsimp only
            rw [exec_bind, exec_callOk]
            refine .inr (.inr ⟨infos, rfl, ?_⟩)
            cases haccepts : Windows.accepts w.log.length (.injectTouch infos) with
            | true =>
                rw [if_pos rfl, if_pos rfl, World.after, haccepts]
                rfl
            | false =>
                rw [if_neg Bool.false_ne_true, if_neg Bool.false_ne_true, World.after, haccepts]

/-! ### The remembered contacts -/

omit [Windows] [BuildProfile] in
theorem insertPos_nodup {m : List (UInt32 × ℤ × ℤ)} (h : (m.map Prod.fst).Nodup) (tp : TouchPoint) :
    ((insertPos m tp).map Prod.fst).Nodup := by
  rw [insertPos, List.map_cons, List.nodup_cons]
  constructor
  · intro hid
    obtain ⟨pos, hpos, heq⟩ := List.mem_map.1 hid
    have hne := (List.mem_filter.1 hpos).2
    rw [bne_iff_ne] at hne
    exact hne heq
  · exact h.sublist (List.filter_sublist.map Prod.fst)

omit [Windows] [BuildProfile] in
theorem foldl_insertPos_nodup {m : List (UInt32 × ℤ × ℤ)} (h : (m.map Prod.fst).Nodup)
    (snapshot : List TouchPoint) : ((snapshot.foldl insertPos m).map Prod.fst).Nodup := by
  induction snapshot generalizing m with
  | nil => exact h
  | cons tp snapshot ih => exact ih (insertPos_nodup h tp)

omit [Windows] [BuildProfile] in
/-- Every contact of the snapshot is remembered where it is, and no other one is new. -/
theorem mem_foldl_insertPos {m : List (UInt32 × ℤ × ℤ)} {snapshot : List TouchPoint}
    (hdistinct : (snapshot.map TouchPoint.id).Nodup) {pos : UInt32 × ℤ × ℤ} :
    pos ∈ snapshot.foldl insertPos m ↔
      (∃ tp ∈ snapshot, pos = (tp.id, tp.x, tp.y)) ∨ pos ∈ m ∧ pos.1 ∉ snapshot.map TouchPoint.id := by
  induction snapshot generalizing m with
  | nil => simp
  | cons tp snapshot ih =>
      rw [List.map_cons, List.nodup_cons] at hdistinct
      have htp : ∀ tp' ∈ snapshot, tp'.id ≠ tp.id := fun tp' hmem heq =>
        hdistinct.1 (heq ▸ List.mem_map_of_mem hmem)
      rw [List.foldl_cons, ih hdistinct.2, insertPos, List.mem_cons, List.mem_filter, bne_iff_ne]
      constructor
      · rintro (⟨tp', hmem, rfl⟩ | ⟨rfl | ⟨hmem, hne⟩, hnot⟩)
        · exact .inl ⟨tp', List.mem_cons_of_mem tp hmem, rfl⟩
        · exact .inl ⟨tp, List.mem_cons_self, rfl⟩
        · refine .inr ⟨hmem, ?_⟩
          rw [List.map_cons, List.mem_cons]
          exact fun h => h.elim hne hnot
      · rintro (⟨tp', hmem, rfl⟩ | ⟨hmem, hnot⟩)
        · rcases List.mem_cons.1 hmem with rfl | hmem
          · exact .inr ⟨.inl rfl, hdistinct.1⟩
          · exact .inl ⟨tp', hmem, rfl⟩
        · rw [List.map_cons, List.mem_cons, not_or] at hnot
          exact .inr ⟨.inr ⟨hmem, hnot.1⟩, hnot.2⟩

/-! ### One call -/

/-- The remembered contacts are those that Windows believes are down, each at the point of its last frame,
and all contacts have lived lawfully. -/
structure TouchTracked (w : World) : Prop where
  nodup : (w.inj.last_touch_pos.map Prod.fst).Nodup
  lawful : Lawful TouchEvt.id TouchEvt.act SamePoint (touchEvts w.log)
  held : ∀ pos ∈ w.inj.last_touch_pos, ∃ e, last TouchEvt.id pos.1 (touchEvts w.log) = some e ∧
    e.act ≠ .up ∧ e.At pos.2.1 pos.2.2
  only : ∀ id, isDown TouchEvt.id TouchEvt.act id (touchEvts w.log) = true →
    id ∈ w.inj.last_touch_pos.map Prod.fst

theorem TouchTracked.new (found : Bool) : TouchTracked (.new found) where
  nodup := List.nodup_nil
  lawful := .nil
  held := fun pos hpos => (List.not_mem_nil hpos).elim
  only := fun id h => by cases h

/-- Nothing changes for the contacts where no touch call is accepted and the record stays. -/
theorem TouchTracked.of_log {w w' : World} (h : TouchTracked w)
    (hlog : touchEvts w'.log = touchEvts w.log)
    (hpos : w'.inj.last_touch_pos = w.inj.last_touch_pos) : TouchTracked w' := by
  obtain ⟨hnodup, hlawful, hheld, honly⟩ := h
  rw [← hlog] at hlawful hheld honly
  rw [← hpos] at hnodup hheld honly
  exact ⟨hnodup, hlawful, hheld, honly⟩

omit [Windows] [BuildProfile] in
theorem act_touchFlags {f : PointerTouchInfo} {was_down : Bool} {i : ℕ}
    (h : f.pointerInfo.pointerFlags = touchFlags was_down i) :
    f.act = if was_down then .update else .down := by
  rw [PointerTouchInfo.act, h, touchFlags]
  by_cases hi : i = 0
  · rw [if_pos hi]
    cases was_down <;> decide
  · rw [if_neg hi]
    cases was_down <;> decide

omit [Windows] [BuildProfile] in
theorem act_up {f : PointerTouchInfo} (h : f.pointerInfo.pointerFlags = pointerFlagUp) : f.act = .up := by
  rw [PointerTouchInfo.act, h]
  decide

omit [Windows] in
/-- The contacts of the frames are those of the snapshot and the lost ones. -/
theorem touchFrames_ids {screen : VirtualScreen} {last lost : List (UInt32 × ℤ × ℤ)}
    {snapshot : List TouchPoint} {infos : List PointerTouchInfo}
    (h : touchFrames screen last lost snapshot = .ok infos) :
    infos.map (·.pointerInfo.pointerId) = snapshot.map TouchPoint.id ++ lost.map Prod.fst := by
  obtain ⟨down, up, rfl, hdown, hup⟩ := touchFrames_ok h
  have hdown' := forall₂_map_eq hdown (f := fun p => p.1.id) fun _ _ hf => (makeTouchInfo_ok hf).1
  have hup' := forall₂_map_eq hup (f := Prod.fst) fun _ _ hf => (makeTouchInfo_ok hf).1
  have hzip : (snapshot.zipIdx.map fun p => p.1.id) = snapshot.map TouchPoint.id := by
    conv_rhs => rw [← List.zipIdx_map_fst 0 snapshot, List.map_map]
    rfl
  rw [List.map_append, hdown', hup', hzip]

/-- The frames of the next call. -/
def nextEvts (w : World) (infos : List PointerTouchInfo) : List TouchEvt :=
  infos.map (w.log.length, ·)

section Next

variable {w : World} {snapshot : List TouchPoint} {infos : List PointerTouchInfo}

theorem nextEvts_nodup (h : TouchTracked w) (hdistinct : (snapshot.map TouchPoint.id).Nodup)
    (hframes : touchFrames (Windows.screen w.log.length) w.inj.last_touch_pos
      (lostContacts w.log.length w.inj.last_touch_pos snapshot) snapshot = .ok infos) :
    ((nextEvts w infos).map TouchEvt.id).Nodup := by
  have hids : (nextEvts w infos).map TouchEvt.id = infos.map (·.pointerInfo.pointerId) := by
    rw [nextEvts, List.map_map]
    rfl
  have hlost : ((lostContacts w.log.length w.inj.last_touch_pos snapshot).map Prod.fst).Nodup := by
    have hperm := (Windows.touchOrder_perm w.log.length w.inj.last_touch_pos).map Prod.fst
    exact (hperm.nodup_iff.2 h.nodup).sublist (List.filter_sublist.map Prod.fst)
  rw [hids, touchFrames_ids hframes, List.nodup_append]
  refine ⟨hdistinct, hlost, ?_⟩
  rintro id hid _ hid' rfl
  obtain ⟨pos, hpos, rfl⟩ := List.mem_map.1 hid'
  exact (mem_lostContacts.1 hpos).2 hid

/-- **Every frame follows** from what Windows holds of the contacts. -/
theorem nextEvts_follow (h : TouchTracked w)
    (hframes : touchFrames (Windows.screen w.log.length) w.inj.last_touch_pos
      (lostContacts w.log.length w.inj.last_touch_pos snapshot) snapshot = .ok infos) :
    ∀ e ∈ nextEvts w infos, Contacts.Follows TouchEvt.id TouchEvt.act SamePoint (touchEvts w.log) e := by
  intro e he
  obtain ⟨f, hf, rfl⟩ := List.mem_map.1 he
  obtain ⟨down, up, rfl, hdown, hup⟩ := touchFrames_ok hframes
  rcases List.mem_append.1 hf with hf | hf
  · obtain ⟨⟨tp, i⟩, -, hinfo⟩ := exists_of_mem_right hdown hf
    obtain ⟨hid, hflags⟩ := makeTouchInfo_ok hinfo
    have hact := act_touchFlags hflags
    have hwho : TouchEvt.id (w.log.length, f) = tp.id := hid
    have hact' : TouchEvt.act (w.log.length, f) =
        if w.inj.last_touch_pos.any fun pos => pos.1 == tp.id then .update else .down := hact
    rw [Contacts.Follows, hwho, hact']
    cases hwas : w.inj.last_touch_pos.any fun pos => pos.1 == tp.id with
    | true =>
        obtain ⟨pos, hpos, heq⟩ := List.any_eq_true.1 hwas
        obtain ⟨e', hlast, hact', -⟩ := h.held pos hpos
        rw [← beq_iff_eq.1 heq]
        exact isDown_iff.2 ⟨e', hlast, hact'⟩
    | false =>
        show isDown _ _ tp.id _ = false
        rw [Bool.eq_false_iff]
        intro hdown
        obtain ⟨pos, hpos, heq⟩ := List.mem_map.1 (h.only tp.id hdown)
        rw [List.any_eq_false] at hwas
        exact hwas pos hpos (beq_iff_eq.2 heq)
  · obtain ⟨pos, hpos, hinfo⟩ := exists_of_mem_right hup hf
    obtain ⟨hid, hflags⟩ := makeTouchInfo_ok hinfo
    have hwho : TouchEvt.id (w.log.length, f) = pos.1 := hid
    obtain ⟨e', hlast, hact', hat⟩ := h.held pos (mem_lostContacts.1 hpos).1
    have hup : TouchEvt.act (w.log.length, f) = .up := act_up hflags
    rw [Contacts.Follows, hwho, hup]
    refine ⟨e', hlast, hact', pos.2.1, pos.2.2, hat, pointerFlagUp, ?_⟩
    rw [hwho]
    exact hinfo

/-- **Windows takes the frames.** -/
theorem TouchTracked.accepted (h : TouchTracked w) (hdistinct : (snapshot.map TouchPoint.id).Nodup)
    (hframes : touchFrames (Windows.screen w.log.length) w.inj.last_touch_pos
      (lostContacts w.log.length w.inj.last_touch_pos snapshot) snapshot = .ok infos) :
    TouchTracked { inj := { w.inj with last_touch_pos := snapshot.foldl insertPos [] }
                   log := w.log ++ [(.injectTouch infos, true)] } := by
  have hnodup := nextEvts_nodup h hdistinct hframes
  have hlog : touchEvts (w.log ++ [(.injectTouch infos, true)]) = touchEvts w.log ++ nextEvts w infos :=
    touchEvts_concat w.log infos
  have hids : (nextEvts w infos).map TouchEvt.id = snapshot.map TouchPoint.id ++
      (lostContacts w.log.length w.inj.last_touch_pos snapshot).map Prod.fst := by
    rw [← touchFrames_ids hframes, nextEvts, List.map_map]
    rfl
  refine ⟨foldl_insertPos_nodup (m := []) List.nodup_nil snapshot, ?_, fun pos hpos => ?_, fun id hdown => ?_⟩
  · show Lawful _ _ _ (touchEvts _)
    rw [hlog]
    exact h.lawful.append hnodup (nextEvts_follow h hframes)
  · -- the frame of the contact in the snapshot
    rcases (mem_foldl_insertPos hdistinct).1 hpos with ⟨tp, htp, rfl⟩ | ⟨hnil, -⟩
    · obtain ⟨down, up, rfl, hdown, -⟩ := touchFrames_ok hframes
      obtain ⟨i, hi⟩ := List.mem_iff_getElem?.1 htp
      have hmem : (tp, i) ∈ snapshot.zipIdx := List.mem_zipIdx_iff_getElem?.2 hi
      obtain ⟨f, hf, hinfo⟩ := exists_of_mem_left hdown hmem
      obtain ⟨hid, hflags⟩ := makeTouchInfo_ok hinfo
      have hevt : (w.log.length, f) ∈ nextEvts w (down ++ up) :=
        List.mem_map_of_mem (List.mem_append_left up hf)
      have hwho : TouchEvt.id (w.log.length, f) = tp.id := hid
      have hat : TouchEvt.At (w.log.length, f) tp.x tp.y := by
        refine ⟨touchFlags (w.inj.last_touch_pos.any fun pos => pos.1 == tp.id) i, ?_⟩
        rw [hwho]
        exact hinfo
      refine ⟨(w.log.length, f), ?_, ?_, hat⟩
      · show last _ tp.id (touchEvts _) = _
        rw [hlog, ← hwho]
        exact last_append_of_mem hnodup hevt
      · show f.act ≠ .up
        rw [act_touchFlags hflags]
        split <;> decide
    · cases hnil
  · have hdown : isDown TouchEvt.id TouchEvt.act id (touchEvts w.log ++ nextEvts w infos) = true :=
      hlog ▸ hdown
    obtain ⟨e, hlast, hact⟩ := isDown_iff.1 hdown
    by_cases hmem : id ∈ (nextEvts w infos).map TouchEvt.id
    · obtain ⟨e', he', rfl⟩ := List.mem_map.1 hmem
      rw [last_append_of_mem hnodup he'] at hlast
      cases hlast
      obtain ⟨f, hf, rfl⟩ := List.mem_map.1 he'
      obtain ⟨down, up, rfl, hdowns, hups⟩ := touchFrames_ok hframes
      rcases List.mem_append.1 hf with hf | hf
      · obtain ⟨⟨tp, i⟩, hi, hinfo⟩ := exists_of_mem_right hdowns hf
        have htp : tp ∈ snapshot := List.fst_mem_of_mem_zipIdx hi
        refine List.mem_map.2 ⟨(tp.id, tp.x, tp.y), ?_, (makeTouchInfo_ok hinfo).1.symm⟩
        exact (mem_foldl_insertPos hdistinct).2 (.inl ⟨tp, htp, rfl⟩)
      · obtain ⟨pos, -, hinfo⟩ := exists_of_mem_right hups hf
        exact absurd (act_up (makeTouchInfo_ok hinfo).2) hact
    · -- a contact that is in no frame was up before
      exfalso
      rw [last_append_of_notMem fun x hx hid => hmem (List.mem_map.2 ⟨x, hx, hid⟩)] at hlast
      obtain ⟨pos, hpos, rfl⟩ := List.mem_map.1 (h.only id (isDown_iff.2 ⟨e, hlast, hact⟩))
      rw [hids, List.mem_append, not_or] at hmem
      exact hmem.2 (List.mem_map_of_mem (mem_lostContacts.2 ⟨hpos, hmem.1⟩))

end Next

theorem TouchTracked.injectTouch {w : World} (h : TouchTracked w) {snapshot : List TouchPoint}
    (hdistinct : (snapshot.map TouchPoint.id).Nodup) :
    TouchTracked (w.step (.injectTouch snapshot)) := by
  rw [World.step, Call.method]
  rcases injectTouch_cases snapshot w with ⟨e, hexec⟩ | ⟨hexec, -⟩ | ⟨infos, hframes, hexec⟩
  · rw [hexec]
    exact h
  · rw [hexec]
    exact h
  · rw [hexec]
    split
    · exact h.accepted hdistinct hframes
    · refine h.of_log (touchEvts_append_of_other fun c hc frames heq => ?_) rfl
      rw [List.mem_singleton.1 hc] at heq
      cases heq

/-! ### The other calls -/

theorem TouchTracked.of_sent {w w' : World} (h : TouchTracked w) (hsent : w.Sent w') :
    TouchTracked w' := by
  obtain ⟨⟨sent, hlog⟩, sticky, hinj⟩ := hsent
  refine h.of_log ?_ (by rw [hinj])
  rw [hlog]
  apply touchEvts_append_of_other
  intro c hc frames heq
  obtain ⟨x, -, rfl⟩ := List.mem_map.1 hc
  cases heq

theorem TouchTracked.of_wrote {w w' : World} (h : TouchTracked w) (hwrote : w.Wrote w') :
    TouchTracked w' := by
  obtain ⟨⟨more, hlog, hmore⟩, vmulti, hinj⟩ := hwrote
  refine h.of_log ?_ (by rw [hinj])
  rw [hlog]
  apply touchEvts_append_of_other
  rintro c hc frames rfl
  rcases hmore _ hc with ⟨frame, heq⟩ | ⟨report, heq⟩ <;> cases heq

theorem TouchTracked.injectPen {w : World} (h : TouchTracked w) (sample : PenSample) :
    TouchTracked (w.step (.injectPen sample)) := by
  rcases injectPen_parts sample w with ⟨w', hsent, hstep⟩ | ⟨w', hwrote, eraser, in_range, in_contact, hstep⟩
  · rw [hstep]
    exact h.of_sent hsent
  · rw [hstep]
    have hdispatched : TouchTracked (w.dispatched sample) :=
      (h.of_sent (.sent w (dispatchInputs w sample) (dispatchToggle w sample))).of_log rfl rfl
    exact (hdispatched.of_wrote hwrote).of_log rfl rfl

theorem TouchTracked.setPenProfile {w : World} (h : TouchTracked w) (profile : PenButtonProfile) :
    TouchTracked (w.step (.setPenProfile profile)) := by
  rw [World.step, Call.method, setPenProfile_exec]
  have htried := h.of_sent (.tried w (swapInputs w.inj))
  exact htried.of_log rfl (congrArg InputInjector.last_touch_pos (World.tried_inj w _)).symm

/-! ### Runs -/

/-- The snapshots of a call list each contact once. -/
def Call.Distinct : Call → Prop
  | injectTouch snapshot => (snapshot.map TouchPoint.id).Nodup
  | _ => True

theorem touchTracked_run (found : Bool) {calls : List Call} (hdistinct : ∀ c ∈ calls, c.Distinct) :
    TouchTracked (calls.foldl World.step (.new found)) := by
  have hsteps : Run.Steps World.step (fun _ c => c.Distinct) (.new found) calls := by
    refine Run.steps_iff.2 fun pre c post hsplit => hdistinct c ?_
    rw [hsplit]
    exact List.mem_append_right pre List.mem_cons_self
  refine hsteps.invariant (fun w c h hc => ?_) (.new found)
  cases c with
  | injectPen sample => exact h.injectPen sample
  | injectTouch snapshot => exact h.injectTouch hc
  | setPenProfile profile => exact h.setPenProfile profile

/-- What holds of the touch contacts before and after a touch call. -/
structure TouchLaw (w : World) : Prop where
  /-- the remembered contacts are those that Windows believes are down -/
  contacts : ∀ id, id ∈ w.inj.last_touch_pos.map Prod.fst ↔
    isDown TouchEvt.id TouchEvt.act id (touchEvts w.log) = true
  /-- they live stroke by stroke, and go up where their last frame was -/
  lawful : Lawful TouchEvt.id TouchEvt.act SamePoint (touchEvts w.log)
  /-- an empty snapshot lifts them all -/
  lifts : ∀ w', exec (injectTouch []) w = (.ok (), w') →
    ∀ id, isDown TouchEvt.id TouchEvt.act id (touchEvts w'.log) = false
  /-- a call that fails changes nothing -/
  unchanged : ∀ snapshot e w', exec (injectTouch snapshot) w = (.error e, w') → w'.inj = w.inj

theorem injectTouch_nil_pos {w w' : World} (h : exec (injectTouch []) w = (.ok (), w')) :
    w'.inj.last_touch_pos = [] := by
  rcases injectTouch_cases [] w with ⟨e, hexec⟩ | ⟨hexec, -, hpos⟩ | ⟨infos, -, hexec⟩
  · rw [hexec] at h
    cases h
  · rw [hexec] at h
    cases h
    exact hpos
  · rw [hexec] at h
    split at h
    · cases h
      rfl
    · cases h

theorem injectTouch_error {w w' : World} {snapshot : List TouchPoint} {e : Fault}
    (h : exec (injectTouch snapshot) w = (.error e, w')) : w'.inj = w.inj := by
  rcases injectTouch_cases snapshot w with ⟨e', hexec⟩ | ⟨hexec, -⟩ | ⟨infos, -, hexec⟩
  · rw [hexec] at h
    cases h
    rfl
  · rw [hexec] at h
    cases h
  · rw [hexec] at h
    split at h
    · cases h
    · cases h
      rfl

/-- **The life of the touch contacts**, in every run whose snapshots list each contact once. -/
theorem touch_lifecycle (found : Bool) {calls : List Call} (hdistinct : ∀ c ∈ calls, c.Distinct) :
    TouchLaw (calls.foldl World.step (.new found)) := by
  have h := touchTracked_run found hdistinct
  refine ⟨fun id => ⟨fun hid => ?_, h.only id⟩, h.lawful, fun w' hexec id => ?_,
    fun snapshot e w' => injectTouch_error⟩
  · obtain ⟨pos, hpos, rfl⟩ := List.mem_map.1 hid
    obtain ⟨e, hlast, hact, -⟩ := h.held pos hpos
    exact isDown_iff.2 ⟨e, hlast, hact⟩
  · have hafter := @TouchTracked.injectTouch _ _ _ h [] List.nodup_nil
    rw [World.step, Call.method, hexec] at hafter
    rw [Bool.eq_false_iff]
    intro hdown
    have hid := hafter.only id hdown
    rw [injectTouch_nil_pos hexec] at hid
    cases hid

end Frames

/-- Two fingers come, and go one after the other. -/
theorem touch_lifecycle_fingers :
    letI := Windows.acceptsEvery
    letI : BuildProfile := ⟨true⟩
    TouchLaw ([Call.injectTouch [⟨1, 5, 5⟩, ⟨2, 7, 7⟩], .injectTouch [⟨2, 8, 8⟩], .injectTouch []].foldl
      World.step (.new false)) := by
  let _ := Windows.acceptsEvery
  let _ : BuildProfile := ⟨true⟩
  apply touch_lifecycle
  intro c hc
  simp only [List.mem_cons, List.not_mem_nil, or_false] at hc
  rcases hc with rfl | rfl | rfl
  · show List.Nodup [1, 2]
    decide
  · show List.Nodup [2]
    decide
  · exact List.nodup_nil

end Penflow
