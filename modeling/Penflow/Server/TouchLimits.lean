import Penflow.Inject.TouchLifecycle
import Penflow.Server.ReadLoop

/-!
# The limits of the touch device

The touch device is created for ten contacts, and one array may name a contact only once.  The array that
`inject_touch` makes holds the snapshot and a lift for every contact that has gone, and a message can list
255 contacts and repeat their ids.  `touch_within_iff` says of which runs of the read loop every array stays
within the limits.
-/

namespace Penflow

open InjectM

variable [Windows] [BuildProfile]

/-! ### What a message can hold -/

omit [Windows] [BuildProfile] in
/-- A message of the length that its count asks for is accepted, whatever the count. -/
theorem TouchEvent.decode_of_length {payload : List UInt8}
    (h : payload.length = 9 + (payload.getD 8 0).toNat * TouchContact.size) :
    ∃ te, TouchEvent.decode payload = .ok te ∧
      te.contacts.map TouchContact.pointer_id = (List.range (payload.getD 8 0).toNat).map fun i =>
        payload.getD (9 + i * TouchContact.size) 0 := by
  rw [TouchEvent.decode, if_neg (by omega)]
  dsimp only
  rw [if_neg (not_not.2 h)]
  refine ⟨_, rfl, ?_⟩
  rw [List.map_map]
  rfl

omit [Windows] [BuildProfile] in
/-- The ids of a snapshot are those of its message. -/
theorem ReadConfig.touchSnapshot_ids {c : ReadConfig} (htouch : c.disable_touch = false)
    (te : TouchEvent) : (c.touchSnapshot te).map TouchPoint.id =
      (te.contacts.map TouchContact.pointer_id).map UInt8.toUInt32 := by
  rw [touchSnapshot, htouch, if_neg Bool.false_ne_true, List.map_map, List.map_map]
  rfl

omit [Windows] [BuildProfile] in
theorem ReadConfig.readLoop_touch (c : ReadConfig) {payload : List UInt8} {te : TouchEvent}
    (h : TouchEvent.decode payload = .ok te) (reply_ok : Bool) (rest : List ReadResult) :
    (c.readLoop (.frame msgTouchEvent payload reply_ok :: rest)).1 =
      .injectTouch (c.touchSnapshot te) :: (c.readLoop rest).1 := by
  have hmsg : c.handleMessage msgTouchEvent payload reply_ok =
      (some (.injectTouch (c.touchSnapshot te)), none) := by
    rw [handleMessage, if_neg (by decide), if_pos rfl, h]
  rw [readLoop, hmsg]
  rfl

/-! ### The array of a call -/

/-- The array that `inject_touch` makes of a snapshot, before it asserts its length. -/
def touchArray (w : World) (snapshot : List TouchPoint) : Outcome (List PointerTouchInfo) :=
  touchFrames (Windows.screen w.log.length) w.inj.last_touch_pos
    (lostContacts w.log.length w.inj.last_touch_pos snapshot) snapshot

/-- The array of the call fits the touch device, so that the assertion holds, and names no contact twice. -/
def TouchWithin (w : World) : Call → Prop
  | .injectTouch snapshot => ∀ infos, touchArray w snapshot = .ok infos →
      infos.length ≤ maxTouchContacts ∧ (infos.map (·.pointerInfo.pointerId)).Nodup
  | _ => True

/-- What a touch call hands to Windows is its array. -/
theorem injectTouch_hands {w : World} {snapshot : List TouchPoint} {infos : List PointerTouchInfo}
    {ok : Bool} (h : (w.step (.injectTouch snapshot)).log = w.log ++ [(.injectTouch infos, ok)]) :
    touchArray w snapshot = .ok infos := by
  have hne : w.log ≠ w.log ++ [(.injectTouch infos, ok)] := by simp
  rw [World.step, Call.method] at h
  rcases injectTouch_cases snapshot w with ⟨e, hexec⟩ | ⟨hexec, -⟩ | ⟨infos', hframes, hexec⟩
  · rw [hexec] at h
    exact absurd h hne
  · rw [hexec] at h
    exact absurd h hne
  · rw [hexec] at h
    have hlast : ∃ ok', w.log ++ [(OsCall.injectTouch infos', ok')] =
        w.log ++ [(OsCall.injectTouch infos, ok)] := by
      split at h
      · exact ⟨true, h⟩
      · exact ⟨false, h⟩
    obtain ⟨ok', hlast⟩ := hlast
    cases List.append_cancel_left hlast
    exact hframes

/-! ### When a call makes an array -/

/-- No edge of a frame at this point overflows, or the build lets it. -/
def Placeable (screen : VirtualScreen) (x y : ℤ) : Prop :=
  BuildProfile.overflowChecks = true →
    (-2 ^ 31 ≤ x - screen.x ∧ x - screen.x + 1 < 2 ^ 31) ∧
      (-2 ^ 31 ≤ y - screen.y ∧ y - screen.y + 1 < 2 ^ 31)

section Build

omit [Windows]

/-- The sum or difference of two `i32`, whose exact value is `v`. -/
def resultI32 (v : ℤ) : Outcome ℤ :=
  if -2 ^ 31 ≤ v ∧ v < 2 ^ 31 then .ok v else overflow (Int.bmod v (2 ^ 32))

theorem subI32_eq (a b : ℤ) : subI32 a b = resultI32 (a - b) := rfl

theorem addI32_eq (a b : ℤ) : addI32 a b = resultI32 (a + b) := rfl

theorem resultI32_eq_ok (hbuild : BuildProfile.overflowChecks = true) {v k : ℤ} :
    resultI32 v = .ok k ↔ (-2 ^ 31 ≤ v ∧ v < 2 ^ 31) ∧ v = k := by
  rw [resultI32]
  split
  case isTrue h =>
    rw [Except.ok.injEq]
    exact (and_iff_right h).symm
  case isFalse h =>
    rw [overflow, if_pos hbuild]
    exact iff_of_false (fun hok => by cases hok) fun hand => h hand.1

theorem exists_resultI32 (hbuild : BuildProfile.overflowChecks = false) (v : ℤ) :
    ∃ k, resultI32 v = .ok k := by
  rw [resultI32, overflow, hbuild, if_neg Bool.false_ne_true]
  split
  · exact ⟨_, rfl⟩
  · exact ⟨_, rfl⟩

theorem exists_makeTouchInfo {screen : VirtualScreen} {id : UInt32} {x y kx ky right bottom : ℤ}
    {flags : UInt32} (hkx : subI32 x screen.x = .ok kx) (hky : subI32 y screen.y = .ok ky)
    (hright : addI32 kx 1 = .ok right) (hbottom : addI32 ky 1 = .ok bottom) :
    ∃ f, makeTouchInfo screen id x y flags = .ok f :=
  ⟨_, Outcome.bind_eq_ok.2 ⟨kx, hkx, Outcome.bind_eq_ok.2 ⟨ky, hky, Outcome.bind_eq_ok.2 ⟨right, hright,
    Outcome.bind_eq_ok.2 ⟨bottom, hbottom, rfl⟩⟩⟩⟩⟩

theorem exists_makeTouchInfo_iff {screen : VirtualScreen} {id : UInt32} {x y : ℤ} {flags : UInt32} :
    (∃ f, makeTouchInfo screen id x y flags = .ok f) ↔ Placeable screen x y := by
  cases hbuild : BuildProfile.overflowChecks with
  | false =>
      refine iff_of_true ?_ fun h => absurd (hbuild.symm.trans h) Bool.false_ne_true
      obtain ⟨kx, hkx⟩ := exists_resultI32 hbuild (x - screen.x)
      obtain ⟨ky, hky⟩ := exists_resultI32 hbuild (y - screen.y)
      obtain ⟨right, hright⟩ := exists_resultI32 hbuild (kx + 1)
      obtain ⟨bottom, hbottom⟩ := exists_resultI32 hbuild (ky + 1)
      exact exists_makeTouchInfo hkx hky hright hbottom
  | true =>
      constructor
      · rintro ⟨f, h⟩ -
        obtain ⟨kx, hkx, h⟩ := Outcome.bind_eq_ok.1 h
        obtain ⟨ky, hky, h⟩ := Outcome.bind_eq_ok.1 h
        obtain ⟨right, hright, h⟩ := Outcome.bind_eq_ok.1 h
        obtain ⟨bottom, hbottom, -⟩ := Outcome.bind_eq_ok.1 h
        rw [subI32_eq, resultI32_eq_ok hbuild] at hkx hky
        rw [addI32_eq, resultI32_eq_ok hbuild] at hright hbottom
        obtain ⟨hx, rfl⟩ := hkx
        obtain ⟨hy, rfl⟩ := hky
        exact ⟨⟨hx.1, hright.1.2⟩, hy.1, hbottom.1.2⟩
      · intro h
        obtain ⟨hx, hy⟩ := h hbuild
        have hkx := (resultI32_eq_ok hbuild).2 ⟨⟨hx.1, by omega⟩, rfl⟩
        have hky := (resultI32_eq_ok hbuild).2 ⟨⟨hy.1, by omega⟩, rfl⟩
        have hright := (resultI32_eq_ok hbuild).2 ⟨⟨by omega, hx.2⟩, rfl⟩
        have hbottom := (resultI32_eq_ok hbuild).2 ⟨⟨by omega, hy.2⟩, rfl⟩
        exact exists_makeTouchInfo hkx hky hright hbottom

omit [BuildProfile] in
/-- A loop returns where it does for every element. -/
theorem exists_mapM_iff {α β : Type} {g : α → Outcome β} {xs : List α} :
    (∃ ys, xs.mapM g = .ok ys) ↔ ∀ x ∈ xs, ∃ y, g x = .ok y := by
  constructor
  · rintro ⟨ys, h⟩ x hx
    obtain ⟨y, -, hy⟩ := exists_of_mem_left (mapM_eq_ok h) hx
    exact ⟨y, hy⟩
  · intro h
    induction xs with
    | nil => exact ⟨[], rfl⟩
    | cons x xs ih =>
        obtain ⟨y, hy⟩ := h x List.mem_cons_self
        obtain ⟨ys, hys⟩ := ih fun x' hx' => h x' (List.mem_cons_of_mem x hx')
        refine ⟨y :: ys, ?_⟩
        rw [List.mapM_cons]
        exact Outcome.bind_eq_ok.2 ⟨y, hy, Outcome.bind_eq_ok.2 ⟨ys, hys, rfl⟩⟩

end Build

/-- The contacts of `last` that have gone from the snapshot. -/
def gone (last : List (UInt32 × ℤ × ℤ)) (snapshot : List TouchPoint) : List (UInt32 × ℤ × ℤ) :=
  last.filter fun pos => pos.1 ∉ snapshot.map TouchPoint.id

/-- Every contact of the call can be placed: those of the snapshot, and those that have gone where they
were. -/
def Placed (w : World) (snapshot : List TouchPoint) : Prop :=
  (∀ tp ∈ snapshot, Placeable (Windows.screen w.log.length) tp.x tp.y) ∧
    ∀ pos ∈ gone w.inj.last_touch_pos snapshot,
      Placeable (Windows.screen w.log.length) pos.2.1 pos.2.2

/-- A release build places every contact. -/
theorem placed_of_unchecked (hbuild : BuildProfile.overflowChecks = false) (w : World)
    (snapshot : List TouchPoint) : Placed w snapshot := by
  have hplaceable : ∀ screen x y, Placeable screen x y := by
    intro screen x y h
    exact absurd (hbuild.symm.trans h) Bool.false_ne_true
  exact ⟨fun tp _ => hplaceable _ _ _, fun pos _ => hplaceable _ _ _⟩

omit [BuildProfile] in
theorem lostContacts_perm (n : ℕ) (last : List (UInt32 × ℤ × ℤ)) (snapshot : List TouchPoint) :
    (lostContacts n last snapshot).Perm (gone last snapshot) := by
  have hsame : (fun pos : UInt32 × ℤ × ℤ => !snapshot.any fun tp => tp.id == pos.1) =
      fun pos => decide (pos.1 ∉ snapshot.map TouchPoint.id) := by
    funext pos
    rw [Bool.eq_iff_iff, Bool.not_eq_true', List.any_eq_false]
    simp
  rw [lostContacts, gone, hsame]
  exact (Windows.touchOrder_perm n last).filter _

theorem exists_touchArray_iff {w : World} {snapshot : List TouchPoint} :
    (∃ infos, touchArray w snapshot = .ok infos) ↔ Placed w snapshot := by
  have hdown : (∃ down, (snapshot.zipIdx.mapM fun p : TouchPoint × ℕ =>
      makeTouchInfo (Windows.screen w.log.length) p.1.id p.1.x p.1.y
        (touchFlags (w.inj.last_touch_pos.any fun pos => pos.1 == p.1.id) p.2)) = .ok down) ↔
      ∀ tp ∈ snapshot, Placeable (Windows.screen w.log.length) tp.x tp.y := by
    rw [exists_mapM_iff]
    simp only [exists_makeTouchInfo_iff]
    constructor
    · intro h tp htp
      obtain ⟨i, hi⟩ := List.mem_iff_getElem?.1 htp
      exact h (tp, i) (List.mem_zipIdx_iff_getElem?.2 hi)
    · intro h p hp
      exact h p.1 (List.fst_mem_of_mem_zipIdx hp)
  have hup : (∃ up, ((lostContacts w.log.length w.inj.last_touch_pos snapshot).mapM
      fun pos : UInt32 × ℤ × ℤ => makeTouchInfo (Windows.screen w.log.length) pos.1 pos.2.1 pos.2.2
        pointerFlagUp) = .ok up) ↔
      ∀ pos ∈ gone w.inj.last_touch_pos snapshot,
        Placeable (Windows.screen w.log.length) pos.2.1 pos.2.2 := by
    rw [exists_mapM_iff]
    simp only [exists_makeTouchInfo_iff, (lostContacts_perm _ _ _).mem_iff]
  rw [Placed, ← hdown, ← hup]
  constructor
  · rintro ⟨infos, h⟩
    obtain ⟨down, hd, h⟩ := Outcome.bind_eq_ok.1 h
    obtain ⟨up, hu, -⟩ := Outcome.bind_eq_ok.1 h
    exact ⟨⟨down, hd⟩, up, hu⟩
  · rintro ⟨⟨down, hd⟩, up, hu⟩
    exact ⟨_, Outcome.bind_eq_ok.2 ⟨down, hd, Outcome.bind_eq_ok.2 ⟨up, hu, rfl⟩⟩⟩

/-! ### When it is within the limits -/

/-- The snapshot lists each contact once, and leaves room in the device for those that have gone; a call that
cannot place a contact makes no array. -/
def TouchFits (w : World) : Call → Prop
  | .injectTouch snapshot => Placed w snapshot → (snapshot.map TouchPoint.id).Nodup ∧
      snapshot.length + (gone w.inj.last_touch_pos snapshot).length ≤ maxTouchContacts
  | _ => True

/-- The length and the ids of an array. -/
theorem touchArray_ids {w : World} {snapshot : List TouchPoint} {infos : List PointerTouchInfo}
    (h : touchArray w snapshot = .ok infos) : infos.map (·.pointerInfo.pointerId) =
      snapshot.map TouchPoint.id ++
        (lostContacts w.log.length w.inj.last_touch_pos snapshot).map Prod.fst :=
  touchFrames_ids h

theorem touchArray_length {w : World} {snapshot : List TouchPoint} {infos : List PointerTouchInfo}
    (h : touchArray w snapshot = .ok infos) :
    infos.length = snapshot.length + (gone w.inj.last_touch_pos snapshot).length := by
  have hlen := congrArg List.length (touchArray_ids h)
  rw [List.length_append, List.length_map, List.length_map, List.length_map,
    (lostContacts_perm _ _ _).length_eq] at hlen
  exact hlen

/-- An id is repeated in an array only where it is in the snapshot. -/
theorem touchArray_nodup_iff {w : World} {snapshot : List TouchPoint} {infos : List PointerTouchInfo}
    (hpos : (w.inj.last_touch_pos.map Prod.fst).Nodup) (h : touchArray w snapshot = .ok infos) :
    (infos.map (·.pointerInfo.pointerId)).Nodup ↔ (snapshot.map TouchPoint.id).Nodup := by
  have hlost : ((lostContacts w.log.length w.inj.last_touch_pos snapshot).map Prod.fst).Nodup := by
    have hperm := (Windows.touchOrder_perm w.log.length w.inj.last_touch_pos).map Prod.fst
    exact (hperm.nodup_iff.2 hpos).sublist (List.filter_sublist.map Prod.fst)
  rw [touchArray_ids h, List.nodup_append]
  constructor
  · intro hall
    exact hall.1
  · intro hsnapshot
    refine ⟨hsnapshot, hlost, ?_⟩
    rintro id hid _ hid' rfl
    obtain ⟨pos, hpos, rfl⟩ := List.mem_map.1 hid'
    exact (mem_lostContacts.1 hpos).2 hid

/-- **One call.** -/
theorem touchWithin_iff {w : World} (hpos : (w.inj.last_touch_pos.map Prod.fst).Nodup) (call : Call) :
    TouchWithin w call ↔ TouchFits w call := by
  cases call with
  | injectPen sample => exact Iff.rfl
  | setPenProfile profile => exact Iff.rfl
  | injectTouch snapshot =>
      constructor
      · intro h hplaced
        obtain ⟨infos, harray⟩ := exists_touchArray_iff.2 hplaced
        obtain ⟨hlen, hids⟩ := h infos harray
        rw [touchArray_length harray] at hlen
        exact ⟨(touchArray_nodup_iff hpos harray).1 hids, hlen⟩
      · intro h infos harray
        obtain ⟨hids, hlen⟩ := h (exists_touchArray_iff.1 ⟨infos, harray⟩)
        rw [← touchArray_length harray] at hlen
        exact ⟨hlen, (touchArray_nodup_iff hpos harray).2 hids⟩

/-! ### Runs -/

/-- The calls for the pen do not touch the record of the contacts. -/
theorem last_touch_pos_injectPen (w : World) (sample : PenSample) :
    (w.step (.injectPen sample)).inj.last_touch_pos = w.inj.last_touch_pos := by
  rcases injectPen_parts sample w with ⟨w', hsent, hstep⟩ | ⟨w', hwrote, eraser, in_range, in_contact, hstep⟩
  · obtain ⟨-, sticky, hinj⟩ := hsent
    rw [hstep, hinj]
  · obtain ⟨-, vmulti, hinj⟩ := hwrote
    rw [hstep]
    show w'.inj.last_touch_pos = _
    rw [hinj]
    rfl

theorem last_touch_pos_setPenProfile (w : World) (profile : PenButtonProfile) :
    (w.step (.setPenProfile profile)).inj.last_touch_pos = w.inj.last_touch_pos := by
  rw [World.step, Call.method, setPenProfile_exec]

/-- **The record holds each contact once**, whatever the snapshots repeat. -/
theorem last_touch_pos_nodup {w : World} (h : (w.inj.last_touch_pos.map Prod.fst).Nodup) (call : Call) :
    ((w.step call).inj.last_touch_pos.map Prod.fst).Nodup := by
  cases call with
  | injectPen sample =>
      rw [last_touch_pos_injectPen]
      exact h
  | setPenProfile profile =>
      rw [last_touch_pos_setPenProfile]
      exact h
  | injectTouch snapshot =>
      rw [World.step, Call.method]
      rcases injectTouch_cases snapshot w with ⟨e, hexec⟩ | ⟨hexec, -⟩ | ⟨infos, -, hexec⟩
      · rw [hexec]
        exact h
      · rw [hexec]
        exact h
      · rw [hexec]
        split
        · exact foldl_insertPos_nodup (m := []) List.nodup_nil snapshot
        · exact h

omit [Windows] [BuildProfile] in
theorem last_touch_pos_new (found : Bool) :
    ((World.new found).inj.last_touch_pos.map Prod.fst).Nodup := List.nodup_nil

/-- Any calls, from any state in which the record holds each contact once. -/
theorem touchWithin_steps_iff {w : World} (hw : (w.inj.last_touch_pos.map Prod.fst).Nodup)
    (calls : List Call) :
    Run.Steps World.step TouchWithin w calls ↔ Run.Steps World.step TouchFits w calls := by
  induction calls generalizing w with
  | nil => exact Iff.rfl
  | cons call calls ih =>
      rw [Run.Steps, Run.Steps, touchWithin_iff hw, ih (last_touch_pos_nodup hw call)]

/-- **When touch frames stay within the device.**  In a run of the read loop every array is within the limits
exactly when every snapshot lists each contact once and leaves room for the contacts that have gone. -/
theorem touch_within_iff (c : ReadConfig) (reads : List ReadResult) (found : Bool)
    (profile : PenButtonProfile) :
    Run.Steps World.step TouchWithin ((World.new found).step (.setPenProfile profile))
        (c.readLoop reads).1 ↔
      Run.Steps World.step TouchFits ((World.new found).step (.setPenProfile profile))
        (c.readLoop reads).1 := by
  apply touchWithin_steps_iff
  exact last_touch_pos_nodup (last_touch_pos_new found) _

/-- A touch message with eleven contacts, all of them at the origin. -/
def elevenFingers : List UInt8 :=
  List.replicate 8 0 ++ 11 :: (List.range 11).flatMap fun i => UInt8.ofNat i :: List.replicate 12 0

omit [Windows] [BuildProfile] in
/-- A first message with eleven fingers, in a release build: Windows gets eleven frames. -/
theorem not_touch_within_eleven :
    letI := Windows.acceptsEvery
    letI : BuildProfile := ⟨false⟩
    ¬ Run.Steps World.step TouchWithin ((World.new false).step (.setPenProfile .default))
      (ReadConfig.readLoop ⟨⟨1, 0, 0, 1, 0, 0⟩, 1920, 1080, false⟩
        [.frame msgTouchEvent elevenFingers true]).1 := by
  let _ := Windows.acceptsEvery
  let _ : BuildProfile := ⟨false⟩
  have hmessage : elevenFingers.length = 9 + (elevenFingers.getD 8 0).toNat * TouchContact.size := by
    decide +kernel
  obtain ⟨te, hte, hids⟩ := TouchEvent.decode_of_length hmessage
  rw [ReadConfig.readLoop_touch _ hte]
  rintro ⟨hwithin, -⟩
  rw [touchWithin_iff (last_touch_pos_nodup (last_touch_pos_new false) _)] at hwithin
  obtain ⟨-, hle⟩ := hwithin (placed_of_unchecked rfl _ _)
  have hlen := congrArg List.length (ReadConfig.touchSnapshot_ids (c := ⟨⟨1, 0, 0, 1, 0, 0⟩, 1920, 1080, false⟩)
    rfl te)
  rw [hids, List.length_map, List.length_map, List.length_map, List.length_range] at hlen
  have heleven : (elevenFingers.getD 8 0).toNat = 11 := by decide +kernel
  rw [hlen, heleven, maxTouchContacts] at hle
  omega

end Penflow
