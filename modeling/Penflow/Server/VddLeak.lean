import Penflow.Server.Vdd

/-!
# No virtual display is left behind

While the device is enabled and nobody who was told to stop is going to disable it, the controller has to
be: either its flag is set, or it is on the way to a `devcon disable`.  The steps that break this are those
of `Calm`, and along a run without them a dropped controller leaves no device behind.
-/

namespace Penflow

/-- The helper has enabled the device, and its `devcon disable` is ahead. -/
def HelperPlace.disableAhead : HelperPlace → Bool
  | .started | .watching | .leaving => true
  | _ => false

/-- The helper has disabled the device, and its exit code is not an error. -/
def HelperPlace.hasDisabled : HelperPlace → Bool
  | .verifying => true
  | .exiting code | .exited code => code == 0
  | _ => false

/-- The helper was told to stop, and is going to disable the device. -/
def HelperProcess.told (h : HelperProcess) : Bool := h.stop_event && h.place.disableAhead

theorem HelperProcess.told_of_past {h : HelperProcess} (hpast : h.place.disableAhead = false) :
    h.told = false := by
  rw [told, hpast, Bool.and_false]

namespace ParentPlace

/-- In these places the controller has no resident helper. -/
def withoutResident : ParentPlace → Bool
  | .spawnWait _ | .oneShotWait _ .disable | .shutdown _ | .dropHelper _ _ | .fallback
  | .verifyDisabled => true
  | _ => false

/-- These are no places of a drop. -/
def outsideDrop : ParentPlace → Bool
  | .idle | .verifyStarted | .spawnWait _ | .oneShotWait _ .enable => true
  | _ => false

end ParentPlace

namespace Vdd

def told (s : Vdd) : Bool := s.helpers.any HelperProcess.told

def hasDisabled (s : Vdd) (i : ℕ) : Bool := s.helpers[i]?.any fun h => h.place.hasDisabled

def residentDone (s : Vdd) : Bool := s.resident.any s.hasDisabled

/-- The helper was launched for a `devcon disable` that is ahead. -/
def isAhead (s : Vdd) (k : ℕ) : Bool :=
  s.oneShots[k]?.any fun o => o.action == .disable && o.place == .ahead

/-- The device is disabled (the last command that succeeded is no `enable`), a helper was told to stop and
is going to disable it, or some `devcon disable` failed. -/
def Kept (s : Vdd) : Prop :=
  s.device ≠ some .enable ∨ (∃ h ∈ s.helpers, h.told = true) ∨ s.disable_failed = true

/-- No `devcon disable` failed, and no helper that was told to stop is going to disable the device. -/
def unguarded (s : Vdd) : Bool := !s.told && !s.disable_failed

/-- The device is enabled besides. -/
def exposed (s : Vdd) : Bool := s.device == some .enable && s.unguarded

theorem kept_iff {s : Vdd} : s.Kept ↔ s.exposed = false := by
  have htold : s.told = true ↔ ∃ h ∈ s.helpers, h.told = true := by
    rw [told, List.any_eq_true]
  rw [Kept, ← htold, exposed, unguarded]
  cases s.told <;> cases s.disable_failed <;> simp

/-- The controller still has its `devcon disable` before it. -/
def pending (s : Vdd) : Bool :=
  match s.place with
  | .idle | .oneShotWait _ .enable => s.enabled && !s.residentDone
  | .verifyStarted => true
  | .spawnWait i => !s.hasDisabled i
  | .oneShotWait k .disable => s.enabled && s.isAhead k
  | .shutdown i => s.enabled && !s.hasDisabled i
  | .dropHelper _ needs_fallback => s.enabled && needs_fallback
  | .fallback => s.enabled
  | .verifyDisabled | .dropResident _ | .gone => false

/-- A helper that enables the device leaves nobody without a `devcon disable` to come. -/
def enablesPending (s : Vdd) (run : DevconRun) : Prop :=
  s.unguarded = true → devconAction .enable s.instance_id run = .ok () → s.pending = true

/-- **The calm steps.**  While the device is enabled and nobody else is going to disable it,
an elevated `enable` whose verify fails finds the flag set, and ends before the resident helper has done
its disable; `spawn_resident_helper` gives up only with the flag set; the fallback of a drop comes to its
`devcon disable`, and that of a `disable` does not succeed without.  A helper enables the device only while
the controller has still to disable it. -/
def Calm (s : Vdd) : VddLabel → Prop
  | .verifyStarted a => s.exposed = true → s.place = .verifyStarted →
      (verifyDevnodeStarted s.instance_id a = .ok () ∨ s.enabled = true) ∧ s.residentDone = false
  | .spawnWaitOver r _ => ∀ i, s.exposed = true → s.place = .spawnWait i →
      r = .object0 ∨ s.enabled = true
  | .fallback elevated _ launch => s.exposed = true → s.place = .fallback → s.dropping = true →
      elevated = true ∨ launch = .started
  | .oneShotWaitOver _ read => ∀ k, s.exposed = true → s.place = .oneShotWait k .disable →
      s.isAhead k = true → s.dropping = false ∧ read = true
  | .helperEnables i run => ∀ h, s.helpers[i]? = some h → h.place = .opened → s.enablesPending run
  | .oneShotRuns k run => ∀ o, s.oneShots[k]? = some o → o.action = .enable → o.place = .ahead →
      s.enablesPending run
  | _ => True

/-! ### What stays -/

/-- The device is exposed only if it was, no helper has disabled it that had not, and every command ahead
is ahead. -/
structure Frame (s s' : Vdd) : Prop where
  exposed : s'.exposed = true → s.exposed = true
  done : ∀ i, s'.hasDisabled i = true → s.hasDisabled i = true
  ahead : ∀ k, s.isAhead k = true → s'.isAhead k = true

variable {s s' : Vdd}

theorem Frame.trans {s'' : Vdd} (h : Frame s s') (h' : Frame s' s'') : Frame s s'' where
  exposed := fun he => h.exposed (h'.exposed he)
  done := fun i hi => h.done i (h'.done i hi)
  ahead := fun k hk => h'.ahead k (h.ahead k hk)

theorem Frame.not_done (h : Frame s s') {i : ℕ} (hi : s.hasDisabled i = false) :
    s'.hasDisabled i = false := by
  rw [← Bool.not_eq_true] at hi ⊢
  exact fun h' => hi (h.done i h')

/-- The helper at `i`, if there is one, was told to stop and is going to disable the device. -/
def toldAt (s : Vdd) (i : ℕ) : Bool := s.helpers[i]?.any HelperProcess.told

theorem told_iff : s.told = true ↔ ∃ i, s.toldAt i = true := by
  simp only [told, List.any_eq_true, List.mem_iff_getElem?, toldAt, Option.any_eq_true]
  constructor
  · rintro ⟨h, ⟨i, hi⟩, ht⟩
    exact ⟨i, h, hi, ht⟩
  · rintro ⟨i, h, hi, ht⟩
    exact ⟨h, ⟨i, hi⟩, ht⟩

theorem frame_of_told (hdevice : s'.device = s.device) (hfailed : s'.disable_failed = s.disable_failed)
    (htold : ∀ i, s.toldAt i = true → s'.toldAt i = true)
    (hdone : ∀ i, s'.hasDisabled i = true → s.hasDisabled i = true)
    (hahead : ∀ k, s.isAhead k = true → s'.isAhead k = true) : Frame s s' where
  exposed := by
    intro h
    simp only [exposed, unguarded, hdevice, hfailed, Bool.and_eq_true, Bool.not_eq_true'] at h ⊢
    obtain ⟨hdev, hnot, hfail⟩ := h
    refine ⟨hdev, ?_, hfail⟩
    rw [← Bool.not_eq_true] at hnot ⊢
    intro ht
    obtain ⟨i, hi⟩ := told_iff.1 ht
    exact hnot (told_iff.2 ⟨i, htold i hi⟩)
  done := hdone
  ahead := hahead

/-- A helper that takes a step without a command of devcon. -/
theorem frame_setHelper {i : ℕ} {h h' : HelperProcess} (hi : s.helpers[i]? = some h)
    (htold : h.told = true → h'.told = true)
    (hdone : h'.place.hasDisabled = true → h.place.hasDisabled = true) :
    Frame s (s.setHelper i h') := by
  have hlength : i < s.helpers.length := (List.getElem?_eq_some_iff.1 hi).1
  apply frame_of_told
  · rfl
  · rfl
  · intro j hj
    simp only [toldAt, setHelper, List.getElem?_set, hlength, if_true] at hj ⊢
    split
    · rename_i hij
      rw [← hij, hi] at hj
      exact htold hj
    · exact hj
  · intro j hj
    simp only [hasDisabled, setHelper, List.getElem?_set, hlength, if_true] at hj ⊢
    split at hj
    · rename_i hij
      rw [← hij, hi]
      exact hdone hj
    · exact hj
  · exact fun _ hk => hk

/-- The parent does something to a helper that does not move it. -/
theorem frame_modify {i : ℕ} {f : HelperProcess → HelperProcess}
    (htold : ∀ h : HelperProcess, h.told = true → (f h).told = true)
    (hplace : ∀ h : HelperProcess, (f h).place = h.place) :
    Frame s { s with helpers := s.helpers.modify i f } := by
  apply frame_of_told
  · rfl
  · rfl
  · intro j hj
    simp only [toldAt, List.getElem?_modify] at hj ⊢
    cases hs : s.helpers[j]? with
    | none =>
        rw [hs] at hj
        cases hj
    | some h =>
        rw [hs] at hj
        split
        · exact htold h hj
        · exact hj
  · intro j hj
    simp only [hasDisabled, List.getElem?_modify] at hj ⊢
    cases hs : s.helpers[j]? with
    | none =>
        rw [hs] at hj
        cases hj
    | some h =>
        rw [hs] at hj
        split at hj
        · exact (congrArg HelperPlace.hasDisabled (hplace h)).symm.trans hj
        · exact hj
  · exact fun _ hk => hk

theorem frame_setStop (i : ℕ) (set : Bool) : Frame s (s.setStop i set) := by
  apply frame_modify
  · intro h ht
    simp only [HelperProcess.told, Bool.and_eq_true, Bool.or_eq_true] at ht ⊢
    exact ⟨Or.inl ht.1, ht.2⟩
  · exact fun _ => rfl

theorem frame_close (i : ℕ) : Frame s (s.close i) :=
  frame_modify (fun _ ht => ht) fun _ => rfl

/-! ### Steps of the controller -/

/-- **The invariant.** -/
structure Inv (s : Vdd) : Prop where
  resident : s.resident.isSome = true → s.enabled = true
  taken : s.place.withoutResident = true → s.resident = none
  outside : s.place.outsideDrop = true → s.dropping = false
  pending : s.exposed = true → s.pending = true

theorem inv_new (instance_id : String) : (new instance_id).Inv where
  resident := nofun
  taken := nofun
  outside := fun _ => rfl
  pending := nofun

/-- A call returns where the flag is set and the resident helper has not done its disable, unless the device
is not exposed. -/
theorem inv_ret (r : Except VddError Unit) (hresident : s.resident.isSome = true → s.enabled = true)
    (h : s.exposed = true → s.dropping = false ∧ s.enabled = true ∧ s.residentDone = false) :
    (s.ret r).Inv where
  resident := hresident
  taken := by
    intro hplace
    simp only [ret, dropFields] at hplace
    split at hplace
    · split at hplace
      · cases hplace
      · cases hplace
    · cases hplace
  outside := by
    intro hplace
    simp only [ret, dropFields] at hplace ⊢
    cases hdrop : s.dropping with
    | false => rfl
    | true =>
        rw [hdrop, if_pos rfl] at hplace
        split at hplace
        · cases hplace
        · cases hplace
  pending := by
    intro hexposed
    obtain ⟨hdrop, henabled, hdone⟩ := h hexposed
    have hplace : (s.ret r).place = .idle := by
      simp only [ret, hdrop, Bool.false_eq_true, if_false]
    have hdone' : (s.ret r).residentDone = false := hdone
    simp only [Vdd.pending, hplace, hdone', Bool.not_false, Bool.and_true]
    exact henabled

theorem inv_finish (enabled : Bool) (hresident : s.resident.isSome = true → enabled = true)
    (h : s.exposed = true → s.dropping = false ∧ enabled = true ∧ s.residentDone = false) :
    (s.finish enabled).Inv :=
  inv_ret _ hresident h

theorem Inv.not_done_of_idle (hs : s.Inv) (hplace : s.place = .idle) (h : s.exposed = true) :
    s.dropping = false ∧ s.enabled = true ∧ s.residentDone = false := by
  have hp := hs.pending h
  rw [Vdd.pending, hplace] at hp
  simp only [Bool.and_eq_true, Bool.not_eq_true'] at hp
  refine ⟨hs.outside ?_, hp⟩
  rw [hplace]
  rfl

/-- A one-shot helper is launched, with its command ahead. -/
theorem frame_launch (o : OneShot) : Frame s { s with oneShots := s.oneShots ++ [o] } := by
  apply frame_of_told
  · rfl
  · rfl
  · exact fun _ h => h
  · exact fun _ h => h
  · intro k hk
    simp only [isAhead] at hk ⊢
    cases ho : s.oneShots[k]? with
    | none =>
        rw [ho] at hk
        cases hk
    | some o' =>
        have hlength := (List.getElem?_eq_some_iff.1 ho).1
        rw [List.getElem?_append_left hlength]
        exact hk

theorem isAhead_launch :
    ({ s with oneShots := s.oneShots ++ [⟨.disable, .ahead⟩] } : Vdd).isAhead s.oneShots.length = true := by
  simp only [isAhead, List.getElem?_concat_length]
  rfl

theorem hasDisabled_spawn :
    ({ s with helpers := s.helpers ++ [HelperProcess.new] } : Vdd).hasDisabled
      s.helpers.length = false := by
  simp only [hasDisabled, List.getElem?_concat_length]
  rfl

theorem inv_spawnResidentHelper (events : CreateEvents) (launch : Launch) (hs : s.Inv)
    (hplace : s.place = .idle) (hresident : s.resident = none) :
    (s.spawnResidentHelper events launch).Inv := by
  rw [spawnResidentHelper]
  cases spawnResult events launch with
  | error e => exact inv_ret _ hs.resident (hs.not_done_of_idle hplace)
  | ok u =>
      have hdrop : s.dropping = false := hs.outside (by rw [hplace]; rfl)
      refine ⟨hs.resident, fun _ => hresident, fun _ => hdrop, ?_⟩
      intro _
      simp only [Vdd.pending, Bool.not_eq_true']
      exact hasDisabled_spawn

theorem inv_runHelperElevated_enable (launch : Launch) (hs : s.Inv) (hplace : s.place = .idle) :
    (s.runHelperElevated .enable launch).Inv := by
  rw [runHelperElevated]
  cases launch.result with
  | error e => exact inv_ret _ hs.resident (hs.not_done_of_idle hplace)
  | ok u =>
      have hdrop : s.dropping = false := hs.outside (by rw [hplace]; rfl)
      refine ⟨hs.resident, nofun, fun _ => hdrop, ?_⟩
      intro hexposed
      obtain ⟨-, henabled, hdone⟩ := hs.not_done_of_idle hplace
        ((frame_launch ⟨.enable, .ahead⟩).exposed hexposed)
      simp only [Vdd.pending, Bool.and_eq_true, Bool.not_eq_true']
      exact ⟨henabled, hdone⟩

/-- A `devcon enable` that fails is no `devcon disable` that failed. -/
theorem exposed_enable_failed :
    ({ s with disable_failed := s.disable_failed || DevconAction.enable == .disable } : Vdd).exposed =
      s.exposed := by
  have hne : (DevconAction.enable == DevconAction.disable) = false := rfl
  simp only [exposed, unguarded, told, hne, Bool.or_false]

theorem inv_enable (elevated : Bool) (run : DevconRun) (events : CreateEvents) (launch : Launch)
    (hs : s.Inv) : (s.enable elevated run events launch).Inv := by
  cases hplace : s.place with
  | idle =>
      have hdrop : s.dropping = false := hs.outside (by rw [hplace]; rfl)
      have hs' : s.call.Inv := ⟨hs.resident, hs.taken, hs.outside, hs.pending⟩
      simp only [enable, hplace]
      split
      · cases hrun : devconAction .enable s.call.instance_id run with
        | error e =>
            rw [runDevcon_error .verifyStarted hrun]
            apply inv_ret
            · exact hs.resident
            · intro hexposed
              rw [exposed_enable_failed] at hexposed
              exact hs'.not_done_of_idle hplace hexposed
        | ok u =>
            rw [runDevcon_ok .verifyStarted hrun]
            exact ⟨hs.resident, nofun, fun _ => hdrop, fun _ => rfl⟩
      · split
        · rename_i hnone
          exact inv_spawnResidentHelper events launch hs' hplace (Option.isNone_iff_eq_none.1 hnone)
        · exact inv_runHelperElevated_enable launch hs' hplace
  | _ => simpa only [enable, hplace] using hs

theorem inv_verifyStarted (a : DevnodeAnswer) (hs : s.Inv) (hcalm : s.Calm (.verifyStarted a)) :
    (s.verifyStarted a).Inv := by
  cases hplace : s.place with
  | verifyStarted =>
      have hdrop : s.dropping = false := hs.outside (by rw [hplace]; rfl)
      simp only [verifyStarted, hplace]
      cases hverify : verifyDevnodeStarted s.instance_id a with
      | ok u =>
          apply inv_finish true fun _ => rfl
          exact fun hexposed => ⟨hdrop, rfl, (hcalm hexposed hplace).2⟩
      | error e =>
          apply inv_ret _ hs.resident
          intro hexposed
          obtain ⟨h, hdone⟩ := hcalm hexposed hplace
          rw [hverify] at h
          exact ⟨hdrop, h.resolve_left nofun, hdone⟩
  | _ => simpa only [verifyStarted, hplace] using hs

theorem residentDone_none (h : s.resident = none) : s.residentDone = false := by
  rw [residentDone, h]
  rfl

theorem inv_spawnWaitOver (r : WaitResult) (read : Bool) (hs : s.Inv)
    (hcalm : s.Calm (.spawnWaitOver r read)) : (s.spawnWaitOver r read).Inv := by
  cases hplace : s.place with
  | spawnWait i =>
      have hdrop : s.dropping = false := hs.outside (by rw [hplace]; rfl)
      have hnone : s.resident = none := hs.taken (by rw [hplace]; rfl)
      have hgiveUp : ∀ e, r ≠ .object0 → ((s.close i).ret (.error e)).Inv := by
        intro e hr
        apply inv_ret
        · exact hs.resident
        · intro hexposed
          have henabled := (hcalm i ((frame_close i).exposed hexposed) hplace).resolve_left hr
          exact ⟨hdrop, henabled, residentDone_none hnone⟩
      simp only [spawnWaitOver, hplace]
      cases s.helpers[i]? with
      | none => exact hs
      | some h =>
          by_cases hgives : waitGives h r = true
          · simp only [hgives, if_true]
            cases r with
            | object0 =>
                apply inv_finish
                · exact fun _ => rfl
                · intro hexposed
                  have hpending := hs.pending hexposed
                  simp only [Vdd.pending, hplace, Bool.not_eq_true'] at hpending
                  exact ⟨hdrop, rfl, hpending⟩
            | object1 => exact hgiveUp _ nofun
            | timeout => exact hgiveUp _ nofun
            | failed => exact hgiveUp _ nofun
          · simp only [hgives, Bool.false_eq_true, if_false]
            exact hs
  | _ => simpa only [spawnWaitOver, hplace] using hs

/-- The exit code of a process that runs on is no 0, unless it could not be read. -/
theorem readExitCode_ne_zero : readExitCode true none ≠ 0 := by decide

theorem inv_oneShotWaitOver_enable {k : ℕ} (code : UInt32) (hs : s.Inv)
    (hplace : s.place = .oneShotWait k .enable) :
    (if code = 0 then s.finish true
      else s.ret (.error (.helperExitedNonZero (some code.toInt32)))).Inv := by
  have hdrop : s.dropping = false := hs.outside (by rw [hplace]; rfl)
  have hpending : s.exposed = true → s.enabled = true ∧ s.residentDone = false := by
    intro hexposed
    have h := hs.pending hexposed
    simpa only [Vdd.pending, hplace, Bool.and_eq_true, Bool.not_eq_true'] using h
  split
  · apply inv_finish
    · exact fun _ => rfl
    · exact fun hexposed => ⟨hdrop, rfl, (hpending hexposed).2⟩
  · apply inv_ret
    · exact hs.resident
    · exact fun hexposed => ⟨hdrop, hpending hexposed⟩

theorem inv_oneShotWaitOver_disable {k : ℕ} {o : OneShot} (object0 read : Bool) (hs : s.Inv)
    (hplace : s.place = .oneShotWait k .disable) (ho : s.oneShots[k]? = some o)
    (hcalm : s.Calm (.oneShotWaitOver object0 read)) :
    (if readExitCode read o.place.exitStatus = 0 then s.finish false
      else s.ret (.error (.helperExitedNonZero
        (some (readExitCode read o.place.exitStatus).toInt32)))).Inv := by
  have hnone : s.resident = none := hs.taken (by rw [hplace]; rfl)
  -- an exposed device has the command still ahead
  have hpending : s.exposed = true → s.enabled = true ∧ s.isAhead k = true := by
    intro hexposed
    have h := hs.pending hexposed
    simpa only [Vdd.pending, hplace, Bool.and_eq_true] using h
  split
  · rename_i hcode
    apply inv_finish
    · rw [hnone]
      exact nofun
    · intro hexposed
      have hahead := (hpending hexposed).2
      have hread := (hcalm k hexposed hplace hahead).2
      simp only [isAhead, ho, Option.any_some, Bool.and_eq_true, beq_iff_eq] at hahead
      rw [hread, hahead.2] at hcode
      exact absurd hcode readExitCode_ne_zero
  · apply inv_ret
    · exact hs.resident
    · intro hexposed
      obtain ⟨henabled, hahead⟩ := hpending hexposed
      exact ⟨(hcalm k hexposed hplace hahead).1, henabled, residentDone_none hnone⟩

theorem inv_oneShotWaitOver (object0 read : Bool) (hs : s.Inv)
    (hcalm : s.Calm (.oneShotWaitOver object0 read)) : (s.oneShotWaitOver object0 read).Inv := by
  cases hplace : s.place with
  | oneShotWait k action =>
      simp only [oneShotWaitOver, hplace]
      cases ho : s.oneShots[k]? with
      | none => exact hs
      | some o =>
          by_cases hexited : object0 = true → o.place.exitStatus.isSome = true
          · simp only [if_pos hexited]
            cases action with
            | enable => exact inv_oneShotWaitOver_enable _ hs hplace
            | disable => exact inv_oneShotWaitOver_disable object0 read hs hplace ho hcalm
          · simp only [if_neg hexited]
            exact hs
  | _ => simpa only [oneShotWaitOver, hplace] using hs

/-- A `disable` begins, on its own or in a drop. -/
theorem inv_beginDisable (set : Bool)
    (h : s.exposed = true → s.enabled = true ∧ s.residentDone = false) : (s.beginDisable set).Inv := by
  rw [beginDisable]
  cases hresident : s.resident with
  | none => exact ⟨fun h' => (Bool.false_ne_true (hresident ▸ h' : none.isSome = true)).elim,
      fun _ => hresident, nofun, fun hexposed => (h hexposed).1⟩
  | some i =>
      refine ⟨nofun, fun _ => rfl, nofun, ?_⟩
      intro hexposed
      have hframe : Frame s (s.setStop i set) := frame_setStop i set
      obtain ⟨henabled, hdone⟩ := h (hframe.exposed hexposed)
      rw [residentDone, hresident] at hdone
      have hdone' := hframe.not_done hdone
      simp only [Vdd.pending, Bool.and_eq_true, Bool.not_eq_true']
      exact ⟨henabled, hdone'⟩

theorem inv_disable (set : Bool) (hs : s.Inv) : (s.disable set).Inv := by
  cases hplace : s.place with
  | idle =>
      simp only [disable, hplace]
      exact inv_beginDisable set fun hexposed => (hs.not_done_of_idle hplace hexposed).2
  | _ => simpa only [disable, hplace] using hs

theorem inv_drop (set : Bool) (hs : s.Inv) : (s.drop set).Inv := by
  cases hplace : s.place with
  | idle =>
      simp only [drop, hplace]
      split
      · exact inv_beginDisable set fun hexposed => (hs.not_done_of_idle hplace hexposed).2
      · rename_i henabled
        refine ⟨hs.resident, ?_, ?_, ?_⟩
        · simp only [dropFields]
          split
          · exact nofun
          · exact nofun
        · simp only [dropFields]
          split
          · exact nofun
          · exact nofun
        · exact fun hexposed => absurd (hs.not_done_of_idle hplace hexposed).2.1 henabled
  | _ => simpa only [drop, hplace] using hs

/-- A clean shutdown is an exit code 0. -/
theorem exited_of_clean {object0 read : Bool} {exited : Option UInt32}
    (h : shutdownOutcome object0 read exited = .clean) : exited = some 0 := by
  rw [shutdownOutcome] at h
  cases object0 with
  | false => cases h
  | true =>
      cases read with
      | false => cases h
      | true =>
          simp only [if_true, readExitCode] at h
          cases exited with
          | none => exact absurd h (by decide)
          | some code =>
              split at h
              · rename_i hcode
                exact congrArg some hcode
              · cases h

theorem hasDisabled_of_exited {p : HelperPlace} (h : p.exitStatus = some 0) : p.hasDisabled = true := by
  cases p with
  | exited code =>
      obtain rfl := Option.some.inj h
      rfl
  | _ => cases h

theorem inv_shutdownOver (object0 read : Bool) (hs : s.Inv) : (s.shutdownOver object0 read).Inv := by
  cases hplace : s.place with
  | shutdown i =>
      have hnone : s.resident = none := hs.taken (by rw [hplace]; rfl)
      simp only [shutdownOver, hplace]
      cases hh : s.helpers[i]? with
      | none => exact hs
      | some h =>
          by_cases hexited : object0 = true → h.place.exitStatus.isSome = true
          · simp only [if_pos hexited]
            refine ⟨hs.resident, fun _ => hnone, nofun, ?_⟩
            intro hexposed
            have hpending := hs.pending hexposed
            simp only [Vdd.pending, hplace, hasDisabled, hh, Option.any_some, Bool.and_eq_true,
              Bool.not_eq_true'] at hpending ⊢
            refine ⟨hpending.1, bne_iff_ne.2 ?_⟩
            intro hclean
            rw [hasDisabled_of_exited (exited_of_clean hclean)] at hpending
            cases hpending.2
          · simp only [if_neg hexited]
            exact hs
  | _ => simpa only [shutdownOver, hplace] using hs

theorem inv_helperDropped (set : Bool) (hs : s.Inv) : (s.helperDropped set).Inv := by
  cases hplace : s.place with
  | dropHelper i needs_fallback =>
      have hnone : s.resident = none := hs.taken (by rw [hplace]; rfl)
      have hframe : Frame s ((s.setStop i set).close i) := (frame_setStop i set).trans (frame_close i)
      have hpending : ((s.setStop i set).close i).exposed = true →
          s.enabled = true ∧ needs_fallback = true := by
        intro hexposed
        have h := hs.pending (hframe.exposed hexposed)
        simpa only [Vdd.pending, hplace, Bool.and_eq_true] using h
      simp only [helperDropped, hplace]
      cases needs_fallback with
      | true => exact ⟨hs.resident, fun _ => hnone, nofun, fun hexposed => (hpending hexposed).1⟩
      | false =>
          apply inv_finish
          · intro h
            exact absurd h (by rw [show ((s.setStop i set).close i).resident = none from hnone]; decide)
          · exact fun hexposed => absurd (hpending hexposed).2 Bool.false_ne_true
  | dropResident i =>
      simp only [helperDropped, hplace]
      refine ⟨nofun, nofun, nofun, ?_⟩
      intro hexposed
      have h := hs.pending (((frame_setStop i set).trans (frame_close i)).exposed hexposed)
      rw [Vdd.pending, hplace] at h
      cases h
  | _ => simpa only [helperDropped, hplace] using hs

/-- The device is disabled, or some `devcon disable` failed. -/
def Settled (s : Vdd) : Prop := s.device ≠ some .enable ∨ s.disable_failed = true

theorem Settled.not_exposed (h : s.Settled) : s.exposed ≠ true := by
  intro hexposed
  simp only [exposed, unguarded, Bool.and_eq_true, beq_iff_eq, Bool.not_eq_true'] at hexposed
  rcases h with h | h
  · exact h hexposed.1
  · rw [h] at hexposed
    cases hexposed.2.2

theorem settled_disable (run : DevconRun) : (s.devcon .disable run).Settled := by
  cases hrun : devconAction .disable s.instance_id run with
  | ok u =>
      rw [devcon_ok hrun]
      exact Or.inl nofun
  | error e =>
      rw [devcon_error hrun]
      exact Or.inr (Bool.or_true _)

theorem inv_runHelperElevated_disable (launch : Launch) (hs : s.Inv) (hplace : s.place = .fallback)
    (hcalm : s.exposed = true → s.dropping = true → launch = .started) :
    (s.runHelperElevated .disable launch).Inv := by
  have hnone : s.resident = none := hs.taken (by rw [hplace]; rfl)
  have hpending : s.exposed = true → s.enabled = true := by
    intro hexposed
    have h := hs.pending hexposed
    rwa [Vdd.pending, hplace] at h
  rw [runHelperElevated]
  cases hlaunch : launch.result with
  | error e =>
      apply inv_ret
      · exact hs.resident
      · intro hexposed
        refine ⟨?_, hpending hexposed, residentDone_none hnone⟩
        cases hdrop : s.dropping with
        | false => rfl
        | true =>
            rw [hcalm hexposed hdrop] at hlaunch
            cases hlaunch
  | ok u =>
      refine ⟨hs.resident, fun _ => hnone, nofun, ?_⟩
      intro hexposed
      have henabled := hpending ((frame_launch ⟨.disable, .ahead⟩).exposed hexposed)
      simp only [Vdd.pending, Bool.and_eq_true]
      exact ⟨henabled, isAhead_launch⟩

theorem inv_fallback (elevated : Bool) (run : DevconRun) (launch : Launch) (hs : s.Inv)
    (hcalm : s.Calm (.fallback elevated run launch)) : (s.fallback elevated run launch).Inv := by
  cases hplace : s.place with
  | fallback =>
      have hnone : s.resident = none := hs.taken (by rw [hplace]; rfl)
      simp only [fallback, hplace]
      cases helevated : elevated with
      | true =>
          have hsettled : (s.devcon .disable run).Settled := settled_disable run
          simp only [if_true]
          cases hrun : devconAction .disable s.instance_id run with
          | ok u =>
              rw [devcon_ok hrun] at hsettled
              rw [runDevcon_ok .verifyDisabled hrun]
              exact ⟨hs.resident, fun _ => hnone, nofun, fun h => absurd h (hsettled.not_exposed)⟩
          | error e =>
              rw [devcon_error hrun] at hsettled
              rw [runDevcon_error .verifyDisabled hrun]
              apply inv_ret
              · exact hs.resident
              · exact fun h => absurd h hsettled.not_exposed
      | false =>
          simp only [Bool.false_eq_true, if_false]
          apply inv_runHelperElevated_disable launch hs hplace
          intro hexposed hdrop
          exact (hcalm hexposed hplace hdrop).resolve_left (by rw [helevated]; exact Bool.false_ne_true)
  | _ => simpa only [fallback, hplace] using hs

theorem inv_verifyDisabled (polls : DevnodePolls) (hs : s.Inv) : (s.verifyDisabled polls).Inv := by
  cases hplace : s.place with
  | verifyDisabled =>
      have hnone : s.resident = none := hs.taken (by rw [hplace]; rfl)
      have hexposed : s.exposed ≠ true := by
        intro hexposed
        have h := hs.pending hexposed
        rw [Vdd.pending, hplace] at h
        cases h
      simp only [verifyDisabled, hplace]
      cases verifyDevnodeDisabled s.instance_id polls with
      | ok u =>
          apply inv_finish
          · rw [hnone]
            exact nofun
          · exact fun h => absurd h hexposed
      | error e =>
          apply inv_ret
          · exact hs.resident
          · exact fun h => absurd h hexposed
  | _ => simpa only [verifyDisabled, hplace] using hs

/-! ### Steps of the helpers -/

/-- The controller has not moved. -/
structure SameController (s s' : Vdd) : Prop where
  enabled : s'.enabled = s.enabled
  resident : s'.resident = s.resident
  place : s'.place = s.place
  dropping : s'.dropping = s.dropping

/-- What the controller has before it, it has as long as no helper has done its disable and the commands
ahead are. -/
theorem pending_of_frame (hsame : SameController s s')
    (hdone : ∀ i, s'.hasDisabled i = true → s.hasDisabled i = true)
    (hahead : ∀ k, s.isAhead k = true → s'.isAhead k = true) (h : s.pending = true) :
    s'.pending = true := by
  have hnot : ∀ i, s.hasDisabled i = false → s'.hasDisabled i = false := by
    intro i hi
    rw [← Bool.not_eq_true] at hi ⊢
    exact fun h' => hi (hdone i h')
  have hresident : s.residentDone = false → s'.residentDone = false := by
    intro hr
    rw [residentDone] at hr ⊢
    rw [hsame.resident]
    cases hres : s.resident with
    | none => rfl
    | some i =>
        rw [hres] at hr
        exact hnot i hr
  rw [pending, hsame.place, hsame.enabled]
  cases hplace : s.place with
  | idle =>
      simp only [pending, hplace, Bool.and_eq_true, Bool.not_eq_true'] at h ⊢
      exact ⟨h.1, hresident h.2⟩
  | verifyStarted => rfl
  | spawnWait i =>
      simp only [pending, hplace, Bool.not_eq_true'] at h ⊢
      exact hnot i h
  | oneShotWait k action =>
      cases action with
      | enable =>
          simp only [pending, hplace, Bool.and_eq_true, Bool.not_eq_true'] at h ⊢
          exact ⟨h.1, hresident h.2⟩
      | disable =>
          simp only [pending, hplace, Bool.and_eq_true] at h ⊢
          exact ⟨h.1, hahead k h.2⟩
  | shutdown i =>
      simp only [pending, hplace, Bool.and_eq_true, Bool.not_eq_true'] at h ⊢
      exact ⟨h.1, hnot i h.2⟩
  | dropHelper i needs_fallback => simpa only [pending, hplace] using h
  | fallback => simpa only [pending, hplace] using h
  | verifyDisabled => simp only [pending, hplace, Bool.false_eq_true] at h
  | dropResident i => simp only [pending, hplace, Bool.false_eq_true] at h
  | gone => simp only [pending, hplace, Bool.false_eq_true] at h

/-- A step of a helper keeps the invariant if an exposed device finds the controller on its way. -/
theorem Inv.of_same (hs : s.Inv) (hsame : SameController s s')
    (h : s'.exposed = true → s'.pending = true) : s'.Inv where
  resident := by
    rw [hsame.resident, hsame.enabled]
    exact hs.resident
  taken := by
    rw [hsame.place, hsame.resident]
    exact hs.taken
  outside := by
    rw [hsame.place, hsame.dropping]
    exact hs.outside
  pending := h

theorem Inv.of_frame (hs : s.Inv) (hsame : SameController s s') (hframe : Frame s s') : s'.Inv :=
  hs.of_same hsame fun h => pending_of_frame hsame hframe.done hframe.ahead (hs.pending (hframe.exposed h))

theorem sameController_setHelper (i : ℕ) (h : HelperProcess) : SameController s (s.setHelper i h) :=
  ⟨rfl, rfl, rfl, rfl⟩

theorem inv_setHelper {i : ℕ} {h h' : HelperProcess} (hs : s.Inv) (hi : s.helpers[i]? = some h)
    (htold : h.told = true → h'.told = true)
    (hdone : h'.place.hasDisabled = true → h.place.hasDisabled = true) : (s.setHelper i h').Inv :=
  hs.of_frame (sameController_setHelper i h') (frame_setHelper hi htold hdone)

/-- The `devcon disable` of the helper is not ahead. -/
theorem inv_setHelper_past {i : ℕ} {h h' : HelperProcess} (hs : s.Inv) (hi : s.helpers[i]? = some h)
    (hpast : h.place.disableAhead = false)
    (hdone : h'.place.hasDisabled = true → h.place.hasDisabled = true) : (s.setHelper i h').Inv := by
  apply inv_setHelper hs hi
  · intro htold
    rw [HelperProcess.told_of_past hpast] at htold
    cases htold
  · exact hdone

theorem inv_helperOpens {i : ℕ} {h : HelperProcess} (ok : Bool) (hs : s.Inv)
    (hi : s.helpers[i]? = some h) : (s.helperOpens i h ok).Inv := by
  have hnext : ∀ place, h.place.disableAhead = false → place.hasDisabled = false →
      (s.setHelper i { h with place := place }).Inv := by
    intro place hpast hdone
    apply inv_setHelper_past hs hi hpast
    intro hdone'
    rw [hdone] at hdone'
    cases hdone'
  cases hplace : h.place with
  | launched =>
      simp only [helperOpens, hplace]
      apply hnext
      · rw [hplace]
        rfl
      · split
        · rfl
        · rfl
  | doneOpened =>
      simp only [helperOpens, hplace]
      apply hnext
      · rw [hplace]
        rfl
      · split
        · rfl
        · rfl
  | _ => simpa only [helperOpens, hplace] using hs

theorem sameController_devcon (action : DevconAction) (run : DevconRun) :
    SameController s (s.devcon action run) := by
  rw [devcon]
  split
  · exact ⟨rfl, rfl, rfl, rfl⟩
  · exact ⟨rfl, rfl, rfl, rfl⟩

theorem SameController.trans {s'' : Vdd} (h : SameController s s') (h' : SameController s' s'') :
    SameController s s'' where
  enabled := h'.enabled.trans h.enabled
  resident := h'.resident.trans h.resident
  place := h'.place.trans h.place
  dropping := h'.dropping.trans h.dropping

/-- Where an enable of a helper is through, the controller has its disable before it. -/
theorem inv_devcon_enable {run : DevconRun} (hs : s.Inv)
    (hcalm : s.enablesPending run) : (s.devcon .enable run).Inv := by
  apply hs.of_same (sameController_devcon .enable run)
  cases hrun : devconAction .enable s.instance_id run with
  | ok u =>
      rw [devcon_ok hrun]
      intro hexposed
      simp only [exposed, beq_self_eq_true, Bool.true_and] at hexposed
      exact hcalm hexposed hrun
  | error e =>
      rw [devcon_error hrun, exposed_enable_failed]
      exact hs.pending

theorem inv_helperEnables {i : ℕ} {h : HelperProcess} (run : DevconRun) (hs : s.Inv)
    (hi : s.helpers[i]? = some h) (hcalm : s.Calm (.helperEnables i run)) :
    (s.helperEnables i h run).Inv := by
  cases hplace : h.place with
  | opened =>
      have hinv : (s.devcon .enable run).Inv := inv_devcon_enable hs (hcalm h hi hplace)
      have hi' : (s.devcon .enable run).helpers[i]? = some h := by
        rw [devcon]
        split
        · exact hi
        · exact hi
      have hnext : ∀ h' : HelperProcess, h'.place.hasDisabled = false →
          ((s.devcon .enable run).setHelper i h').Inv := by
        intro h' hdone
        apply inv_setHelper_past hinv hi'
        · rw [hplace]
          rfl
        · intro hdone'
          rw [hdone] at hdone'
          cases hdone'
      simp only [helperEnables, hplace]
      cases devconAction .enable s.instance_id run with
      | ok u => exact hnext _ rfl
      | error e => exact hnext _ rfl
  | _ => simpa only [helperEnables, hplace] using hs

theorem inv_helperSignals {i : ℕ} {h : HelperProcess} (set : Bool) (hs : s.Inv)
    (hi : s.helpers[i]? = some h) : (s.helperSignals i h set).Inv := by
  cases hplace : h.place with
  | started =>
      simp only [helperSignals, hplace]
      apply inv_setHelper hs hi
      · simp only [HelperProcess.told, hplace]
        exact id
      · intro hdone
        cases hdone
  | failed =>
      simp only [helperSignals, hplace]
      apply inv_setHelper hs hi
      · simp only [HelperProcess.told, hplace]
        exact id
      · intro hdone
        cases hdone
  | _ => simpa only [helperSignals, hplace] using hs

theorem inv_helperWakes {i : ℕ} {h : HelperProcess} (signaled : Bool) (hs : s.Inv)
    (hi : s.helpers[i]? = some h) : (s.helperWakes i h signaled).Inv := by
  cases hplace : h.place with
  | watching =>
      simp only [helperWakes, hplace]
      split
      · apply inv_setHelper hs hi
        · simp only [HelperProcess.told, hplace]
          exact id
        · intro hdone
          cases hdone
      · exact hs
  | _ => simpa only [helperWakes, hplace] using hs

theorem inv_helperDisables {i : ℕ} {h : HelperProcess} (run : DevconRun) (hs : s.Inv) :
    (s.helperDisables i h run).Inv := by
  cases hplace : h.place with
  | leaving =>
      have hsettled : (s.devcon .disable run).Settled := settled_disable run
      have hnext : ∀ h', ((s.devcon .disable run).setHelper i h').Inv := by
        intro h'
        apply hs.of_same ((sameController_devcon .disable run).trans (sameController_setHelper i h'))
        exact fun hexposed => absurd hexposed (Settled.not_exposed hsettled)
      simp only [helperDisables, hplace]
      split
      · exact hnext _
      · exact hnext _
  | _ => simpa only [helperDisables, hplace] using hs

theorem inv_helperVerifies {i : ℕ} {h : HelperProcess} (polls : DevnodePolls) (hs : s.Inv)
    (hi : s.helpers[i]? = some h) : (s.helperVerifies i h polls).Inv := by
  cases hplace : h.place with
  | verifying =>
      have hnext : ∀ place, (s.setHelper i { h with place := place }).Inv := by
        intro place
        apply inv_setHelper_past hs hi
        · rw [hplace]
          rfl
        · rw [hplace]
          exact fun _ => rfl
      simp only [helperVerifies, hplace]
      split
      · exact hnext _
      · exact hnext _
  | _ => simpa only [helperVerifies, hplace] using hs

theorem inv_helperExits {i : ℕ} {h : HelperProcess} (hs : s.Inv) (hi : s.helpers[i]? = some h) :
    (s.helperExits i h).Inv := by
  cases hplace : h.place with
  | exiting code =>
      simp only [helperExits, hplace]
      apply inv_setHelper_past hs hi
      · rw [hplace]
        rfl
      · rw [hplace]
        exact id
  | _ => simpa only [helperExits, hplace] using hs

/-! ### Steps of the helpers for one command -/

theorem sameController_setOneShot (k : ℕ) (o : OneShot) : SameController s (s.setOneShot k o) :=
  ⟨rfl, rfl, rfl, rfl⟩

/-- A helper whose `devcon disable` is not ahead takes a step. -/
theorem frame_setOneShot {k : ℕ} {o o' : OneShot} (hk : s.oneShots[k]? = some o)
    (hahead : o.action = .disable → o.place ≠ .ahead) : Frame s (s.setOneShot k o') := by
  apply frame_of_told
  · rfl
  · rfl
  · exact fun _ h => h
  · exact fun _ h => h
  · intro j hj
    simp only [isAhead, setOneShot, List.getElem?_set] at hj ⊢
    split
    · rename_i hkj
      rw [← hkj, hk, Option.any_some, Bool.and_eq_true, beq_iff_eq, beq_iff_eq] at hj
      exact absurd hj.2 (hahead hj.1)
    · exact hj

theorem inv_setOneShot {k : ℕ} {o o' : OneShot} (hs : s.Inv) (hk : s.oneShots[k]? = some o)
    (hahead : o.action = .disable → o.place ≠ .ahead) : (s.setOneShot k o').Inv :=
  hs.of_frame (sameController_setOneShot k o') (frame_setOneShot hk hahead)

theorem inv_oneShotRuns {k : ℕ} {o : OneShot} (run : DevconRun) (hs : s.Inv)
    (hk : s.oneShots[k]? = some o) (hcalm : s.Calm (.oneShotRuns k run)) :
    (s.oneShotRuns k o run).Inv := by
  cases hplace : o.place with
  | ahead =>
      have hnext : ∀ o', ((s.devcon o.action run).setOneShot k o').Inv := by
        intro o'
        cases haction : o.action with
        | enable =>
            have hinv : (s.devcon .enable run).Inv := inv_devcon_enable hs (hcalm o hk haction hplace)
            have hk' : (s.devcon .enable run).oneShots[k]? = some o := by
              rw [devcon]
              split
              · exact hk
              · exact hk
            apply inv_setOneShot hinv hk'
            intro hdisable
            rw [haction] at hdisable
            cases hdisable
        | disable =>
            have hsettled : (s.devcon .disable run).Settled := settled_disable run
            apply hs.of_same ((sameController_devcon .disable run).trans (sameController_setOneShot k o'))
            exact fun hexposed => absurd hexposed (Settled.not_exposed hsettled)
      simp only [oneShotRuns, hplace]
      split
      · exact hnext _
      · exact hnext _
  | _ => simpa only [oneShotRuns, hplace] using hs

theorem inv_oneShotVerifies {k : ℕ} {o : OneShot} (a : DevnodeAnswer) (polls : DevnodePolls)
    (hs : s.Inv) (hk : s.oneShots[k]? = some o) : (s.oneShotVerifies k o a polls).Inv := by
  cases hplace : o.place with
  | verifying =>
      have hnext : ∀ o', (s.setOneShot k o').Inv := by
        intro o'
        apply inv_setOneShot hs hk
        intro _ hahead
        rw [hplace] at hahead
        cases hahead
      simp only [oneShotVerifies, hplace]
      split
      · exact hnext _
      · exact hnext _
  | _ => simpa only [oneShotVerifies, hplace] using hs

theorem inv_oneShotExits {k : ℕ} {o : OneShot} (hs : s.Inv) (hk : s.oneShots[k]? = some o) :
    (s.oneShotExits k o).Inv := by
  cases hplace : o.place with
  | exiting code =>
      simp only [oneShotExits, hplace]
      apply inv_setOneShot hs hk
      intro _ hahead
      rw [hplace] at hahead
      cases hahead
  | _ => simpa only [oneShotExits, hplace] using hs

/-! ### Runs -/

theorem inv_onHelper {i : ℕ} {f : HelperProcess → Vdd} (hs : s.Inv)
    (h : ∀ p, s.helpers[i]? = some p → (f p).Inv) : (s.onHelper i f).Inv := by
  rw [onHelper]
  cases hi : s.helpers[i]? with
  | none => exact hs
  | some p => exact h p hi

theorem inv_onOneShot {k : ℕ} {f : OneShot → Vdd} (hs : s.Inv)
    (h : ∀ o, s.oneShots[k]? = some o → (f o).Inv) : (s.onOneShot k f).Inv := by
  rw [onOneShot]
  cases hk : s.oneShots[k]? with
  | none => exact hs
  | some o => exact h o hk

theorem inv_step (s : Vdd) (l : VddLabel) (hs : s.Inv) (hcalm : s.Calm l) : (s.step l).Inv := by
  cases l with
  | enable elevated run events launch => exact inv_enable elevated run events launch hs
  | verifyStarted a => exact inv_verifyStarted a hs hcalm
  | spawnWaitOver r read => exact inv_spawnWaitOver r read hs hcalm
  | oneShotWaitOver object0 read => exact inv_oneShotWaitOver object0 read hs hcalm
  | disable set => exact inv_disable set hs
  | drop set => exact inv_drop set hs
  | shutdownOver object0 read => exact inv_shutdownOver object0 read hs
  | helperDropped set => exact inv_helperDropped set hs
  | fallback elevated run launch => exact inv_fallback elevated run launch hs hcalm
  | verifyDisabled polls => exact inv_verifyDisabled polls hs
  | helperOpens i ok => exact inv_onHelper hs fun p hi => inv_helperOpens ok hs hi
  | helperEnables i run => exact inv_onHelper hs fun p hi => inv_helperEnables run hs hi hcalm
  | helperSignals i set => exact inv_onHelper hs fun p hi => inv_helperSignals set hs hi
  | helperWakes i signaled => exact inv_onHelper hs fun p hi => inv_helperWakes signaled hs hi
  | helperDisables i run => exact inv_onHelper hs fun p _ => inv_helperDisables run hs
  | helperVerifies i polls => exact inv_onHelper hs fun p hi => inv_helperVerifies polls hs hi
  | helperExits i => exact inv_onHelper hs fun p hi => inv_helperExits hs hi
  | oneShotRuns k run => exact inv_onOneShot hs fun o hk => inv_oneShotRuns run hs hk hcalm
  | oneShotVerifies k a polls => exact inv_onOneShot hs fun o hk => inv_oneShotVerifies a polls hs hk
  | oneShotExits k => exact inv_onOneShot hs fun o hk => inv_oneShotExits hs hk

/-- **No leak.**  Along a run of calm steps, once the controller has been dropped the device is disabled, or
a helper that was told to stop is going to disable it, unless a `devcon disable` failed. -/
theorem kept_of_gone (instance_id : String) (ls : List VddLabel)
    (hcalm : Run.Steps step Calm (new instance_id) ls)
    (hgone : (ls.foldl step (new instance_id)).place = .gone) :
    (ls.foldl step (new instance_id)).Kept := by
  have hinv : (ls.foldl step (new instance_id)).Inv :=
    Run.Steps.invariant inv_step (inv_new instance_id) hcalm
  rw [kept_iff, ← Bool.not_eq_true]
  intro hexposed
  have hpending := hinv.pending hexposed
  rw [pending, hgone] at hpending
  cases hpending

/-- A drop whose `shutdown` times out, with no elevation for the fallback: the helper was told. -/
def timedOutDrop : List VddLabel :=
  [.enable false .notBundled .created .started, .helperOpens 0 true, .helperOpens 0 true,
    .helperEnables 0 (.exited 0 "" ""), .helperSignals 0 true, .spawnWaitOver .object0 true, .drop true,
    .shutdownOver false true, .helperDropped true, .fallback false .notBundled (.refused "")]

theorem kept_of_gone_timedOutDrop : (timedOutDrop.foldl step (new "")).Kept :=
  kept_of_gone "" timedOutDrop
    ⟨trivial, trivial, trivial, fun _ _ _ _ _ => rfl, trivial, fun _ _ _ => Or.inl rfl, trivial, trivial,
      trivial, fun h => absurd h (by decide +kernel), trivial⟩
    (by decide +kernel)

/-- The driver fails behind a `devcon enable` of the elevated controller: the flag is never set, and the drop
leaves the device enabled. -/
theorem leaked_behind_verify :
    ¬ ∀ (instance_id : String) (ls : List VddLabel), (ls.foldl step (new instance_id)).place = .gone →
      (ls.foldl step (new instance_id)).Kept := by
  intro h
  have hkept := h "" [VddLabel.enable true (.exited 0 "" "") .created .started,
    VddLabel.verifyStarted ⟨0, 0, 0x400, 31⟩, VddLabel.drop true] (by decide +kernel)
  rw [kept_iff] at hkept
  exact absurd hkept (by decide +kernel)

/-- A helper that enables the device when the controller has given it up is never told to stop. -/
example :
    ([VddLabel.enable false .notBundled .created .started, VddLabel.helperOpens 0 true,
      VddLabel.helperOpens 0 true, VddLabel.spawnWaitOver .timeout true,
      VddLabel.helperEnables 0 (.exited 0 "" ""), VddLabel.helperSignals 0 true,
      VddLabel.drop true].foldl step (new "")).exposed = true := by
  decide +kernel

end Vdd

end Penflow
