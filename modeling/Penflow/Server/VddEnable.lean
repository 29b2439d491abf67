import Penflow.Server.Vdd

/-!
# What an `Ok` of `enable` means

Without elevation the result of the helper's `devcon enable` reaches the controller through one event, which
the helper also sets when the command failed, and through a wait that prefers the event to the end of the
process.  So an `Ok` means that the device was enabled exactly where the event does not come from a failure.
-/

namespace Penflow

/-- The helper sets its event only behind its `devcon enable`. -/
structure HelperProcess.Sound (h : HelperProcess) : Prop where
  signaling : h.place = .started ∨ h.place = .failed → h.enable_ok.isSome = true
  signaled : h.done_event = true → h.enable_ok.isSome = true

theorem HelperProcess.sound_new : new.Sound where
  signaling := by
    intro h
    rcases h with h | h
    · cases h
    · cases h
  signaled := nofun

namespace Vdd

/-- The call of `enable` succeeded with `devcon enable`, in its own process or in its helper. -/
def EnableSucceeded (s : Vdd) (elevated : Bool) (run : DevconRun) (s' : Vdd) : Prop :=
  match elevated with
  | true => devconAction .enable s.instance_id run = .ok ()
  | false => ∃ h, s'.helpers[s.helpers.length]? = some h ∧ h.enable_ok = some true

/-- The wait of the call ended by the event of a helper whose `devcon enable` failed. -/
def SignaledFailure (s : Vdd) (elevated : Bool) (ls : List VddLabel) (s' : Vdd) : Prop :=
  elevated = false ∧
    (∃ h, s'.helpers[s.helpers.length]? = some h ∧ h.enable_ok = some false ∧ h.done_event = true) ∧
      ∃ read, ls.getLast? = some (.spawnWaitOver .object0 read)

/-- The controller waits for the helper at `i`. -/
structure Waiting (i : ℕ) (s : Vdd) : Prop where
  place : s.place = .spawnWait i
  helper : ∃ h, s.helpers[i]? = some h ∧ h.Sound

variable {s s' : Vdd} {i : ℕ}

/-! ### One step of the wait -/

/-- The wait goes on. -/
structure GoesOn (i : ℕ) (s s' : Vdd) : Prop where
  waiting : s'.Waiting i
  returned : s'.returned = s.returned

theorem goesOn_refl (hw : s.Waiting i) : GoesOn i s s := ⟨hw, rfl⟩

theorem goesOn_setHelper {j : ℕ} {h h' : HelperProcess} (hw : s.Waiting i)
    (hj : s.helpers[j]? = some h) (hsound : h.Sound → h'.Sound) : GoesOn i s (s.setHelper j h') := by
  have hlength : j < s.helpers.length := (List.getElem?_eq_some_iff.1 hj).1
  obtain ⟨p, hp, hps⟩ := hw.helper
  refine ⟨⟨hw.place, ?_⟩, rfl⟩
  by_cases hij : j = i
  · subst hij
    obtain rfl := Option.some.inj (hj.symm.trans hp)
    exact ⟨h', List.getElem?_set_self hlength, hsound hps⟩
  · exact ⟨p, (List.getElem?_set_ne hij).trans hp, hps⟩

theorem goesOn_devcon (action : DevconAction) (run : DevconRun) (hw : s.Waiting i) :
    GoesOn i s (s.devcon action run) := by
  rw [devcon]
  split
  · exact ⟨⟨hw.place, hw.helper⟩, rfl⟩
  · exact ⟨⟨hw.place, hw.helper⟩, rfl⟩

theorem GoesOn.trans {s'' : Vdd} (h : GoesOn i s s') (h' : GoesOn i s' s'') : GoesOn i s s'' :=
  ⟨h'.waiting, h'.returned.trans h.returned⟩

theorem helpers_devcon (action : DevconAction) (run : DevconRun) :
    (s.devcon action run).helpers = s.helpers := by
  rw [devcon]
  split
  · rfl
  · rfl

/-- A command of devcon and a move of the helper. -/
theorem goesOn_devcon_setHelper {j : ℕ} {h h' : HelperProcess} (action : DevconAction) (run : DevconRun)
    (hw : s.Waiting i) (hj : s.helpers[j]? = some h) (hsound : h.Sound → h'.Sound) :
    GoesOn i s ((s.devcon action run).setHelper j h') := by
  have hgoes := goesOn_devcon action run hw
  apply hgoes.trans
  apply goesOn_setHelper hgoes.waiting
  · rw [helpers_devcon]
    exact hj
  · exact hsound

/-- A helper that goes past its `devcon enable` or stays in front of it keeps sound. -/
theorem sound_move {h : HelperProcess} {place : HelperPlace}
    (hplace : place ≠ .started ∧ place ≠ .failed) (hs : h.Sound) : { h with place := place }.Sound where
  signaling := by
    intro h'
    rcases h' with h' | h'
    · exact absurd h' hplace.1
    · exact absurd h' hplace.2
  signaled := hs.signaled

theorem sound_enabled (h : HelperProcess) (place : HelperPlace) (ok : Bool) :
    { h with place := place, enable_ok := some ok }.Sound :=
  ⟨fun _ => rfl, fun _ => rfl⟩

theorem sound_signals {h : HelperProcess} {place : HelperPlace} (set : Bool)
    (hplace : h.place = .started ∨ h.place = .failed) (hs : h.Sound) :
    { h with place := place, done_event := h.done_event || set }.Sound :=
  ⟨fun _ => hs.signaling hplace, fun _ => hs.signaling hplace⟩

theorem goesOn_helperOpens {j : ℕ} {h : HelperProcess} (ok : Bool) (hw : s.Waiting i)
    (hj : s.helpers[j]? = some h) : GoesOn i s (s.helperOpens j h ok) := by
  cases hplace : h.place with
  | launched =>
      simp only [helperOpens, hplace]
      apply goesOn_setHelper hw hj
      split
      · exact sound_move ⟨nofun, nofun⟩
      · exact sound_move ⟨nofun, nofun⟩
  | doneOpened =>
      simp only [helperOpens, hplace]
      apply goesOn_setHelper hw hj
      split
      · exact sound_move ⟨nofun, nofun⟩
      · exact sound_move ⟨nofun, nofun⟩
  | _ =>
      simp only [helperOpens, hplace]
      exact goesOn_refl hw

theorem goesOn_helperEnables {j : ℕ} {h : HelperProcess} (run : DevconRun) (hw : s.Waiting i)
    (hj : s.helpers[j]? = some h) : GoesOn i s (s.helperEnables j h run) := by
  cases hplace : h.place with
  | opened =>
      simp only [helperEnables, hplace]
      split
      · exact goesOn_devcon_setHelper .enable run hw hj fun _ => sound_enabled h .started true
      · exact goesOn_devcon_setHelper .enable run hw hj fun _ => sound_enabled h .failed false
  | _ =>
      simp only [helperEnables, hplace]
      exact goesOn_refl hw

theorem goesOn_helperSignals {j : ℕ} {h : HelperProcess} (set : Bool) (hw : s.Waiting i)
    (hj : s.helpers[j]? = some h) : GoesOn i s (s.helperSignals j h set) := by
  cases hplace : h.place with
  | started =>
      simp only [helperSignals, hplace]
      exact goesOn_setHelper hw hj (sound_signals set (Or.inl hplace))
  | failed =>
      simp only [helperSignals, hplace]
      exact goesOn_setHelper hw hj (sound_signals set (Or.inr hplace))
  | _ =>
      simp only [helperSignals, hplace]
      exact goesOn_refl hw

theorem goesOn_helperWakes {j : ℕ} {h : HelperProcess} (signaled : Bool) (hw : s.Waiting i)
    (hj : s.helpers[j]? = some h) : GoesOn i s (s.helperWakes j h signaled) := by
  cases hplace : h.place with
  | watching =>
      simp only [helperWakes, hplace]
      split
      · exact goesOn_setHelper hw hj (sound_move ⟨nofun, nofun⟩)
      · exact goesOn_refl hw
  | _ =>
      simp only [helperWakes, hplace]
      exact goesOn_refl hw

theorem goesOn_helperDisables {j : ℕ} {h : HelperProcess} (run : DevconRun) (hw : s.Waiting i)
    (hj : s.helpers[j]? = some h) : GoesOn i s (s.helperDisables j h run) := by
  cases hplace : h.place with
  | leaving =>
      simp only [helperDisables, hplace]
      split
      · exact goesOn_devcon_setHelper .disable run hw hj (sound_move ⟨nofun, nofun⟩)
      · exact goesOn_devcon_setHelper .disable run hw hj (sound_move ⟨nofun, nofun⟩)
  | _ =>
      simp only [helperDisables, hplace]
      exact goesOn_refl hw

theorem goesOn_helperVerifies {j : ℕ} {h : HelperProcess} (polls : DevnodePolls) (hw : s.Waiting i)
    (hj : s.helpers[j]? = some h) : GoesOn i s (s.helperVerifies j h polls) := by
  cases hplace : h.place with
  | verifying =>
      simp only [helperVerifies, hplace]
      split
      · exact goesOn_setHelper hw hj (sound_move ⟨nofun, nofun⟩)
      · exact goesOn_setHelper hw hj (sound_move ⟨nofun, nofun⟩)
  | _ =>
      simp only [helperVerifies, hplace]
      exact goesOn_refl hw

theorem goesOn_helperExits {j : ℕ} {h : HelperProcess} (hw : s.Waiting i)
    (hj : s.helpers[j]? = some h) : GoesOn i s (s.helperExits j h) := by
  cases hplace : h.place with
  | exiting code =>
      simp only [helperExits, hplace]
      exact goesOn_setHelper hw hj (sound_move ⟨nofun, nofun⟩)
  | _ =>
      simp only [helperExits, hplace]
      exact goesOn_refl hw

theorem goesOn_onHelper {j : ℕ} {f : HelperProcess → Vdd} (hw : s.Waiting i)
    (h : ∀ p, s.helpers[j]? = some p → GoesOn i s (f p)) : GoesOn i s (s.onHelper j f) := by
  rw [onHelper]
  cases hj : s.helpers[j]? with
  | none => exact goesOn_refl hw
  | some p => exact h p hj

theorem goesOn_setOneShot (k : ℕ) (o : OneShot) (hw : s.Waiting i) : GoesOn i s (s.setOneShot k o) :=
  ⟨⟨hw.place, hw.helper⟩, rfl⟩

theorem goesOn_oneShotRuns {k : ℕ} (o : OneShot) (run : DevconRun) (hw : s.Waiting i) :
    GoesOn i s (s.oneShotRuns k o run) := by
  have hgoes := goesOn_devcon o.action run hw
  cases hplace : o.place with
  | ahead =>
      simp only [oneShotRuns, hplace]
      split
      · exact hgoes.trans (goesOn_setOneShot k _ hgoes.waiting)
      · exact hgoes.trans (goesOn_setOneShot k _ hgoes.waiting)
  | _ =>
      simp only [oneShotRuns, hplace]
      exact goesOn_refl hw

theorem goesOn_oneShotVerifies {k : ℕ} (o : OneShot) (a : DevnodeAnswer) (polls : DevnodePolls)
    (hw : s.Waiting i) : GoesOn i s (s.oneShotVerifies k o a polls) := by
  cases hplace : o.place with
  | verifying =>
      simp only [oneShotVerifies, hplace]
      split
      · exact goesOn_setOneShot k _ hw
      · exact goesOn_setOneShot k _ hw
  | _ =>
      simp only [oneShotVerifies, hplace]
      exact goesOn_refl hw

theorem goesOn_oneShotExits {k : ℕ} (o : OneShot) (hw : s.Waiting i) :
    GoesOn i s (s.oneShotExits k o) := by
  cases hplace : o.place with
  | exiting code =>
      simp only [oneShotExits, hplace]
      exact goesOn_setOneShot k _ hw
  | _ =>
      simp only [oneShotExits, hplace]
      exact goesOn_refl hw

theorem goesOn_onOneShot {k : ℕ} {f : OneShot → Vdd} (hw : s.Waiting i)
    (h : ∀ o, GoesOn i s (f o)) : GoesOn i s (s.onOneShot k f) := by
  rw [onOneShot]
  cases s.oneShots[k]? with
  | none => exact goesOn_refl hw
  | some o => exact h o

/-- How the wait ends: with `Ok` by the event, and otherwise with an error. -/
inductive WaitEnds (i : ℕ) (s : Vdd) : VddLabel → Vdd → Prop
  | ok (h : HelperProcess) (read : Bool) (hi : s.helpers[i]? = some h) (hdone : h.done_event = true) :
      WaitEnds i s (.spawnWaitOver .object0 read) ({ s with resident := some i }.finish true)
  | error (r : WaitResult) (read : Bool) (e : VddError) (hr : r ≠ .object0) :
      WaitEnds i s (.spawnWaitOver r read) ((s.close i).ret (.error e))

theorem waitEnds_spawnWaitOver (r : WaitResult) (read : Bool) (hw : s.Waiting i) :
    GoesOn i s (s.spawnWaitOver r read) ∨ WaitEnds i s (.spawnWaitOver r read) (s.spawnWaitOver r read) := by
  obtain ⟨h, hi, -⟩ := hw.helper
  simp only [spawnWaitOver, hw.place, hi]
  by_cases hgives : waitGives h r = true
  · simp only [hgives, if_true]
    right
    cases r with
    | object0 => exact WaitEnds.ok h read hi hgives
    | object1 => exact WaitEnds.error .object1 read _ nofun
    | timeout => exact WaitEnds.error .timeout read _ nofun
    | failed => exact WaitEnds.error .failed read _ nofun
  · simp only [hgives, Bool.false_eq_true, if_false]
    exact Or.inl (goesOn_refl hw)

/-- **The step of a wait.**  It goes on, or ends. -/
theorem waiting_step (l : VddLabel) (hw : s.Waiting i) :
    GoesOn i s (s.step l) ∨ WaitEnds i s l (s.step l) := by
  cases l with
  | spawnWaitOver r read => exact waitEnds_spawnWaitOver r read hw
  | helperOpens j ok => exact Or.inl (goesOn_onHelper hw fun p hj => goesOn_helperOpens ok hw hj)
  | helperEnables j run => exact Or.inl (goesOn_onHelper hw fun p hj => goesOn_helperEnables run hw hj)
  | helperSignals j set => exact Or.inl (goesOn_onHelper hw fun p hj => goesOn_helperSignals set hw hj)
  | helperWakes j signaled =>
      exact Or.inl (goesOn_onHelper hw fun p hj => goesOn_helperWakes signaled hw hj)
  | helperDisables j run => exact Or.inl (goesOn_onHelper hw fun p hj => goesOn_helperDisables run hw hj)
  | helperVerifies j polls =>
      exact Or.inl (goesOn_onHelper hw fun p hj => goesOn_helperVerifies polls hw hj)
  | helperExits j => exact Or.inl (goesOn_onHelper hw fun p hj => goesOn_helperExits hw hj)
  | oneShotRuns k run => exact Or.inl (goesOn_onOneShot hw fun o => goesOn_oneShotRuns o run hw)
  | oneShotVerifies k a polls =>
      exact Or.inl (goesOn_onOneShot hw fun o => goesOn_oneShotVerifies o a polls hw)
  | oneShotExits k => exact Or.inl (goesOn_onOneShot hw fun o => goesOn_oneShotExits o hw)
  | enable elevated run events launch =>
      left
      simp only [step, enable, hw.place]
      exact goesOn_refl hw
  | verifyStarted a =>
      left
      simp only [step, verifyStarted, hw.place]
      exact goesOn_refl hw
  | oneShotWaitOver object0 read =>
      left
      simp only [step, oneShotWaitOver, hw.place]
      exact goesOn_refl hw
  | disable set =>
      left
      simp only [step, disable, hw.place]
      exact goesOn_refl hw
  | drop set =>
      left
      simp only [step, drop, hw.place]
      exact goesOn_refl hw
  | shutdownOver object0 read =>
      left
      simp only [step, shutdownOver, hw.place]
      exact goesOn_refl hw
  | helperDropped set =>
      left
      simp only [step, helperDropped, hw.place]
      exact goesOn_refl hw
  | fallback elevated run launch =>
      left
      simp only [step, fallback, hw.place]
      exact goesOn_refl hw
  | verifyDisabled polls =>
      left
      simp only [step, verifyDisabled, hw.place]
      exact goesOn_refl hw

/-! ### Calls -/

/-- As long as the call has not returned, the controller waits. -/
theorem waiting_run {ls : List VddLabel} (hw : s.Waiting i)
    (hcall : Run.Steps step (fun s _ => s.returned = none) s ls)
    (hreturned : (ls.foldl step s).returned = none) : (ls.foldl step s).Waiting i := by
  have hstep : ∀ (t : Vdd) (l : VddLabel), (t.returned = none → t.Waiting i) → t.returned = none →
      (t.step l).returned = none → (t.step l).Waiting i := by
    intro t l ht hnone hnext
    rcases waiting_step l (ht hnone) with h | h
    · exact h.waiting
    · generalize t.step l = t' at h hnext
      cases h with
      | ok p read hi hdone => cases hnext
      | error r read e hr => cases hnext
  exact Run.Steps.invariant (I := fun t => t.returned = none → t.Waiting i) hstep (fun _ => hw) hcall
    hreturned

theorem spawnWaitOver_object0 {h : HelperProcess} (read : Bool) (hw : s.Waiting i)
    (hi : s.helpers[i]? = some h) :
    s.spawnWaitOver .object0 read =
      if h.done_event then { s with resident := some i }.finish true else s := by
  simp only [spawnWaitOver, hw.place, hi]
  rfl

/-- Only the event ends the wait with `Ok`. -/
theorem ok_of_wait {l : VddLabel} (hw : s.Waiting i) (hnone : s.returned = none)
    (hok : (s.step l).returned = some (.ok ())) : ∃ read, l = .spawnWaitOver .object0 read := by
  rcases waiting_step l hw with h | h
  · rw [h.returned, hnone] at hok
    cases hok
  · generalize s.step l = s' at h hok
    cases h with
    | ok p read hi hdone => exact ⟨read, rfl⟩
    | error r read e hr => cases hok

/-- The last step of the call. -/
theorem wait_ok_iff (l : VddLabel) (hw : s.Waiting i) (hnone : s.returned = none) :
    ((s.step l).returned = some (.ok ()) →
        ∃ h, (s.step l).helpers[i]? = some h ∧ h.enable_ok = some true) ↔
      ¬((∃ h, (s.step l).helpers[i]? = some h ∧ h.enable_ok = some false ∧ h.done_event = true) ∧
        ∃ read, l = .spawnWaitOver .object0 read) := by
  by_cases hl : ∃ read, l = .spawnWaitOver .object0 read
  · obtain ⟨read, rfl⟩ := hl
    obtain ⟨h, hi, hsound⟩ := hw.helper
    rw [step, spawnWaitOver_object0 read hw hi]
    cases hdone : h.done_event with
    | false =>
        simp only [Bool.false_eq_true, if_false]
        constructor
        · rintro - ⟨⟨p, hp, -, hset⟩, -⟩
          obtain rfl := Option.some.inj (hi.symm.trans hp)
          rw [hdone] at hset
          cases hset
        · intro _ hok
          rw [hnone] at hok
          cases hok
    | true =>
        have hhelpers : ({ s with resident := some i }.finish true).helpers[i]? = some h := hi
        simp only [if_true, hhelpers]
        obtain ⟨ok, hok⟩ := Option.isSome_iff_exists.1 (hsound.signaled hdone)
        cases ok with
        | true =>
            constructor
            · rintro - ⟨⟨p, hp, hfailed, -⟩, -⟩
              obtain rfl := Option.some.inj hp
              rw [hok] at hfailed
              cases hfailed
            · exact fun _ _ => ⟨h, rfl, hok⟩
        | false =>
            constructor
            · intro hsucceeds
              obtain ⟨p, hp, hp'⟩ := hsucceeds rfl
              obtain rfl := Option.some.inj hp
              rw [hok] at hp'
              cases hp'
            · exact fun hnot => absurd ⟨⟨h, rfl, hok, hdone⟩, read, rfl⟩ hnot
  · constructor
    · exact fun _ h => hl h.2
    · exact fun _ hok => absurd (ok_of_wait hw hnone hok) hl

/-- A call that has returned takes no more steps. -/
theorem steps_of_returned {ls : List VddLabel} {r : Except VddError Unit} (hr : s.returned = some r)
    (hcall : Run.Steps step (fun s _ => s.returned = none) s ls) : ls = [] := by
  cases ls with
  | nil => rfl
  | cons l ls => exact absurd (hr.symm.trans hcall.1) nofun

/-- A helper is launched, and the controller waits for it. -/
theorem waiting_spawn :
    ({ s with helpers := s.helpers ++ [HelperProcess.new], place := .spawnWait s.helpers.length } :
      Vdd).Waiting s.helpers.length where
  place := rfl
  helper := ⟨.new, List.getElem?_concat_length, HelperProcess.sound_new⟩

/-- A call that has returned an error ends with it. -/
theorem ends_of_error {e : VddError} {ls : List VddLabel} (he : s.returned = some (.error e))
    (hcall : Run.Steps step (fun s _ => s.returned = none) s ls) :
    (ls.foldl step s).returned ≠ some (.ok ()) ∧ ls.getLast? = none := by
  obtain rfl := steps_of_returned he hcall
  refine ⟨?_, rfl⟩
  rw [List.foldl_nil, he]
  intro hok
  cases hok

/-- A call that waits for its helper ends with the wait, and that decides. -/
theorem waited_ok_iff {ls : List VddLabel} (hw : s.Waiting i) (hreturned : s.returned = none)
    (hcall : Run.Steps step (fun s _ => s.returned = none) s ls) :
    ((ls.foldl step s).returned = some (.ok ()) →
        ∃ h, (ls.foldl step s).helpers[i]? = some h ∧ h.enable_ok = some true) ↔
      ¬((∃ h, (ls.foldl step s).helpers[i]? = some h ∧ h.enable_ok = some false ∧ h.done_event = true) ∧
        ∃ read, ls.getLast? = some (.spawnWaitOver .object0 read)) := by
  rcases List.eq_nil_or_concat ls with rfl | ⟨pre, l, rfl⟩
  · refine ⟨fun _ h => ?_, fun _ hok => ?_⟩
    · obtain ⟨-, read, hread⟩ := h
      cases hread
    · rw [List.foldl_nil, hreturned] at hok
      cases hok
  · rw [List.concat_eq_append] at hcall ⊢
    rw [Run.steps_append] at hcall
    have hnone := hcall.2.1
    have hlast := wait_ok_iff l (waiting_run hw hcall.1 hnone) hnone
    simp only [List.foldl_append, List.foldl_cons, List.foldl_nil, List.getLast?_concat,
      Option.some.injEq]
    exact hlast

/-- **What an `Ok` means.**  A call of `enable` without a resident helper that returns `Ok` has enabled the
device, unless its wait ended by the event of a helper whose `devcon enable` failed; and there it has not. -/
theorem enable_ok_iff (s : Vdd) (elevated : Bool) (run : DevconRun) (events : CreateEvents)
    (launch : Launch) (ls : List VddLabel) (hidle : s.place = .idle) (hresident : s.resident = none)
    (hcall : Run.Steps step (fun s _ => s.returned = none) (s.enable elevated run events launch) ls) :
    ((ls.foldl step (s.enable elevated run events launch)).returned = some (.ok ()) →
        s.EnableSucceeded elevated run (ls.foldl step (s.enable elevated run events launch))) ↔
      ¬ s.SignaledFailure elevated ls (ls.foldl step (s.enable elevated run events launch)) := by
  simp only [enable, hidle] at hcall ⊢
  cases elevated with
  | true =>
      simp only [if_true] at hcall ⊢
      refine ⟨fun _ h => absurd h.1 nofun, fun _ hok => ?_⟩
      cases hrun : devconAction .enable s.instance_id run with
      | ok u => exact hrun
      | error e =>
          rw [runDevcon_error (s := s.call) .verifyStarted hrun] at hcall hok
          exact absurd hok (ends_of_error rfl hcall).1
  | false =>
      rw [hresident] at hcall ⊢
      simp only [Bool.false_eq_true, if_false, Option.isNone_none, if_true, spawnResidentHelper] at hcall ⊢
      cases hspawn : spawnResult events launch with
      | error e =>
          simp only [hspawn] at hcall ⊢
          obtain ⟨hok, hlast⟩ := ends_of_error (e := e) rfl hcall
          refine ⟨fun _ h => ?_, fun _ h => absurd h hok⟩
          obtain ⟨-, -, read, hread⟩ := h
          rw [hlast] at hread
          cases hread
      | ok u =>
          simp only [hspawn] at hcall ⊢
          have hwaited := waited_ok_iff (waiting_spawn (s := s.call)) rfl hcall
          simp only [EnableSucceeded, SignaledFailure, true_and]
          exact hwaited

/-- A call whose helper fails, and says so by its event. -/
def failedEnable : List VddLabel :=
  [.helperOpens 0 true, .helperOpens 0 true, .helperEnables 0 .notBundled, .helperSignals 0 true,
    .spawnWaitOver .object0 true]

/-- A call whose helper enables the device. -/
def goodEnable : List VddLabel :=
  [.helperOpens 0 true, .helperOpens 0 true, .helperEnables 0 (.exited 0 "" ""), .helperSignals 0 true,
    .spawnWaitOver .object0 true]

theorem enable_ok_goodEnable :
    (new "").EnableSucceeded false .notBundled
      (goodEnable.foldl step ((new "").enable false .notBundled .created .started)) := by
  apply (enable_ok_iff (new "") false .notBundled .created .started goodEnable rfl rfl
    ⟨rfl, rfl, rfl, rfl, rfl, trivial⟩).2
  · rintro ⟨-, ⟨h, hh, hfailed, -⟩, -⟩
    obtain rfl := Option.some.inj hh
    cases hfailed
  · rfl

/-- The helper fails, and `enable` returns `Ok`. -/
theorem enable_ok_failed :
    ¬ ∀ (s : Vdd) (elevated : Bool) (run : DevconRun) (events : CreateEvents) (launch : Launch)
      (ls : List VddLabel), s.place = .idle → s.resident = none →
      Run.Steps step (fun s _ => s.returned = none) (s.enable elevated run events launch) ls →
      (ls.foldl step (s.enable elevated run events launch)).returned = some (.ok ()) →
      s.EnableSucceeded elevated run (ls.foldl step (s.enable elevated run events launch)) := by
  intro h
  obtain ⟨p, hp, hok⟩ := h (new "") false .notBundled .created .started failedEnable rfl rfl
    ⟨rfl, rfl, rfl, rfl, rfl, trivial⟩ rfl
  obtain rfl := Option.some.inj hp
  cases hok

end Vdd

end Penflow
