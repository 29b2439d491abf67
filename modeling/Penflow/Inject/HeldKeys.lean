import Penflow.Inject.Dispatch
import Penflow.Lib.LastSome
import Penflow.Lib.Run

/-!
# Which keys the pen holds down

A key is down when the last event about it was a press.  After every call the keys down should be the
ones the held slots hold; a dispatch keeps this exactly when no slot lifts a key that another slot goes
on holding, unless a later slot of the same dispatch presses it again.
-/

namespace Penflow

open InjectM

/-! ### Keys in the log -/

/-- The events Windows has taken. -/
def sentInputs (log : List (OsCall × Bool)) : List Input :=
  log.filterMap fun c =>
    match c with
    | (.sendInput input, true) => some input
    | _ => none

theorem sentInputs_append (xs ys : List (OsCall × Bool)) :
    sentInputs (xs ++ ys) = sentInputs xs ++ sentInputs ys := List.filterMap_append

theorem sentInputs_map (is : List Input) :
    sentInputs (is.map fun i => (.sendInput i, true)) = is := by
  rw [sentInputs, List.filterMap_map]
  exact List.filterMap_some

/-- Whether these events leave a button down, and nothing where none is about it. -/
def leavesButton (k : Button) (is : List Input) : Option Bool := is.lastSome (Input.leaves k)

/-- A button is down. -/
def IsDown (log : List (OsCall × Bool)) (k : Button) : Prop :=
  leavesButton k (sentInputs log) = some true

instance (log : List (OsCall × Bool)) (k : Button) : Decidable (IsDown log k) :=
  inferInstanceAs (Decidable (_ = _))

theorem leaves_buttonInput (k b : Button) (down : Bool) :
    (buttonInput b down).leaves k = if k = b then some down else none := by
  cases b with
  | key vk =>
      rw [buttonInput, Input.leaves]
      cases down <;> rfl
  | mouse kind =>
      cases k with
      | key vk => rfl
      | mouse kind' => cases kind <;> cases kind' <;> cases down <;> decide

theorem leavesButton_map (k : Button) (bs : List Button) (down : Bool) :
    leavesButton k (bs.map (buttonInput · down)) = if k ∈ bs then some down else none := by
  induction bs with
  | nil => rfl
  | cons b bs ih =>
      rw [leavesButton] at ih ⊢
      rw [List.map_cons, List.lastSome_cons, ih, leaves_buttonInput]
      by_cases hb : k = b <;> by_cases hbs : k ∈ bs <;> simp [hb, hbs] <;> simp_all

theorem leavesButton_mouseMove (k : Button) (screen : VirtualScreen) (x y : ℤ) :
    leavesButton k [mouseMoveInput screen x y] = none := by
  cases k with
  | key vk => rfl
  | mouse kind => cases kind <;> rfl

/-! ### The edges of a dispatch -/

/-- No binding holds a key and strikes it. -/
theorem Binding.not_held_and_struck (b : Binding) (k : Button) (hheld : k ∈ b.held) :
    k ∉ b.struck := by
  cases b with
  | keyHold keys => exact List.not_mem_nil
  | mouseButton kind => exact List.not_mem_nil
  | none => cases hheld
  | keyTap vk => cases hheld
  | keyChord keys => cases hheld
  | eraserToggle => cases hheld

/-- The slot is pressed now, and holds the button. -/
def Presses (profile : PenButtonProfile) (prev now_bits slot : UInt8) (k : Button) : Prop :=
  isSet prev slot = false ∧ isSet now_bits slot = true ∧ k ∈ (profile.binding slot).held

/-- The slot sends an up of the button: it is pressed now and strikes it, or is released now and held
it. -/
def Lifts (profile : PenButtonProfile) (prev now_bits slot : UInt8) (k : Button) : Prop :=
  (isSet prev slot = false ∧ isSet now_bits slot = true ∧ k ∈ (profile.binding slot).struck) ∨
    (isSet prev slot = true ∧ isSet now_bits slot = false ∧ k ∈ (profile.binding slot).held)

/-- What a slot does to a button. -/
def slotEffect (profile : PenButtonProfile) (prev now_bits : UInt8) (k : Button) (slot : UInt8) :
    Option Bool :=
  leavesButton k (slotInputs (profile.binding slot) (isSet (~~~prev &&& now_bits) slot)
    (isSet (prev &&& ~~~now_bits) slot))

theorem leavesButton_pressInputs (b : Binding) (k : Button) :
    leavesButton k b.pressInputs =
      if k ∈ b.struck then some false else if k ∈ b.held then some true else none := by
  rw [Binding.pressInputs, leavesButton, List.lastSome_append, ← leavesButton, ← leavesButton,
    leavesButton_map, leavesButton_map]
  by_cases hs : k ∈ b.struck <;> by_cases hh : k ∈ b.held <;> simp [hs, hh]

theorem leavesButton_releaseInputs (b : Binding) (k : Button) :
    leavesButton k b.releaseInputs = if k ∈ b.held then some false else none := by
  rw [Binding.releaseInputs, leavesButton_map]
  simp

theorem slotEffect_eq {profile : PenButtonProfile} {prev now_bits : UInt8} {k : Button}
    {slot : UInt8} (h : slot ∈ slots) :
    slotEffect profile prev now_bits k slot =
      if isSet prev slot then
        (if isSet now_bits slot then none
        else if k ∈ (profile.binding slot).held then some false else none)
      else if isSet now_bits slot then
        (if k ∈ (profile.binding slot).struck then some false
        else if k ∈ (profile.binding slot).held then some true else none)
      else none := by
  rw [slotEffect, isSet_rose h, isSet_fell h, slotInputs]
  cases isSet prev slot <;> cases isSet now_bits slot <;>
    simp [leavesButton_pressInputs, leavesButton_releaseInputs] <;> rfl

theorem slotEffect_eq_true {profile : PenButtonProfile} {prev now_bits : UInt8} {k : Button}
    {slot : UInt8} (h : slot ∈ slots) :
    slotEffect profile prev now_bits k slot = some true ↔ Presses profile prev now_bits slot k := by
  have hdisjoint := (profile.binding slot).not_held_and_struck k
  rw [slotEffect_eq h, Presses]
  cases isSet prev slot <;> cases isSet now_bits slot <;> simp
  by_cases hstruck : k ∈ (profile.binding slot).struck
  · simp only [hstruck, if_true, Option.some.injEq, Bool.false_eq_true, false_iff]
    exact fun hheld => hdisjoint hheld hstruck
  · simp [hstruck]

theorem slotEffect_eq_false {profile : PenButtonProfile} {prev now_bits : UInt8} {k : Button}
    {slot : UInt8} (h : slot ∈ slots) :
    slotEffect profile prev now_bits k slot = some false ↔ Lifts profile prev now_bits slot k := by
  rw [slotEffect_eq h, Lifts]
  cases isSet prev slot <;> cases isSet now_bits slot <;> simp

theorem leavesButton_edgeInputs (profile : PenButtonProfile) (prev now_bits : UInt8) (k : Button) :
    leavesButton k (edgeInputs profile prev now_bits) =
      slots.lastSome (slotEffect profile prev now_bits k) := by
  rw [leavesButton, edgeInputs, List.lastSome_flatMap]
  rfl

/-- No slot lifts a button that is held behind the dispatch, unless a later slot presses it again. -/
def Undisturbed (profile : PenButtonProfile) (prev now_bits : UInt8) : Prop :=
  ∀ k, ∀ t ∈ slots, isSet now_bits t → k ∈ (profile.binding t).held →
    ∀ s ∈ slots, Lifts profile prev now_bits s k →
      ∃ u ∈ slots, s < u ∧ Presses profile prev now_bits u k

/-- The button is held by a slot that is down. -/
def HeldBy (profile : PenButtonProfile) (bits : UInt8) (k : Button) : Prop :=
  ∃ slot ∈ slots, isSet bits slot ∧ k ∈ (profile.binding slot).held

/-- No slot is down where no bit is set. -/
theorem not_heldBy_zero (profile : PenButtonProfile) (k : Button) : ¬ HeldBy profile 0 k := by
  rintro ⟨slot, hslot, hset, -⟩
  have hzero : ∀ slot ∈ slots, isSet 0 slot = false := by decide +kernel
  rw [hzero slot hslot] at hset
  cases hset

theorem not_lifted_iff (profile : PenButtonProfile) (prev now_bits : UInt8) (k : Button) :
    slots.lastSome (slotEffect profile prev now_bits k) ≠ some false ↔
      ∀ s ∈ slots, Lifts profile prev now_bits s k →
        ∃ u ∈ slots, s < u ∧ Presses profile prev now_bits u k := by
  have hsorted : slots.Pairwise (· < ·) := by decide
  rw [List.lastSome_ne_some_of_pairwise hsorted]
  constructor
  · intro h s hs hlifts
    obtain ⟨u, hu, hlt, w, hw, hpress⟩ := h s hs ((slotEffect_eq_false hs).2 hlifts)
    obtain rfl : w = true := by simpa using hw
    exact ⟨u, hu, hlt, (slotEffect_eq_true hu).1 hpress⟩
  · intro h s hs heffect
    obtain ⟨u, hu, hlt, hpress⟩ := h s hs ((slotEffect_eq_false hs).1 heffect)
    exact ⟨u, hu, hlt, true, by decide, (slotEffect_eq_true hu).2 hpress⟩

theorem undisturbed_iff (profile : PenButtonProfile) (prev now_bits : UInt8) :
    Undisturbed profile prev now_bits ↔
      ∀ k, HeldBy profile now_bits k →
        slots.lastSome (slotEffect profile prev now_bits k) ≠ some false := by
  constructor
  · rintro h k ⟨t, ht, hset, hheld⟩
    exact (not_lifted_iff profile prev now_bits k).2 (h k t ht hset hheld)
  · intro h k t ht hset hheld
    exact (not_lifted_iff profile prev now_bits k).1 (h k ⟨t, ht, hset, hheld⟩)

/-- **One dispatch and one button.**  Where the button was down exactly when held, it is so again just
when its last event is not a lift under a slot that holds it. -/
theorem dispatch_button_iff {profile : PenButtonProfile} {prev now_bits : UInt8} {k : Button}
    {was : Option Bool} (hwas : was = some true ↔ HeldBy profile prev k) :
    (((slots.lastSome (slotEffect profile prev now_bits k)).or was = some true) ↔
        HeldBy profile now_bits k) ↔
      (HeldBy profile now_bits k →
        slots.lastSome (slotEffect profile prev now_bits k) ≠ some false) := by
  cases hlast : slots.lastSome (slotEffect profile prev now_bits k) with
  | none =>
      -- no slot touches the button, so the same slots hold it as before
      have hsame : HeldBy profile prev k ↔ HeldBy profile now_bits k := by
        have hnone := List.lastSome_eq_none.1 hlast
        constructor
        · rintro ⟨slot, hslot, hset, hheld⟩
          refine ⟨slot, hslot, ?_, hheld⟩
          by_contra hnow
          have hlifts := (slotEffect_eq_false hslot).2 (.inr ⟨hset, by simpa using hnow, hheld⟩)
          rw [hnone slot hslot] at hlifts
          cases hlifts
        · rintro ⟨slot, hslot, hset, hheld⟩
          refine ⟨slot, hslot, ?_, hheld⟩
          by_contra hprev
          have hpress := (slotEffect_eq_true hslot).2 ⟨by simpa using hprev, hset, hheld⟩
          rw [hnone slot hslot] at hpress
          cases hpress
      rw [Option.none_or, hwas, hsame]
      simp
  | some v =>
      cases v with
      | true =>
          -- some slot presses it
          have hpress : HeldBy profile now_bits k := by
            obtain ⟨slot, hslot, heffect⟩ := List.exists_of_lastSome_eq_some hlast
            obtain ⟨-, hset, hheld⟩ := (slotEffect_eq_true hslot).1 heffect
            exact ⟨slot, hslot, hset, hheld⟩
          simp [hpress]
      | false => simp

/-! ### One call -/

section Calls

variable [Windows]

/-- `SendInput` succeeds. -/
def SendInputWorks : Prop := ∀ n input, Windows.accepts n (.sendInput input) = true

theorem acceptsAll_of_works (h : SendInputWorks) (n : ℕ) (is : List Input) :
    Windows.acceptsAll n (is.map .sendInput) = true := by
  induction is generalizing n with
  | nil => rfl
  | cons i is ih => rw [List.map_cons, Windows.acceptsAll, h n i, ih, Bool.true_and]

/-- No event was sent, and the slots are as they were. -/
def World.SameKeys (w w' : World) : Prop :=
  sentInputs w'.log = sentInputs w.log ∧ w'.inj.last_pen_buttons = w.inj.last_pen_buttons ∧
    w'.inj.pen_profile = w.inj.pen_profile

omit [Windows] in
theorem World.SameKeys.trans (u v w : World) (h₁ : u.SameKeys v) (h₂ : v.SameKeys w) :
    u.SameKeys w :=
  ⟨h₂.1.trans h₁.1, h₂.2.1.trans h₁.2.1, h₂.2.2.trans h₁.2.2⟩

omit [Windows] in
theorem World.Wrote.sameKeys {w w' : World} (h : w.Wrote w') : w.SameKeys w' := by
  obtain ⟨⟨more, hlog, hmore⟩, vmulti, hinj⟩ := h
  have hnone : sentInputs more = [] := by
    apply List.filterMap_eq_nil_iff.2
    rintro ⟨call, ok⟩ hc
    rcases hmore _ hc with ⟨frame, rfl⟩ | ⟨report, rfl⟩
    · rfl
    · rfl
  refine ⟨?_, by rw [hinj], by rw [hinj]⟩
  rw [hlog, sentInputs_append, hnone, List.append_nil]

variable [BuildProfile]

/-- The events of a sample are the events of its dispatch. -/
theorem injectPen_inputs (hworks : SendInputWorks) (w : World) (sample : PenSample) :
    sentInputs (w.step (.injectPen sample)).log = sentInputs w.log ++ dispatchInputs w sample ∧
      (w.step (.injectPen sample)).inj.last_pen_buttons = sample.buttons ∧
      (w.step (.injectPen sample)).inj.pen_profile = w.inj.pen_profile := by
  have hdispatch := dispatchPenButtons_exec w sample
  rw [if_pos (acceptsAll_of_works hworks _ _)] at hdispatch
  have hrest : (w.dispatched sample).SameKeys (w.step (.injectPen sample)) := by
    rw [World.step, Call.method, injectPen, exec_bind_of_ok hdispatch, exec_bind_of_ok (exec_self _)]
    exact Respects.bind World.SameKeys.trans (fun w => (writeSample_wrote sample _ w).sameKeys)
      (fun _ w => ⟨rfl, rfl, rfl⟩) _
  obtain ⟨hlog, hbuttons, hprofile⟩ := hrest
  refine ⟨?_, hbuttons, hprofile⟩
  rw [hlog]
  show sentInputs (w.log ++ _) = _
  rw [sentInputs_append, sentInputs_map]

omit [BuildProfile] in
/-- A dispatch leaves a button as its slots do. -/
theorem leavesButton_dispatchInputs (w : World) (sample : PenSample) (k : Button) :
    leavesButton k (dispatchInputs w sample) = slots.lastSome
      (slotEffect w.inj.pen_profile w.inj.last_pen_buttons sample.buttons k) := by
  rw [dispatchInputs, leavesButton, List.lastSome_append, ← leavesButton, ← leavesButton,
    leavesButton_edgeInputs]
  split
  · rw [leavesButton_mouseMove, Option.or_none]
  · exact Option.or_none

/-- The buttons that are down are the ones the held slots hold. -/
def KeysFollow (w : World) : Prop :=
  ∀ k, IsDown w.log k ↔ HeldBy w.inj.pen_profile w.inj.last_pen_buttons k

omit [Windows] [BuildProfile] in
theorem KeysFollow.new (found : Bool) : KeysFollow (.new found) := by
  intro k
  refine iff_of_false ?_ (not_heldBy_zero _ k)
  intro hdown
  cases hdown

omit [Windows] [BuildProfile] in
theorem KeysFollow.of_sameKeys {w w' : World} (h : KeysFollow w) (hsame : w.SameKeys w') :
    KeysFollow w' := by
  intro k
  rw [IsDown, hsame.1, hsame.2.1, hsame.2.2]
  exact h k

/-- **One sample.** -/
theorem KeysFollow.injectPen_iff (hworks : SendInputWorks) {w : World} (h : KeysFollow w)
    (sample : PenSample) :
    KeysFollow (w.step (.injectPen sample)) ↔
      Undisturbed w.inj.pen_profile w.inj.last_pen_buttons sample.buttons := by
  obtain ⟨hlog, hbuttons, hprofile⟩ := injectPen_inputs hworks w sample
  rw [undisturbed_iff]
  refine forall_congr' fun k => ?_
  rw [IsDown, hlog, hbuttons, hprofile, leavesButton, List.lastSome_append, ← leavesButton,
    ← leavesButton, leavesButton_dispatchInputs]
  exact dispatch_button_iff (h k)

omit [BuildProfile] in
theorem tried_log (hworks : SendInputWorks) (w : World) (is : List Input) :
    (w.tried is).log = w.log ++ is.map fun i => (.sendInput i, true) := by
  induction is generalizing w with
  | nil => simp [World.tried]
  | cons i is ih =>
      show ((w.after (.sendInput i)).tried is).log = _
      rw [ih, World.after, hworks]
      simp

omit [Windows] [BuildProfile] in
/-- The swap of the profile lifts what the held slots hold. -/
theorem leavesButton_swapInputs (self : InputInjector) (k : Button) :
    leavesButton k (swapInputs self) ≠ some true ∧
      (HeldBy self.pen_profile self.last_pen_buttons k →
        leavesButton k (swapInputs self) = some false) := by
  have hslot : ∀ slot, leavesButton k
      (if isSet self.last_pen_buttons slot then (self.pen_profile.binding slot).releaseInputs else []) =
        if isSet self.last_pen_buttons slot ∧ k ∈ (self.pen_profile.binding slot).held then some false
        else none := by
    intro slot
    by_cases hset : isSet self.last_pen_buttons slot
    · simp [hset, leavesButton_releaseInputs]
    · simp [hset, leavesButton]
  rw [leavesButton, swapInputs, List.lastSome_flatMap]
  have hnot : slots.lastSome (fun slot => leavesButton k (if isSet self.last_pen_buttons slot then
      (self.pen_profile.binding slot).releaseInputs else [])) ≠ some true := by
    intro htrue
    obtain ⟨slot, -, hlast⟩ := List.exists_of_lastSome_eq_some htrue
    rw [hslot] at hlast
    split at hlast <;> simp at hlast
  refine ⟨hnot, ?_⟩
  rintro ⟨slot, hmem, hset, hheld⟩
  cases hlast : slots.lastSome (fun slot => leavesButton k (if isSet self.last_pen_buttons slot then
      (self.pen_profile.binding slot).releaseInputs else [])) with
  | none =>
      have hnone := List.lastSome_eq_none.1 hlast slot hmem
      rw [hslot, if_pos ⟨hset, hheld⟩] at hnone
      cases hnone
  | some v =>
      cases v with
      | true => exact absurd hlast hnot
      | false => exact hlast

omit [BuildProfile] in
theorem KeysFollow.setPenProfile (hworks : SendInputWorks) {w : World} (h : KeysFollow w)
    (profile : PenButtonProfile) [BuildProfile] :
    KeysFollow (w.step (.setPenProfile profile)) := by
  intro k
  rw [World.step, Call.method, setPenProfile_exec]
  obtain ⟨hnot, hheld⟩ := leavesButton_swapInputs w.inj k
  refine iff_of_false ?_ (not_heldBy_zero _ k)
  rw [IsDown, tried_log hworks, sentInputs_append, sentInputs_map, leavesButton,
    List.lastSome_append, ← leavesButton, ← leavesButton]
  intro hdown
  cases hswap : leavesButton k (swapInputs w.inj) with
  | some v =>
      rw [hswap] at hdown hnot
      exact hnot hdown
  | none =>
      -- nothing was lifted, so nothing was down
      rw [hswap, Option.none_or] at hdown
      rw [hswap] at hheld
      cases hheld ((h k).1 hdown)

theorem injectTouch_sameKeys (snapshot : List TouchPoint) (w : World) :
    w.SameKeys (w.step (.injectTouch snapshot)) := by
  obtain ⟨⟨frames, hlog⟩, pos, hinj⟩ := injectTouch_touched snapshot w
  rw [World.step, Call.method]
  refine ⟨?_, by rw [hinj], by rw [hinj]⟩
  rw [hlog, sentInputs_append]
  convert List.append_nil _
  rw [sentInputs, List.filterMap_map]
  exact List.filterMap_eq_nil_iff.2 fun _ _ => rfl

/-! ### Runs -/

/-- **Held keys follow held buttons.**  They do after every call of a run just when every dispatch of the
run is undisturbed. -/
theorem keysFollow_iff (hworks : SendInputWorks) (found : Bool) (calls : List Call) :
    (∀ pre, pre <+: calls → KeysFollow (pre.foldl World.step (.new found))) ↔
      Run.Steps World.step (fun w c => ∀ sample, c = .injectPen sample →
        Undisturbed w.inj.pen_profile w.inj.last_pen_buttons sample.buttons) (.new found) calls := by
  refine Run.always_iff (fun w c h => ?_) (KeysFollow.new found)
  cases c with
  | injectPen sample =>
      rw [h.injectPen_iff hworks sample]
      constructor
      · rintro hundisturbed _ ⟨rfl⟩
        exact hundisturbed
      · intro hall
        exact hall sample rfl
  | injectTouch snapshot =>
      exact iff_of_true (h.of_sameKeys (injectTouch_sameKeys snapshot w)) fun _ heq => by cases heq
  | setPenProfile profile =>
      exact iff_of_true (h.setPenProfile hworks profile) fun _ heq => by cases heq

end Calls

theorem acceptsEvery_works : @SendInputWorks .acceptsEvery := fun _ _ => rfl

/-- A barrel button pressed and released under the default profile. -/
theorem keysFollow_iff_default :
    letI := Windows.acceptsEvery
    letI : BuildProfile := ⟨true⟩
    KeysFollow ([Call.injectPen (.hover false 1), .injectPen (.hover false 0)].foldl World.step (.new false)) := by
  let _ := Windows.acceptsEvery
  let _ : BuildProfile := ⟨true⟩
  refine (keysFollow_iff acceptsEvery_works false
    [.injectPen (.hover false 1), .injectPen (.hover false 0)]).2 ⟨?_, ?_, trivial⟩ _ (List.prefix_refl _)
  · -- the pressed slot strikes nothing, and no slot was down
    have hstrikes : ∀ s ∈ slots, isSet 1 s → (PenButtonProfile.default.binding s).struck = [] := by
      decide +kernel
    have hzero : ∀ s ∈ slots, isSet 0 s = false := by decide +kernel
    rintro _ ⟨rfl⟩ k t ht hset hheld s hs (⟨-, hnow, hstruck⟩ | ⟨hprev, -⟩)
    · have hnil : k ∈ [] := hstrikes s hs hnow ▸ hstruck
      cases hnil
    · exact absurd ((hzero s hs).symm.trans hprev) Bool.false_ne_true
  · -- no slot is down behind the second sample
    rintro _ ⟨rfl⟩ k t ht hset hheld
    exact absurd ⟨t, ht, hset, hheld⟩ (not_heldBy_zero _ k)

/-- Two buttons that hold Ctrl. -/
def sharedCtrl : PenButtonProfile :=
  ⟨.keyHold [vkControl], .keyHold [vkControl, vkShift], .none⟩

/-- **A key two slots hold.**  Both are pressed and the second is released: Ctrl is up, and the first
slot still holds it. -/
theorem sharedCtrl_not_keysFollow :
    letI := Windows.acceptsEvery
    letI : BuildProfile := ⟨true⟩
    ¬ KeysFollow ([Call.setPenProfile sharedCtrl, .injectPen (.hover false 3),
      .injectPen (.hover false 1)].foldl World.step (.new false)) := by
  let _ := Windows.acceptsEvery
  let _ : BuildProfile := ⟨true⟩
  intro h
  have hdown := (h (.key vkControl)).2 ⟨0, by decide, by decide +kernel, by decide +kernel⟩
  exact absurd hdown (by decide +kernel)

end Penflow
