import Penflow.Client.Activity

/-!
# Contacts and chords of the pen

Two promises of the pen capture are about more than one event.  The dead zone is to keep a whole phantom
contact from the PC, but it looks at the DOWN alone.  And both stylus buttons pressed at once are to stay the
third button for as long as they are pressed, but the chord is recognised by comparing an event with the
remembered buttons, so only the first event that gets through can show it.
-/

namespace Penflow.Client

namespace Activity

variable {F : Type} [PanelFloat F]

/-- The samples of a run. -/
def emittedIn : Activity F → List (Input F) → List (PenSample F)
  | _, [] => []
  | s, i :: is => s.emits i ++ emittedIn (s.step i) is

theorem foldl_step_samples (s : Activity F) (is : List (Input F)) :
    (is.foldl step s).samples = s.samples ++ s.emittedIn is := by
  induction is generalizing s with
  | nil => exact (List.append_nil _).symm
  | cons i is ih => rw [List.foldl_cons, ih, step_samples, emittedIn, List.append_assoc]

/-- The event gets through both filters. -/
def Passes (s : Activity F) (i : Input F) : Prop :=
  ∃ p penIndex, i.ev.findPen = some (p, penIndex) ∧
    s.penCapture.inDeadZone (i.ev.mapPhase penIndex) p.x p.y i.ev.eventTime = false ∧
    i.rect.inBar p.x p.y = false

instance (s : Activity F) (i : Input F) : Decidable (s.Passes i) :=
  match h : i.ev.findPen with
  | none => .isFalse fun ⟨_, _, hp, _⟩ => by rw [h] at hp; cases hp
  | some (p, penIndex) =>
    decidable_of_iff (s.penCapture.inDeadZone (i.ev.mapPhase penIndex) p.x p.y i.ev.eventTime = false ∧
        i.rect.inBar p.x p.y = false)
      ⟨fun hf => ⟨p, penIndex, h, hf⟩, fun ⟨_, _, hp, hf⟩ => by rw [h] at hp; cases hp; exact hf⟩

variable {s : Activity F} {i : Input F}

/-- An event that gets through is emitted, with the buttons decoded against the remembered ones. -/
theorem emits_of_passes (h : s.Passes i) : ∃ p penIndex, i.ev.findPen = some (p, penIndex) ∧
    s.emits i = PenInputCapture.samples i.rect i.ev p (i.ev.mapPhase penIndex)
      (sampleButtons s.penCapture.lastButtonsRaw i.ev.buttonState) := by
  obtain ⟨p, penIndex, hpen, hzone, hbar⟩ := h
  refine ⟨p, penIndex, hpen, ?_⟩
  rw [emits, PenInputCapture.consume_of_pen hpen, hzone, hbar]
  rfl

theorem emits_of_not_passes (h : ¬ s.Passes i) : s.emits i = [] := by
  cases hpen : i.ev.findPen with
  | none => rw [emits, PenInputCapture.consume_of_none hpen]
  | some x =>
      rw [emits, PenInputCapture.consume_of_pen hpen, if_pos]
      rw [Bool.or_eq_true]
      by_contra hneither
      rw [not_or, Bool.not_eq_true, Bool.not_eq_true] at hneither
      exact h ⟨x.1, x.2, hpen, hneither⟩

/-! ### A contact whose DOWN is swallowed -/

end Activity

namespace Input

variable {F : Type}

/-- The phase of the pen in the event. -/
def penPhase (i : Input F) : Option Int32 := i.ev.findPen.map fun p => i.ev.mapPhase p.2

/-- The contact of the pen ends here: with its UP, or because Android cancels it. -/
def endsContact (i : Input F) : Bool :=
  i.penPhase == some 3 || (i.ev.findPen.isSome && i.ev.action == .cancel)

/-- The pen is inside the active rectangle. -/
def PenInside [PanelFloat F] (i : Input F) : Prop :=
  ∀ p penIndex, i.ev.findPen = some (p, penIndex) → i.rect.inBar p.x p.y = false

end Input

/-- What belongs to a contact after its DOWN: the events up to its end, or up to the next DOWN where the end
is missing. -/
def contactRest {F : Type} : List (Input F) → List (Input F)
  | [] => []
  | i :: is =>
    if i.penPhase = some 1 then []
    else if i.endsContact then [i]
    else i :: contactRest is

namespace Activity

variable {F : Type} [PanelFloat F] {s : Activity F} {i : Input F}

/-- The dead zone swallows the DOWN of the pen. -/
def SwallowsDown (s : Activity F) (i : Input F) : Prop :=
  ∃ p penIndex, i.ev.findPen = some (p, penIndex) ∧ i.ev.mapPhase penIndex = 1 ∧
    s.penCapture.inDeadZone 1 p.x p.y i.ev.eventTime = true

theorem emits_of_swallowsDown (h : s.SwallowsDown i) : s.emits i = [] := by
  obtain ⟨p, penIndex, hpen, hphase, hzone⟩ := h
  rw [emits, PenInputCapture.consume_of_pen hpen, hphase, hzone]
  rfl

/-- Any event of the contact but its DOWN shows the PC a contact exactly when it is a move. -/
theorem emits_lifted_iff (hinside : i.PenInside) (hdown : i.penPhase ≠ some 1) :
    (∀ x ∈ s.emits i, x.inContact = false) ↔ i.penPhase ≠ some 2 := by
  cases hpen : i.ev.findPen with
  | none =>
      rw [emits, PenInputCapture.consume_of_none hpen, Input.penPhase, hpen]
      simp
  | some p =>
      have hphase : i.penPhase = some (i.ev.mapPhase p.2) := by rw [Input.penPhase, hpen]; rfl
      rw [hphase] at hdown ⊢
      constructor
      · intro hnone hmove
        have hmove : i.ev.mapPhase p.2 = 2 := Option.some.inj hmove
        have hzone : s.penCapture.inDeadZone 2 p.1.x p.1.y i.ev.eventTime = false :=
          PenInputCapture.inDeadZone_eq_false (by decide) (by decide) _ _ _
        have hpasses : s.Passes i := ⟨p.1, p.2, hpen, by rw [hmove]; exact hzone, hinside p.1 p.2 hpen⟩
        obtain ⟨q, k, hq, hemits⟩ := emits_of_passes hpasses
        obtain ⟨x, hlast, hx⟩ := PenInputCapture.samples_getLast? i.rect i.ev q (i.ev.mapPhase k)
          (sampleButtons s.penCapture.lastButtonsRaw i.ev.buttonState)
        have hlifted := hnone x (by rw [hemits]; exact List.mem_of_getLast? hlast)
        rw [hpen] at hq
        cases hq
        rw [PenSample.inContact, hx, hmove] at hlifted
        cases hlifted
      · intro hmove x hx
        rw [PenSample.inContact, emits_inContact hpen x hx]
        rw [Bool.or_eq_false_iff, beq_eq_false_iff_ne, beq_eq_false_iff_ne]
        exact ⟨fun h => hdown (congrArg some h), fun h => hmove (congrArg some h)⟩

theorem contactRest_lifted_iff (s : Activity F) {is : List (Input F)} (hinside : ∀ i ∈ is, i.PenInside) :
    (∀ x ∈ s.emittedIn (contactRest is), x.inContact = false) ↔
      ∀ i ∈ contactRest is, i.penPhase ≠ some 2 := by
  induction is generalizing s with
  | nil => simp [contactRest, emittedIn]
  | cons i is ih =>
      rw [contactRest]
      by_cases hdown : i.penPhase = some 1
      · rw [if_pos hdown]
        simp [emittedIn]
      · have hi := emits_lifted_iff (s := s) (hinside i List.mem_cons_self) hdown
        rw [if_neg hdown]
        split
        · rw [emittedIn, emittedIn, List.append_nil, List.forall_mem_singleton]
          exact hi
        · rw [emittedIn, List.forall_mem_append, List.forall_mem_cons, hi,
            ih (s.step i) fun j hj => hinside j (List.mem_cons_of_mem i hj)]

/-- **A swallowed contact.**  Of a contact whose DOWN falls into the dead zone the PC sees no sample in contact
exactly when the pen does not move: up to its UP no event of the pen's has the phase of a move. -/
theorem swallowed_contact_iff (pre : List (Input F)) (down : Input F) (rest : List (Input F))
    (hinside : ∀ i ∈ rest, i.PenInside) (hdown : (pre.foldl step start).SwallowsDown down) :
    (∀ x ∈ (pre.foldl step start).emittedIn (down :: contactRest rest), x.phase ≠ 1 ∧ x.phase ≠ 2) ↔
      ∀ i ∈ contactRest rest, i.penPhase ≠ some 2 := by
  have hphases : ∀ x : PenSample F, x.phase ≠ 1 ∧ x.phase ≠ 2 ↔ x.inContact = false := by
    intro x
    rw [PenSample.inContact, Bool.or_eq_false_iff, beq_eq_false_iff_ne, beq_eq_false_iff_ne]
  simp only [hphases]
  rw [emittedIn, emits_of_swallowsDown hdown, List.nil_append]
  exact contactRest_lifted_iff _ hinside

/-- A pen that trembles: lifted, down again at the same place 20 ms later, and drawn away. -/
def trembling : List (Input ℚ) × Input ℚ × List (Input ℚ) :=
  ([.square .down 0 1000 0 [.still 0 .stylus 50 50 1],
      .square .up 0 1050 0 [.still 0 .stylus 50 50 0]],
    .square .down 0 1070 0 [.still 0 .stylus 52 50 1],
    [.square .move 0 1080 0 [.still 0 .stylus 60 50 1],
      .square .up 0 1090 0 [.still 0 .stylus 62 50 0]])

theorem trembling_legal :
    Run.Steps step Legal start (trembling.1 ++ trembling.2.1 :: trembling.2.2) :=
  ⟨⟨by decide, List.cons_ne_nil _ _, rfl, rfl, rfl⟩, ⟨by decide, List.cons_ne_nil _ _, rfl, rfl, .refl _⟩,
    ⟨by decide, List.cons_ne_nil _ _, rfl, rfl, rfl⟩, ⟨by decide, List.cons_ne_nil _ _, by decide, .refl _⟩,
    ⟨by decide, List.cons_ne_nil _ _, rfl, rfl, .refl _⟩, trivial⟩

theorem trembling_inside : ∀ i ∈ trembling.2.2, i.PenInside := by
  intro i hi p penIndex hpen
  simp only [trembling, List.mem_cons, List.not_mem_nil, or_false] at hi
  rcases hi with rfl | rfl
  · cases hpen
    decide +kernel
  · cases hpen
    decide +kernel

theorem trembling_swallowed : (trembling.1.foldl step start).SwallowsDown trembling.2.1 :=
  ⟨_, 0, rfl, rfl, by decide +kernel⟩

/-- The phantom contact reaches the PC with the first move. -/
theorem trembling_leaks : ¬ ∀ (pre : List (Input ℚ)) (down : Input ℚ) (rest : List (Input ℚ)),
    Run.Steps step Legal start (pre ++ down :: rest) → (∀ i ∈ rest, i.PenInside) →
      (pre.foldl step start).SwallowsDown down →
        ∀ x ∈ (pre.foldl step start).emittedIn (down :: contactRest rest), x.phase ≠ 1 ∧ x.phase ≠ 2 := by
  intro h
  have hnone := h _ _ _ trembling_legal trembling_inside trembling_swallowed
  rw [emittedIn, emits_of_swallowsDown trembling_swallowed, List.nil_append] at hnone
  have hlifted : ∀ x ∈ ((trembling.1.foldl step start).step trembling.2.1).emittedIn
      (contactRest trembling.2.2), x.inContact = false := by
    intro x hx
    rw [PenSample.inContact, Bool.or_eq_false_iff, beq_eq_false_iff_ne, beq_eq_false_iff_ne]
    exact hnone x hx
  exact (contactRest_lifted_iff _ trembling_inside).1 hlifted _ List.mem_cons_self rfl

/-- Without the move the contact stays hidden: the pen is lifted where it came down. -/
theorem swallowed_contact_iff_trembling :
    let emitted := (trembling.1.foldl step start).emittedIn (trembling.2.1 :: contactRest (trembling.2.2.drop 1))
    emitted.length = 1 ∧ ∀ x ∈ emitted, x.phase ≠ 1 ∧ x.phase ≠ 2 := by
  refine ⟨by decide +kernel, ?_⟩
  refine (swallowed_contact_iff trembling.1 trembling.2.1 (trembling.2.2.drop 1)
    (fun i hi => trembling_inside i (List.mem_of_mem_drop hi)) trembling_swallowed).2 ?_
  intro i hi
  obtain rfl : i = .square .up 0 1090 0 [.still 0 .stylus 62 50 0] := List.mem_singleton.1 hi
  decide

/-! ### The chord -/

end Activity

/-- Neither stylus button is pressed. -/
def noStylus (rawButtons : Int32) : Prop :=
  rawButtons &&& buttonStylusPrimary = 0 ∧ rawButtons &&& buttonStylusSecondary = 0

/-- Both stylus buttons are pressed. -/
def bothStylus (rawButtons : Int32) : Prop :=
  rawButtons &&& buttonStylusPrimary ≠ 0 ∧ rawButtons &&& buttonStylusSecondary ≠ 0

/-- The mask of a sample has the third button, and neither of the other two. -/
def OnlyThird (buttons : Int32) : Prop :=
  buttons &&& 0b100 ≠ 0 ∧ buttons &&& 0b001 = 0 ∧ buttons &&& 0b010 = 0

instance (rawButtons : Int32) : Decidable (noStylus rawButtons) := inferInstanceAs (Decidable (_ ∧ _))

instance (rawButtons : Int32) : Decidable (bothStylus rawButtons) := inferInstanceAs (Decidable (_ ∧ _))

instance (buttons : Int32) : Decidable (OnlyThird buttons) := inferInstanceAs (Decidable (_ ∧ _ ∧ _))

theorem not_noStylus {rawButtons : Int32} (h : bothStylus rawButtons) : ¬ noStylus rawButtons :=
  fun hno => h.1 hno.1

/-- While both are pressed, the sample shows the third button just when neither was pressed before. -/
theorem onlyThird_sampleButtons_iff {rawButtons : Int32} (h : bothStylus rawButtons) (last : Int32) :
    OnlyThird (sampleButtons last rawButtons) ↔ noStylus last := by
  have hprimary : (rawButtons &&& buttonStylusPrimary != 0) = true := bne_iff_ne.2 h.1
  have hsecondary : (rawButtons &&& buttonStylusSecondary != 0) = true := bne_iff_ne.2 h.2
  unfold sampleButtons noStylus
  simp only [hprimary, hsecondary, Bool.true_and]
  rw [← bne_eq_false_iff_eq (a := last &&& buttonStylusPrimary),
    ← bne_eq_false_iff_eq (a := last &&& buttonStylusSecondary)]
  generalize (last &&& buttonStylusPrimary != 0) = oldPrimary
  generalize (last &&& buttonStylusSecondary != 0) = oldSecondary
  generalize (rawButtons &&& buttonTertiary != 0) = tertiary
  revert oldPrimary oldSecondary tertiary
  decide

/-- A press of both stylus buttons at once: before it neither is pressed, and from `chord` on both are. -/
structure ChordPress {F : Type} (pre : List (Input F)) (chord : Input F) (hold : List (Input F)) :
    Prop where
  before : ∀ i ∈ (pre.filter fun i => i.ev.findPen.isSome).getLast?, noStylus i.ev.buttonState
  consumed : chord.ev.findPen.isSome = true
  held : ∀ i ∈ chord :: hold, i.ev.findPen.isSome = true → bothStylus i.ev.buttonState

namespace Activity

variable {F : Type} [PanelFloat F] {s : Activity F} {i : Input F}

/-- The events of a run that get through both filters. -/
def passing : Activity F → List (Input F) → List (Input F)
  | _, [] => []
  | s, i :: is => if s.Passes i then i :: passing (s.step i) is else passing (s.step i) is

theorem step_penCapture : (s.step i).penCapture = (s.penCapture.consume i.rect i.ev).2.1 := by
  show (if i.ev.action.isTouch then s.dispatchTouchEvent i else s.dispatchGenericMotionEvent i).penCapture = _
  unfold dispatchTouchEvent dispatchGenericMotionEvent offerPen offerTouch
  dsimp only
  repeat' split
  all_goals rfl

/-- Only an event that gets through is remembered. -/
theorem step_lastButtonsRaw : (s.step i).penCapture.lastButtonsRaw =
    if s.Passes i then i.ev.buttonState else s.penCapture.lastButtonsRaw := by
  rw [step_penCapture]
  cases hpen : i.ev.findPen with
  | none =>
      have hblocked : ¬ s.Passes i := by
        rintro ⟨p, penIndex, hp, -⟩
        rw [hpen] at hp
        cases hp
      rw [PenInputCapture.consume_of_none hpen, if_neg hblocked]
  | some x =>
      have hpasses : s.Passes i ↔
          s.penCapture.inDeadZone (i.ev.mapPhase x.2) x.1.x x.1.y i.ev.eventTime = false ∧
            i.rect.inBar x.1.x x.1.y = false := by
        constructor
        · rintro ⟨p, penIndex, hp, hfilters⟩
          rw [hpen] at hp
          cases hp
          exact hfilters
        · exact fun hfilters => ⟨x.1, x.2, hpen, hfilters⟩
      rw [if_congr hpasses rfl rfl, PenInputCapture.consume, hpen]
      dsimp only
      cases s.penCapture.inDeadZone (i.ev.mapPhase x.2) x.1.x x.1.y i.ev.eventTime with
      | true => rfl
      | false =>
          cases i.rect.inBar x.1.x x.1.y with
          | true =>
              by_cases hup : i.ev.mapPhase x.2 = 3
              · simp [hup]
              · simp [hup]
          | false => rfl

/-- The remembered buttons are those of the last event that got through. -/
theorem foldl_lastButtonsRaw (s : Activity F) (is : List (Input F)) :
    (is.foldl step s).penCapture.lastButtonsRaw =
      ((s.passing is).getLast?.map fun i => i.ev.buttonState).getD s.penCapture.lastButtonsRaw := by
  induction is generalizing s with
  | nil => rfl
  | cons i is ih =>
      rw [List.foldl_cons, ih, passing, step_lastButtonsRaw]
      by_cases hpasses : s.Passes i
      · rw [if_pos hpasses, if_pos hpasses, List.getLast?_cons]
        cases ((s.step i).passing is).getLast? with
        | none => rfl
        | some j => rfl
      · rw [if_neg hpasses, if_neg hpasses]

theorem emits_onlyThird_iff (hpasses : s.Passes i) (hboth : bothStylus i.ev.buttonState) :
    (∀ x ∈ s.emits i, OnlyThird x.buttons) ↔ noStylus s.penCapture.lastButtonsRaw := by
  obtain ⟨p, penIndex, -, hemits⟩ := emits_of_passes hpasses
  rw [hemits, ← onlyThird_sampleButtons_iff hboth s.penCapture.lastButtonsRaw]
  constructor
  · intro h
    exact h _ (List.mem_append_right _ List.mem_cons_self)
  · intro h x hx
    rcases List.mem_append.1 hx with hx | hx
    · obtain ⟨y, -, rfl⟩ := List.mem_map.1 hx
      exact h
    · rw [List.mem_singleton.1 hx]
      exact h

/-- While both stylus buttons stay pressed, one event at most may get through, and neither of them may be
pressed in what is remembered then. -/
theorem emittedIn_onlyThird_iff (s : Activity F) {is : List (Input F)}
    (hheld : ∀ i ∈ is, i.ev.findPen.isSome = true → bothStylus i.ev.buttonState) :
    (∀ x ∈ s.emittedIn is, OnlyThird x.buttons) ↔
      (s.passing is).length ≤ 1 ∧ (s.passing is ≠ [] → noStylus s.penCapture.lastButtonsRaw) := by
  induction is generalizing s with
  | nil => simp [emittedIn, passing]
  | cons i is ih =>
      have hrest := ih (s.step i) fun j hj => hheld j (List.mem_cons_of_mem i hj)
      rw [emittedIn, List.forall_mem_append, hrest, passing, step_lastButtonsRaw]
      by_cases hpasses : s.Passes i
      · have hboth : bothStylus i.ev.buttonState := by
          obtain ⟨p, penIndex, hpen, -⟩ := hpasses
          exact hheld i List.mem_cons_self (by rw [hpen]; rfl)
        rw [if_pos hpasses, if_pos hpasses, emits_onlyThird_iff hpasses hboth]
        have hlast : (s.step i).passing is ≠ [] → ¬ noStylus i.ev.buttonState :=
          fun _ => not_noStylus hboth
        cases hnext : (s.step i).passing is with
        | nil => simp
        | cons j js =>
            rw [hnext] at hlast
            refine iff_of_false ?_ ?_
            · rintro ⟨-, -, hno⟩
              exact hlast (List.cons_ne_nil j js) (hno (List.cons_ne_nil j js))
            · rintro ⟨hone, -⟩
              simp at hone
      · rw [if_neg hpasses, if_neg hpasses, emits_of_not_passes hpasses]
        simp

/-- **The chord.**  From the event in which both stylus buttons go down at once, for as long as both stay
down, every sample shows the third button alone exactly when at most one event of the press gets through the
filters and, where one does, the last event that got through before it showed neither button. -/
theorem chord_onlyThird_iff (pre : List (Input F)) (chord : Input F) (hold : List (Input F))
    (hpress : ChordPress pre chord hold) :
    (∀ x ∈ (pre.foldl step start).emittedIn (chord :: hold), OnlyThird x.buttons) ↔
      ((pre.foldl step start).passing (chord :: hold)).length ≤ 1 ∧
        ((pre.foldl step start).passing (chord :: hold) ≠ [] →
          ∀ i ∈ (start.passing pre).getLast?, noStylus i.ev.buttonState) := by
  have hremembered : noStylus (pre.foldl step start).penCapture.lastButtonsRaw ↔
      ∀ i ∈ (start.passing pre).getLast?, noStylus i.ev.buttonState := by
    rw [foldl_lastButtonsRaw]
    cases (start.passing pre).getLast? with
    | none => exact iff_of_true (by decide : noStylus 0) (by simp)
    | some i => simp
  rw [emittedIn_onlyThird_iff _ hpress.held, hremembered]

/-- Both buttons go down while the pen hovers. -/
def chordDown : Input ℚ := .square .hoverMove 0 1000 0x60 [.still 0 .stylus 50 50 0]

/-- They stay down, and the pen hovers on. -/
def chordHeld : Input ℚ := .square .hoverMove 0 1010 0x60 [.still 0 .stylus 51 50 0]

theorem chordDown_press : ChordPress [] chordDown [chordHeld] := by
  refine ⟨?_, rfl, ?_⟩
  · intro i hi
    cases hi
  · intro i hi _
    simp only [List.mem_cons, List.not_mem_nil, or_false] at hi
    rcases hi with rfl | rfl
    · decide
    · decide

/-- The second sample of the press shows the first and the second button. -/
theorem chord_leaks : ¬ ∀ (pre : List (Input ℚ)) (chord : Input ℚ) (hold : List (Input ℚ)),
    Run.Steps step Legal start (pre ++ chord :: hold) → ChordPress pre chord hold →
      ∀ x ∈ (pre.foldl step start).emittedIn (chord :: hold), OnlyThird x.buttons := by
  intro h
  have hlegal : Run.Steps step Legal start ([] ++ chordDown :: [chordHeld]) :=
    ⟨⟨by decide, List.cons_ne_nil _ _, rfl⟩, ⟨by decide, List.cons_ne_nil _ _, rfl⟩, trivial⟩
  have honly := h [] chordDown [chordHeld] hlegal chordDown_press
  have hone := ((emittedIn_onlyThird_iff _ chordDown_press.held).1 honly).1
  revert hone
  decide +kernel

/-- The one sample of the press shows the third button alone. -/
theorem chord_onlyThird_iff_hovering :
    let emitted := ([].foldl step start).emittedIn [chordDown]
    emitted.length = 1 ∧ ∀ x ∈ emitted, OnlyThird x.buttons := by
  have hpress : ChordPress [] chordDown [] :=
    ⟨chordDown_press.before, chordDown_press.consumed,
      fun i hi => chordDown_press.held i (List.mem_append_left [chordHeld] hi)⟩
  refine ⟨by decide +kernel, (chord_onlyThird_iff [] chordDown [] hpress).2 ⟨by decide +kernel, fun _ => ?_⟩⟩
  intro i hi
  cases hi

end Activity

end Penflow.Client
