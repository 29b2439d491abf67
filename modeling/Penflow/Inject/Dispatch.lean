import Penflow.Inject.WinInk
import Penflow.Lib.Attempts

/-!
# What button dispatch sends

`dispatch_pen_buttons` performs the actions of the button edges one after the other and ends at the first
event Windows rejects.  `Performs` says this of a method, with one rule for each way the methods are put
together; `dispatchPenButtons_performs` says it of the dispatch action by action, `dispatchPenButtons_exec`
what it comes to.
-/

namespace Penflow

open InjectM Attempts

/-! ### The events of a binding -/

/-- The event of a button going down or up. -/
def buttonInput : Button → Bool → Input
  | .key vk, down => .keyboard vk (if down then 0 else keyeventfKeyup)
  | .mouse kind, down => .mouse 0 0 (mouseButtonFlags kind down)

/-- The events at the press of a binding. -/
def Binding.pressInputs (b : Binding) : List Input :=
  (b.held ++ b.struck).map (buttonInput · true) ++ b.struck.reverse.map (buttonInput · false)

/-- The events at its release. -/
def Binding.releaseInputs (b : Binding) : List Input := b.held.reverse.map (buttonInput · false)

theorem keyInputs (keys : List VirtualKey) (down : Bool) :
    (keys.map .key).map (buttonInput · down) =
      keys.map fun vk => .keyboard vk (if down then 0 else keyeventfKeyup) := by
  rw [List.map_map]
  rfl

theorem releaseInputs_keyHold (keys : List VirtualKey) :
    (Binding.keyHold keys).releaseInputs =
      keys.reverse.map fun vk => .keyboard vk keyeventfKeyup := by
  simp only [Binding.releaseInputs, Binding.held, ← List.map_reverse, keyInputs,
    if_neg Bool.false_ne_true]

/-- The events of a slot. -/
def slotInputs (b : Binding) (pressed released : Bool) : List Input :=
  (if pressed then b.pressInputs else []) ++ (if released then b.releaseInputs else [])

/-- Whether the edges of a slot turn the sticky eraser over. -/
def slotToggles (b : Binding) (pressed : Bool) : Bool := pressed && b == .eraserToggle

/-! ### The world behind them -/

/-- The world when Windows has taken the events `is`. -/
def World.sent (w : World) (is : List Input) (toggle : Bool) : World where
  inj := { w.inj with pen_eraser_sticky := xor w.inj.pen_eraser_sticky toggle }
  log := w.log ++ is.map fun i => (.sendInput i, true)

/-- Nothing was done but sending events and turning the sticky eraser. -/
def World.Sent (w w' : World) : Prop :=
  (∃ sent : List (Input × Bool), w'.log = w.log ++ sent.map fun s => (.sendInput s.1, s.2)) ∧
    ∃ sticky, w'.inj = { w.inj with pen_eraser_sticky := sticky }

theorem World.sent_nil (w : World) : w.sent [] false = w := by
  simp [World.sent]

theorem World.sent_sent (w : World) (is js : List Input) (t u : Bool) :
    (w.sent is t).sent js u = w.sent (is ++ js) (xor t u) := by
  simp [World.sent]

theorem World.sent_length (w : World) (is : List Input) (toggle : Bool) :
    (w.sent is toggle).log.length = w.log.length + (is.map OsCall.sendInput).length := by
  simp [World.sent]

theorem World.Sent.refl (w : World) : w.Sent w := ⟨⟨[], by simp⟩, w.inj.pen_eraser_sticky, rfl⟩

theorem World.Sent.trans {u v w : World} (h₁ : u.Sent v) (h₂ : v.Sent w) : u.Sent w := by
  obtain ⟨⟨s₁, hlog₁⟩, b₁, hinj₁⟩ := h₁
  obtain ⟨⟨s₂, hlog₂⟩, b₂, hinj₂⟩ := h₂
  refine ⟨⟨s₁ ++ s₂, ?_⟩, b₂, ?_⟩
  · rw [hlog₂, hlog₁, List.map_append, List.append_assoc]
  · rw [hinj₂, hinj₁]

theorem World.Sent.sent (w : World) (is : List Input) (toggle : Bool) : w.Sent (w.sent is toggle) :=
  ⟨⟨is.map fun i => (i, true), by simp [World.sent]⟩, _, rfl⟩

/-! ### Actions -/

/-- One thing that an edge of a button does. -/
inductive ButtonAction where
  | send (i : Input)
  /-- the sticky eraser turns over -/
  | toggle
  deriving DecidableEq, Repr

/-- What the press of a binding does. -/
def Binding.pressActions (b : Binding) : List ButtonAction :=
  if b = .eraserToggle then [.toggle] else b.pressInputs.map .send

/-- What its release does. -/
def Binding.releaseActions (b : Binding) : List ButtonAction := b.releaseInputs.map .send

def slotActions (b : Binding) (pressed released : Bool) : List ButtonAction :=
  (if pressed then b.pressActions else []) ++ (if released then b.releaseActions else [])

namespace ButtonAction

/-- The events among the actions. -/
def inputs (as : List ButtonAction) : List Input :=
  as.filterMap fun
    | .send i => some i
    | .toggle => none

/-- Whether the actions turn the sticky eraser over. -/
def turns (as : List ButtonAction) : Bool := as.foldr (fun a t => xor (a == .toggle) t) false

theorem inputs_append (as bs : List ButtonAction) : inputs (as ++ bs) = inputs as ++ inputs bs :=
  List.filterMap_append

theorem inputs_map_send (is : List Input) : inputs (is.map .send) = is := by
  induction is with
  | nil => rfl
  | cons i is ih =>
      show i :: inputs (is.map .send) = i :: is
      rw [ih]

theorem turns_append (as bs : List ButtonAction) : turns (as ++ bs) = xor (turns as) (turns bs) := by
  induction as with
  | nil => exact (Bool.false_xor _).symm
  | cons a as ih =>
      show xor (a == .toggle) (turns (as ++ bs)) = xor (xor (a == .toggle) (turns as)) (turns bs)
      rw [ih, Bool.xor_assoc]

theorem turns_map_send (is : List Input) : turns (is.map .send) = false := by
  induction is with
  | nil => rfl
  | cons i is ih =>
      show xor false (turns (is.map .send)) = false
      rw [ih, Bool.xor_false]

theorem turns_flatMap {α : Type} (l : List α) (f : α → List ButtonAction) :
    turns (l.flatMap f) = l.foldr (fun a t => xor (turns (f a)) t) false := by
  induction l with
  | nil => rfl
  | cons a l ih => rw [List.flatMap_cons, turns_append, ih, List.foldr_cons]

end ButtonAction

open ButtonAction

theorem inputs_slotActions (b : Binding) (pressed released : Bool) :
    inputs (slotActions b pressed released) = slotInputs b pressed released := by
  have hpress : inputs b.pressActions = b.pressInputs := by
    rw [Binding.pressActions]
    split
    case isTrue h =>
      rw [h]
      rfl
    case isFalse h => exact inputs_map_send _
  have hrelease : inputs b.releaseActions = b.releaseInputs := inputs_map_send _
  rw [slotActions, slotInputs, inputs_append]
  cases pressed with
  | true =>
      cases released with
      | true => exact congrArg₂ _ hpress hrelease
      | false => exact congrArg (· ++ []) hpress
  | false =>
      cases released with
      | true => exact hrelease
      | false => rfl

theorem turns_slotActions (b : Binding) (pressed released : Bool) :
    turns (slotActions b pressed released) = slotToggles b pressed := by
  have hpress : turns b.pressActions = (b == .eraserToggle) := by
    rw [Binding.pressActions]
    split
    case isTrue h =>
      rw [h]
      rfl
    case isFalse h =>
      rw [turns_map_send]
      exact (beq_eq_false_iff_ne.2 h).symm
  have hrelease : turns (if released then b.releaseActions else []) = false := by
    split
    · exact turns_map_send _
    · rfl
  rw [slotActions, turns_append, hrelease, Bool.xor_false, slotToggles]
  cases pressed with
  | true => exact hpress
  | false => rfl

/-! ### Rules -/

variable [Windows]

/-- The world behind an action, and whether the action was performed: an event is not where Windows rejects
it. -/
def World.act (w : World) : ButtonAction → World × Bool
  | .send i => (w.after (.sendInput i), Windows.accepts w.log.length (.sendInput i))
  | .toggle => ({ w with inj := { w.inj with pen_eraser_sticky := !w.inj.pen_eraser_sticky } }, true)

theorem act_toggle (w : World) : w.act .toggle = (w.sent [] true, true) := by
  simp [World.act, World.sent]

theorem act_send_accepted {w : World} {i : Input} (h : Windows.accepts w.log.length (.sendInput i) = true) :
    w.act (.send i) = (w.sent [i] false, true) := by
  simp [World.act, World.sent, World.after, h]

theorem act_send_rejected {w : World} {i : Input} (h : Windows.accepts w.log.length (.sendInput i) = false) :
    w.act (.send i) = (w.after (.sendInput i), false) := by
  rw [World.act, h]

/-- `m` performs the actions `as`, up to the first event that Windows rejects. -/
def Performs (w : World) (m : InjectM Unit) (as : List ButtonAction) : Prop :=
  exec m w = (if Completes World.act w as then .ok () else .error (.err .win32),
    (perform World.act w as).2)

theorem performs_pure (w : World) : Performs w (pure ()) [] := rfl

theorem performs_callOk (w : World) (i : Input) : Performs w (callOk (.sendInput i)) [.send i] := by
  rw [Performs, exec_callOk]
  cases haccepts : Windows.accepts w.log.length (.sendInput i) with
  | true =>
      have hact := act_send_accepted haccepts
      rw [if_pos ((completes_cons_of_ok hact).2 completes_nil), perform_cons_of_ok hact]
      simp [World.after, World.sent, haccepts, perform_nil]
  | false =>
      have hact := act_send_rejected haccepts
      rw [if_neg (not_completes_cons hact), perform_cons_of_fails hact]
      rfl

theorem performs_toggle (w : World) : Performs w
    (update fun self => { self with pen_eraser_sticky := !self.pen_eraser_sticky }) [.toggle] := rfl

theorem Performs.bind {w : World} {m₁ m₂ : InjectM Unit} {as bs : List ButtonAction}
    (h₁ : Performs w m₁ as) (h₂ : ∀ w', Performs w' m₂ bs) :
    Performs w (m₁ >>= fun _ => m₂) (as ++ bs) := by
  by_cases h : Completes World.act w as
  · rw [Performs, if_pos h] at h₁
    rw [Performs, exec_bind_of_ok h₁, h₂ _, perform_append_of_completes h]
    simp only [completes_append, and_iff_right h]
  · rw [Performs, if_neg h] at h₁
    rw [Performs, exec_bind_of_error h₁, perform_append_of_not_completes h,
      if_neg fun hc => h (completes_append.1 hc).1]

theorem performs_forM {α : Type} {l : List α} {m : α → InjectM Unit} {as : α → List ButtonAction}
    (h : ∀ w, ∀ a ∈ l, Performs w (m a) (as a)) (w : World) :
    Performs w (l.forM m) (l.flatMap as) := by
  induction l generalizing w with
  | nil => exact performs_pure w
  | cons a l ih =>
      show Performs w (m a >>= fun _ => l.forM m) (as a ++ l.flatMap as)
      refine (h w a List.mem_cons_self).bind fun w' => ?_
      exact ih (fun w b hb => h w b (List.mem_cons_of_mem a hb)) w'

/-- One event for each element of a list. -/
theorem performs_each {α : Type} (l : List α) (f : α → Input) (w : World) :
    Performs w (l.forM fun a => callOk (.sendInput (f a))) ((l.map f).map .send) := by
  have h : Performs w _ (l.flatMap fun a => [.send (f a)]) :=
    performs_forM (fun w a _ => performs_callOk w (f a)) w
  rw [← List.map_eq_flatMap] at h
  rw [List.map_map]
  exact h

theorem performs_pressBinding (b : Binding) (w : World) :
    Performs w (pressBinding b) b.pressActions := by
  cases b with
  | none => exact performs_pure w
  | keyTap vk => exact (performs_callOk w _).bind fun w' => performs_callOk w' _
  | keyHold keys =>
      have hinputs : (Binding.keyHold keys).pressInputs = keys.map fun vk => .keyboard vk 0 := by
        simp only [Binding.pressInputs, Binding.held, Binding.struck, List.append_nil,
          List.reverse_nil, List.map_nil, keyInputs, if_true]
      show Performs w _ ((Binding.keyHold keys).pressInputs.map .send)
      rw [hinputs]
      exact performs_each keys _ w
  | keyChord keys =>
      have hinputs : (Binding.keyChord keys).pressInputs =
          (keys.map fun vk => .keyboard vk 0) ++
            keys.reverse.map fun vk => .keyboard vk keyeventfKeyup := by
        simp only [Binding.pressInputs, Binding.held, Binding.struck, List.nil_append,
          ← List.map_reverse, keyInputs, if_true, if_neg Bool.false_ne_true]
      show Performs w _ ((Binding.keyChord keys).pressInputs.map .send)
      rw [hinputs, List.map_append]
      exact (performs_each keys _ w).bind fun w' => performs_each keys.reverse _ w'
  | mouseButton kind => exact performs_callOk w _
  | eraserToggle => exact performs_toggle w

theorem performs_releaseBinding (b : Binding) (w : World) :
    Performs w (releaseBinding b) b.releaseActions := by
  cases b with
  | keyHold keys =>
      rw [Binding.releaseActions, releaseInputs_keyHold]
      exact performs_each keys.reverse _ w
  | mouseButton kind => exact performs_callOk w _
  | none => exact performs_pure w
  | keyTap vk => exact performs_pure w
  | keyChord keys => exact performs_pure w
  | eraserToggle => exact performs_pure w

theorem performs_dispatchSlot (b : Binding) (pressed released : Bool) (w : World) :
    Performs w (dispatchSlot b pressed released) (slotActions b pressed released) := by
  have hrelease : ∀ w', Performs w' (if released then releaseBinding b else pure ())
      (if released then b.releaseActions else []) := by
    intro w'
    cases released with
    | true => exact performs_releaseBinding b w'
    | false => exact performs_pure w'
  cases pressed with
  | true => exact (performs_pressBinding b w).bind hrelease
  | false => exact hrelease w

/-- `m` sends the events `is` and turns the sticky eraser if `toggle`; at the first event Windows
rejects it ends. -/
def Sends (w : World) (m : InjectM Unit) (is : List Input) (toggle : Bool) : Prop :=
  if Windows.acceptsAll w.log.length (is.map .sendInput) then exec m w = (.ok (), w.sent is toggle)
  else ∃ w', exec m w = (.error (.err .win32), w') ∧ w.Sent w'

/-- Windows takes all events of a list of actions, and the list is completed; or it is not. -/
theorem perform_accepted (as : List ButtonAction) (w : World) :
    if Windows.acceptsAll w.log.length ((inputs as).map .sendInput) then
      Completes World.act w as ∧ (perform World.act w as).2 = w.sent (inputs as) (turns as)
    else ¬ Completes World.act w as ∧ w.Sent (perform World.act w as).2 := by
  induction as generalizing w with
  | nil => exact ⟨rfl, (World.sent_nil w).symm⟩
  | cons a as ih =>
      cases a with
      | toggle =>
          have hact := act_toggle w
          have h := ih (w.sent [] true)
          rw [World.sent_length, List.map_nil, List.length_nil, Nat.add_zero, World.sent_sent] at h
          show if Windows.acceptsAll w.log.length ((inputs as).map .sendInput) then _ else _
          rw [completes_cons_of_ok hact, perform_cons_of_ok hact]
          split at h
          case isTrue hall =>
            rw [if_pos hall]
            exact h
          case isFalse hall =>
            rw [if_neg hall]
            exact ⟨h.1, (World.Sent.sent w [] true).trans h.2⟩
      | send i =>
          show if Windows.accepts w.log.length (.sendInput i) &&
            Windows.acceptsAll (w.log.length + 1) ((inputs as).map .sendInput) then _ else _
          cases haccepts : Windows.accepts w.log.length (.sendInput i) with
          | false =>
              have hact := act_send_rejected haccepts
              rw [Bool.false_and, if_neg Bool.false_ne_true, perform_cons_of_fails hact]
              exact ⟨not_completes_cons hact, ⟨[(i, false)], by simp [World.after, haccepts]⟩, _, rfl⟩
          | true =>
              have hact := act_send_accepted haccepts
              have h := ih (w.sent [i] false)
              rw [completes_cons_of_ok hact, perform_cons_of_ok hact, Bool.true_and]
              rw [World.sent_length, World.sent_sent, List.map_singleton, List.length_singleton] at h
              split at h
              case isTrue hall =>
                rw [if_pos hall]
                exact h
              case isFalse hall =>
                rw [if_neg hall]
                exact ⟨h.1, (World.Sent.sent w [i] false).trans h.2⟩

theorem Performs.sends {w : World} {m : InjectM Unit} {as : List ButtonAction} (h : Performs w m as) :
    Sends w m (inputs as) (turns as) := by
  have haccepted := perform_accepted as w
  rw [Performs] at h
  rw [Sends, h]
  split at haccepted
  case isTrue hall => rw [if_pos hall, if_pos haccepted.1, haccepted.2]
  case isFalse hall =>
    rw [if_neg hall, if_neg haccepted.1]
    exact ⟨_, rfl, haccepted.2⟩

/-! ### The dispatch -/

/-- The events of a sample with button state `now_bits` after one with `prev`. -/
def edgeInputs (profile : PenButtonProfile) (prev now_bits : UInt8) : List Input :=
  slots.flatMap fun slot =>
    slotInputs (profile.binding slot) (isSet (~~~prev &&& now_bits) slot)
      (isSet (prev &&& ~~~now_bits) slot)

/-- Whether these edges turn the sticky eraser over. -/
def edgeToggles (profile : PenButtonProfile) (prev now_bits : UInt8) : Bool :=
  slots.foldr
    (fun slot t => xor (slotToggles (profile.binding slot) (isSet (~~~prev &&& now_bits) slot)) t) false

/-- All that these edges do. -/
def edgeActions (profile : PenButtonProfile) (prev now_bits : UInt8) : List ButtonAction :=
  slots.flatMap fun slot =>
    slotActions (profile.binding slot) (isSet (~~~prev &&& now_bits) slot)
      (isSet (prev &&& ~~~now_bits) slot)

omit [Windows] in
theorem inputs_edgeActions (profile : PenButtonProfile) (prev now_bits : UInt8) :
    inputs (edgeActions profile prev now_bits) = edgeInputs profile prev now_bits := by
  rw [inputs, edgeActions, List.filterMap_flatMap, edgeInputs]
  congr 1
  funext slot
  exact inputs_slotActions _ _ _

omit [Windows] in
theorem turns_edgeActions (profile : PenButtonProfile) (prev now_bits : UInt8) :
    turns (edgeActions profile prev now_bits) = edgeToggles profile prev now_bits := by
  rw [edgeActions, turns_flatMap, edgeToggles]
  simp only [turns_slotActions]

theorem performs_dispatchEdges (profile : PenButtonProfile) (prev now_bits : UInt8) (w : World) :
    Performs w (dispatchEdges profile prev now_bits) (edgeActions profile prev now_bits) :=
  performs_forM (fun w' _ _ => performs_dispatchSlot _ _ _ w') w

/-- All events of a sample. -/
def dispatchInputs (w : World) (sample : PenSample) : List Input :=
  (if syncMouseToPen w.inj.pen_profile w.inj.last_pen_buttons sample.buttons then
    [mouseMoveInput (Windows.screen w.log.length) sample.x sample.y] else []) ++
  edgeInputs w.inj.pen_profile w.inj.last_pen_buttons sample.buttons

/-- Whether the sample turns the sticky eraser over. -/
def dispatchToggle (w : World) (sample : PenSample) : Bool :=
  edgeToggles w.inj.pen_profile w.inj.last_pen_buttons sample.buttons

/-- The world when Windows has taken all events of a sample. -/
def World.dispatched (w : World) (sample : PenSample) : World :=
  let w' := w.sent (dispatchInputs w sample) (dispatchToggle w sample)
  { w' with inj := { w'.inj with last_pen_buttons := sample.buttons } }

/-- What comes before the edges: the mouse may have to follow the pen. -/
def syncActions (w : World) (sample : PenSample) : List ButtonAction :=
  if syncMouseToPen w.inj.pen_profile w.inj.last_pen_buttons sample.buttons then
    [.send (mouseMoveInput (Windows.screen w.log.length) sample.x sample.y)] else []

/-- All that a sample does before it is remembered. -/
def dispatchActions (w : World) (sample : PenSample) : List ButtonAction :=
  syncActions w sample ++ edgeActions w.inj.pen_profile w.inj.last_pen_buttons sample.buttons

theorem inputs_dispatchActions (w : World) (sample : PenSample) :
    inputs (dispatchActions w sample) = dispatchInputs w sample := by
  rw [dispatchActions, inputs_append, inputs_edgeActions, dispatchInputs, syncActions]
  split
  · rfl
  · rfl

theorem turns_dispatchActions (w : World) (sample : PenSample) :
    turns (dispatchActions w sample) = dispatchToggle w sample := by
  have hsync : turns (syncActions w sample) = false := by
    rw [syncActions]
    split
    · rfl
    · rfl
  rw [dispatchActions, turns_append, hsync, Bool.false_xor, turns_edgeActions, dispatchToggle]

theorem performs_dispatch (w : World) (sample : PenSample) :
    Performs w (syncMouse w.inj.pen_profile w.inj.last_pen_buttons sample >>= fun _ =>
      dispatchEdges w.inj.pen_profile w.inj.last_pen_buttons sample.buttons)
      (dispatchActions w sample) := by
  have hsync : Performs w (syncMouse w.inj.pen_profile w.inj.last_pen_buttons sample)
      (syncActions w sample) := by
    rw [syncMouse, syncActions]
    split
    · exact performs_callOk w _
    · exact performs_pure w
  exact hsync.bind (performs_dispatchEdges _ _ _)

theorem exec_dispatchPenButtons (w : World) (sample : PenSample) :
    exec (dispatchPenButtons sample) w =
      exec ((syncMouse w.inj.pen_profile w.inj.last_pen_buttons sample >>= fun _ =>
        dispatchEdges w.inj.pen_profile w.inj.last_pen_buttons sample.buttons) >>= fun _ =>
        update fun self => { self with last_pen_buttons := sample.buttons }) w := by
  rw [bind_assoc]
  rfl

/-- **What the dispatch does**, action by action: the buttons are remembered where all were performed. -/
theorem dispatchPenButtons_performs (w : World) (sample : PenSample) :
    exec (dispatchPenButtons sample) w =
      if Completes World.act w (dispatchActions w sample) then
        (.ok (), { (perform World.act w (dispatchActions w sample)).2 with
          inj := { (perform World.act w (dispatchActions w sample)).2.inj with
            last_pen_buttons := sample.buttons } })
      else (.error (.err .win32), (perform World.act w (dispatchActions w sample)).2) := by
  have h := performs_dispatch w sample
  rw [Performs] at h
  rw [exec_dispatchPenButtons]
  split
  case isTrue hall =>
    rw [if_pos hall] at h
    exact exec_bind_of_ok h
  case isFalse hall =>
    rw [if_neg hall] at h
    exact exec_bind_of_error h

/-- **What the dispatch does.** -/
theorem dispatchPenButtons_exec (w : World) (sample : PenSample) :
    if Windows.acceptsAll w.log.length ((dispatchInputs w sample).map .sendInput) then
      exec (dispatchPenButtons sample) w = (.ok (), w.dispatched sample)
    else ∃ w', exec (dispatchPenButtons sample) w = (.error (.err .win32), w') ∧ w.Sent w' := by
  have hsends := (performs_dispatch w sample).sends
  rw [inputs_dispatchActions, turns_dispatchActions, Sends] at hsends
  rw [exec_dispatchPenButtons]
  split at hsends
  case isTrue hall =>
    rw [if_pos hall]
    exact exec_bind_of_ok hsends
  case isFalse hall =>
    rw [if_neg hall]
    obtain ⟨w', hexec, hsent⟩ := hsends
    exact ⟨w', exec_bind_of_error hexec, hsent⟩

/-! ### The swap of the profile -/

/-- The world behind events whose verdicts are ignored. -/
def World.tried (w : World) (is : List Input) : World := is.foldl (fun w i => w.after (.sendInput i)) w

theorem World.tried_inj (w : World) (is : List Input) : (w.tried is).inj = w.inj := by
  induction is generalizing w with
  | nil => rfl
  | cons i is ih => exact ih (w.after (.sendInput i))

theorem World.Sent.tried (w : World) (is : List Input) : w.Sent (w.tried is) := by
  induction is generalizing w with
  | nil => exact .refl w
  | cons i is ih =>
      refine World.Sent.trans ?_ (ih (w.after (.sendInput i)))
      exact ⟨⟨[(i, Windows.accepts w.log.length (.sendInput i))], rfl⟩, _, rfl⟩

/-- The keys and buttons `set_pen_profile` releases. -/
def swapInputs (self : InputInjector) : List Input :=
  slots.flatMap fun slot =>
    if isSet self.last_pen_buttons slot then (self.pen_profile.binding slot).releaseInputs else []

theorem release_exec (b : Binding) (w : World) :
    exec (release b) w = (.ok (), w.tried b.releaseInputs) := by
  cases b with
  | keyHold keys =>
      rw [releaseInputs_keyHold, World.tried, List.foldl_map]
      exact exec_forM (fun w vk _ => rfl) w
  | mouseButton kind => rfl
  | none => rfl
  | keyTap vk => rfl
  | keyChord keys => rfl
  | eraserToggle => rfl

theorem setPenProfile_exec (profile : PenButtonProfile) (w : World) :
    exec (setPenProfile profile) w = (.ok (), { w.tried (swapInputs w.inj) with
      inj := { w.inj with last_pen_buttons := 0, pen_profile := profile } }) := by
  have hloop : exec (slots.forM fun slot =>
      if isSet w.inj.last_pen_buttons slot then release (w.inj.pen_profile.binding slot)
      else pure ()) w = (.ok (), w.tried (swapInputs w.inj)) := by
    rw [swapInputs, World.tried, List.foldl_flatMap]
    apply exec_forM
    intro w' slot _
    split
    · exact release_exec _ w'
    · rfl
  rw [setPenProfile, exec_bind_of_ok (exec_self w), exec_bind_of_ok hloop, exec_update,
    World.tried_inj]

/-! ### Touch -/

/-- Nothing was done but injecting touch frames and changing the touch map. -/
def World.Touched (w w' : World) : Prop :=
  (∃ frames : List (List PointerTouchInfo × Bool),
      w'.log = w.log ++ frames.map fun f => (.injectTouch f.1, f.2)) ∧
    ∃ pos, w'.inj = { w.inj with last_touch_pos := pos }

omit [Windows] in
theorem World.Touched.refl (w : World) : w.Touched w := ⟨⟨[], by simp⟩, w.inj.last_touch_pos, rfl⟩

omit [Windows] in
theorem World.Touched.trans (u v w : World) (h₁ : u.Touched v) (h₂ : v.Touched w) : u.Touched w := by
  obtain ⟨⟨f₁, hlog₁⟩, _, hinj₁⟩ := h₁
  obtain ⟨⟨f₂, hlog₂⟩, pos, hinj₂⟩ := h₂
  refine ⟨⟨f₁ ++ f₂, ?_⟩, pos, ?_⟩
  · rw [hlog₂, hlog₁, List.map_append, List.append_assoc]
  · rw [hinj₂, hinj₁]

theorem injectTouch_touched [BuildProfile] (snapshot : List TouchPoint) :
    Respects World.Touched (injectTouch snapshot) := by
  have hsame {α : Type} {m : InjectM α} (h : ∀ w, (exec m w).2 = w) : Respects World.Touched m :=
    respects_of_same World.Touched.refl h
  refine Respects.bind World.Touched.trans (hsame fun _ => rfl) fun w => ?_
  dsimp only
  split
  · exact hsame fun _ => rfl
  · refine Respects.bind World.Touched.trans (hsame fun _ => rfl) fun screen => ?_
    refine Respects.bind World.Touched.trans (hsame fun _ => rfl) fun infos => ?_
    split
    · exact hsame fun _ => rfl
    · refine Respects.bind World.Touched.trans (hsame fun _ => rfl) fun _ => ?_
      refine Respects.bind World.Touched.trans (fun w => ?_) fun _ w => ⟨⟨[], by simp⟩, _, rfl⟩
      rw [exec_callOk]
      exact ⟨⟨[(infos, _)], rfl⟩, w.inj.last_touch_pos, rfl⟩

/-! ### The sample itself -/

/-- Nothing was done but handing pen frames and reports to Windows. -/
def World.Wrote (w w' : World) : Prop :=
  (∃ more : List (OsCall × Bool), w'.log = w.log ++ more ∧
      ∀ c ∈ more, (∃ frame, c.1 = .injectPen frame) ∨ ∃ report, c.1 = .writeFile report) ∧
    ∃ vmulti, w'.inj = { w.inj with vmulti := vmulti }

omit [Windows] in
theorem World.Wrote.refl (w : World) : w.Wrote w :=
  ⟨⟨[], (List.append_nil _).symm, fun _ hc => (List.not_mem_nil hc).elim⟩, w.inj.vmulti, rfl⟩

omit [Windows] in
theorem World.Wrote.trans (u v w : World) (h₁ : u.Wrote v) (h₂ : v.Wrote w) : u.Wrote w := by
  obtain ⟨⟨m₁, hlog₁, hmore₁⟩, _, hinj₁⟩ := h₁
  obtain ⟨⟨m₂, hlog₂, hmore₂⟩, vmulti, hinj₂⟩ := h₂
  refine ⟨⟨m₁ ++ m₂, ?_, fun c hc => ?_⟩, vmulti, ?_⟩
  · rw [hlog₂, hlog₁, List.append_assoc]
  · rcases List.mem_append.1 hc with hc | hc
    · exact hmore₁ c hc
    · exact hmore₂ c hc
  · rw [hinj₂, hinj₁]

theorem callOk_wrote {c : OsCall} (hc : (∃ frame, c = .injectPen frame) ∨ ∃ report, c = .writeFile report) :
    Respects World.Wrote (callOk c) := by
  intro w
  rw [exec_callOk]
  refine ⟨⟨_, rfl, fun x hx => ?_⟩, w.inj.vmulti, rfl⟩
  rw [List.mem_singleton.1 hx]
  exact hc

variable [BuildProfile]

theorem writePen_wrote (sample : PenSample) (eraser : Bool) :
    Respects World.Wrote (writePen sample eraser) := by
  have hsame {α : Type} {m : InjectM α} (h : ∀ w, (exec m w).2 = w) : Respects World.Wrote m :=
    respects_of_same World.Wrote.refl h
  refine Respects.bind World.Wrote.trans (hsame fun _ => rfl) fun self => ?_
  split
  · exact hsame fun _ => rfl
  · refine Respects.bind World.Wrote.trans (hsame fun _ => rfl) fun screen => ?_
    refine Respects.bind World.Wrote.trans (hsame fun _ => rfl) fun frame => ?_
    exact callOk_wrote (.inl ⟨frame, rfl⟩)

theorem writeSample_wrote (sample : PenSample) (effective_eraser : Bool) :
    Respects World.Wrote (writeSample sample effective_eraser) := by
  have hsame {α : Type} {m : InjectM α} (h : ∀ w, (exec m w).2 = w) : Respects World.Wrote m :=
    respects_of_same World.Wrote.refl h
  refine Respects.bind World.Wrote.trans (hsame fun _ => rfl) fun self => ?_
  split
  · -- VMulti
    refine Respects.bind World.Wrote.trans (hsame fun _ => rfl) fun self => ?_
    split
    · exact hsame fun _ => rfl
    · refine Respects.bind World.Wrote.trans (fun w => ?_) fun _ => callOk_wrote (.inr ⟨_, rfl⟩)
      exact ⟨⟨[], (List.append_nil _).symm, fun _ hc => (List.not_mem_nil hc).elim⟩, _, rfl⟩
  · refine Respects.bind World.Wrote.trans ?_ fun _ => writePen_wrote sample effective_eraser
    refine Respects.bind World.Wrote.trans (hsame fun _ => rfl) fun self => ?_
    split
    · exact writePen_wrote sample.flush self.last_pen_eraser
    · exact hsame fun _ => rfl

/-- What `inject_pen` does: events of the dispatch, what the back end writes, and the record. -/
theorem injectPen_parts (sample : PenSample) (w : World) :
    (∃ w', w.Sent w' ∧ w.step (.injectPen sample) = w') ∨
      ∃ w', (w.dispatched sample).Wrote w' ∧ ∃ eraser in_range in_contact,
        w.step (.injectPen sample) = { w' with inj := { w'.inj with
          last_pen_eraser := eraser
          last_pen_in_range := in_range
          last_pen_in_contact := in_contact } } := by
  have hdispatch := dispatchPenButtons_exec w sample
  rw [World.step, Call.method, injectPen]
  split at hdispatch
  · right
    rw [exec_bind_of_ok hdispatch, exec_bind_of_ok (exec_self _)]
    have hwrote := writeSample_wrote sample
      (sample.eraser || (w.dispatched sample).inj.pen_eraser_sticky) (w.dispatched sample)
    rw [exec_bind]
    generalize exec (writeSample sample _) (w.dispatched sample) = x at hwrote ⊢
    obtain ⟨e | u, w'⟩ := x
    · exact ⟨w', hwrote, _, _, _, rfl⟩
    · exact ⟨w', hwrote, _, _, _, rfl⟩
  · left
    obtain ⟨w', hexec, hsent⟩ := hdispatch
    rw [exec_bind_of_error hexec]
    exact ⟨w', hsent, rfl⟩

end Penflow
