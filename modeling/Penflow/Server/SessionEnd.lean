import Penflow.Inject.HeldKeys
import Penflow.Server.ReadLoop

/-!
# What a session leaves pressed

A session creates the injector, sets the profile, injects what the read loop hands it until the session
ends, and drops the injector; the drop closes the devices and releases nothing.  So what is released
behind a session is what the last edges and the last sample of the client released.
-/

namespace Penflow

open InjectM

/-! ### Button edges of a run -/

/-- A visit of the dispatch loop to a slot. -/
structure Edge where
  prev : UInt8
  now_bits : UInt8
  slot : UInt8

/-- The visits of a run with these button states, the first one behind `prev`. -/
def edges (prev : UInt8) : List UInt8 → List Edge
  | [] => []
  | now_bits :: rest => slots.map (Edge.mk prev now_bits) ++ edges now_bits rest

/-- The slot goes down at this edge, and holds the button. -/
def Edge.Presses (e : Edge) (profile : PenButtonProfile) (k : Button) : Prop :=
  Penflow.Presses profile e.prev e.now_bits e.slot k

/-- The slot sends an up of the button at this edge. -/
def Edge.Lifts (e : Edge) (profile : PenButtonProfile) (k : Button) : Prop :=
  Penflow.Lifts profile e.prev e.now_bits e.slot k

/-- What an edge does to a button. -/
def Edge.effect (e : Edge) (profile : PenButtonProfile) (k : Button) : Option Bool :=
  slotEffect profile e.prev e.now_bits k e.slot

/-- Behind every edge that presses a button comes one that lifts it. -/
def PressesLifted (profile : PenButtonProfile) (buttons : List UInt8) : Prop :=
  ∀ k pre e post, edges 0 buttons = pre ++ e :: post → e.Presses profile k →
    ∃ f ∈ post, f.Lifts profile k

theorem slot_mem_of_mem_edges {prev : UInt8} {buttons : List UInt8} {e : Edge}
    (h : e ∈ edges prev buttons) : e.slot ∈ slots := by
  induction buttons generalizing prev with
  | nil => cases h
  | cons now_bits rest ih =>
      rcases List.mem_append.1 h with hhere | hlater
      · obtain ⟨slot, hslot, rfl⟩ := List.mem_map.1 hhere
        exact hslot
      · exact ih hlater

theorem pressesLifted_iff (profile : PenButtonProfile) (buttons : List UInt8) :
    PressesLifted profile buttons ↔
      ∀ k, (edges 0 buttons).lastSome (fun e => e.effect profile k) ≠ some true := by
  refine forall_congr' fun k => ?_
  rw [List.lastSome_ne_some]
  have hmem : ∀ {pre post : List Edge} {e : Edge}, edges 0 buttons = pre ++ e :: post →
      e.slot ∈ slots ∧ ∀ f ∈ post, f.slot ∈ slots := by
    intro pre post e hsplit
    have hall : ∀ f ∈ pre ++ e :: post, f.slot ∈ slots := fun f hf =>
      slot_mem_of_mem_edges (hsplit ▸ hf)
    exact ⟨hall e (List.mem_append_right _ List.mem_cons_self),
      fun f hf => hall f (List.mem_append_right _ (List.mem_cons_of_mem e hf))⟩
  constructor
  · intro h pre e post hsplit heffect
    obtain ⟨hslot, hslots⟩ := hmem hsplit
    obtain ⟨f, hf, hlifts⟩ := h pre e post hsplit ((slotEffect_eq_true hslot).1 heffect)
    exact ⟨f, hf, false, by decide, (slotEffect_eq_false (hslots f hf)).2 hlifts⟩
  · intro h pre e post hsplit hpress
    obtain ⟨hslot, hslots⟩ := hmem hsplit
    obtain ⟨f, hf, v, hv, heffect⟩ := h pre e post hsplit ((slotEffect_eq_true hslot).2 hpress)
    obtain rfl : v = false := by simpa using hv
    exact ⟨f, hf, (slotEffect_eq_false (hslots f hf)).1 heffect⟩

/-! ### A session -/

/-- The pen samples among the calls. -/
def penSamples (calls : List Call) : List PenSample :=
  calls.filterMap fun c =>
    match c with
    | .injectPen sample => some sample
    | _ => none

section Session

variable [Windows] [BuildProfile]

/-- The world behind a session whose read loop made these calls. -/
def sessionWorld (found : Bool) (profile : PenButtonProfile) (calls : List Call) : World :=
  let started := (World.new found).step (.setPenProfile profile)
  (exec drop (calls.foldl World.step started)).2

end Session

/-- Every press among the events is matched by a later release. -/
def KeysReleased (log : List (OsCall × Bool)) : Prop :=
  ∀ k pre input post, sentInputs log = pre ++ input :: post → input.leaves k = some true →
    ∃ later ∈ post, later.leaves k = some false

theorem keysReleased_iff (log : List (OsCall × Bool)) :
    KeysReleased log ↔ ∀ k, leavesButton k (sentInputs log) ≠ some true := by
  refine forall_congr' fun k => ?_
  rw [leavesButton, List.lastSome_ne_some]
  constructor
  · intro h pre input post hsplit hpress
    obtain ⟨later, hlater, hup⟩ := h pre input post hsplit hpress
    exact ⟨later, hlater, false, by decide, hup⟩
  · intro h pre input post hsplit hpress
    obtain ⟨later, hlater, v, hv, hup⟩ := h pre input post hsplit hpress
    obtain rfl : v = false := by simpa using hv
    exact ⟨later, hlater, hup⟩

/-- The buttons byte of a report. -/
def reportButtons (report : List UInt8) : UInt8 := report.getD offButtons 0

/-- The VMulti reports Windows has taken. -/
def vmultiReports (log : List (OsCall × Bool)) : List (List UInt8) :=
  log.filterMap fun c =>
    match c with
    | (.writeFile report, true) => some report
    | _ => none

/-- The tip and the range a report gives. -/
def reportPen (report : List UInt8) : Bool × Bool :=
  (reportButtons report &&& btnTip != 0, reportButtons report &&& btnInRange != 0)

/-- The last report says tip up and out of range. -/
def LastReportAway (log : List (OsCall × Bool)) : Prop :=
  ∀ report, (vmultiReports log).getLast? = some report → reportPen report = (false, false)

/-- The report of a sample gives the sample's contact and range. -/
theorem reportPen_report (sample : PenSample) (eraser : Bool) (buf : List UInt8) :
    reportPen ((vmultiSample sample eraser).report buf) = (sample.in_contact, sample.in_range) := by
  have hbits : ∀ tip eraser range : Bool,
      let buttons := (if tip then btnTip else 0) ||| 0 ||| (if eraser then btnEraser else 0) |||
        (if eraser then btnInvert else 0) ||| (if range then btnInRange else 0)
      (buttons &&& btnTip != 0, buttons &&& btnInRange != 0) = (tip, range) := by
    decide
  exact hbits sample.in_contact eraser sample.in_range

theorem vmultiReports_append (xs ys : List (OsCall × Bool)) :
    vmultiReports (xs ++ ys) = vmultiReports xs ++ vmultiReports ys := List.filterMap_append

/-! ### The calls of a session -/

section Calls

variable [Windows] [BuildProfile]

/-- Windows takes every call. -/
def CallsSucceed : Prop := ∀ n c, Windows.accepts n c = true

omit [BuildProfile] in
theorem CallsSucceed.sendInputWorks (h : CallsSucceed) : SendInputWorks := fun n input =>
  h n (.sendInput input)

/-- A call of the read loop. -/
def Call.IsInjection : Call → Prop
  | injectPen _ => True
  | injectTouch _ => True
  | setPenProfile _ => False

/-- **The keys of a run.**  The run leaves a button as the last edge about it does. -/
theorem run_inputs (hworks : SendInputWorks) (w : World) (calls : List Call)
    (hcalls : ∀ c ∈ calls, c.IsInjection) :
    ∃ is, sentInputs (calls.foldl World.step w).log = sentInputs w.log ++ is ∧
      ∀ k, leavesButton k is = (edges w.inj.last_pen_buttons
        ((penSamples calls).map PenSample.buttons)).lastSome
          fun e => e.effect w.inj.pen_profile k := by
  induction calls generalizing w with
  | nil => exact ⟨[], (List.append_nil _).symm, fun k => rfl⟩
  | cons c calls ih =>
      have hrest := fun c hc => hcalls c (List.mem_cons_of_mem _ hc)
      obtain ⟨is, hlog, hleaves⟩ := ih (w.step c) hrest
      cases c with
      | injectPen sample =>
          obtain ⟨hinputs, hbuttons, hprofile⟩ := injectPen_inputs hworks w sample
          refine ⟨dispatchInputs w sample ++ is, ?_, fun k => ?_⟩
          · rw [List.foldl_cons, hlog, hinputs, List.append_assoc]
          · have hlater := hleaves k
            rw [hbuttons, hprofile] at hlater
            rw [leavesButton, List.lastSome_append, ← leavesButton, ← leavesButton, hlater,
              leavesButton_dispatchInputs]
            show _ = List.lastSome _ (slots.map _ ++ edges sample.buttons _)
            rw [List.lastSome_append, List.lastSome_map]
            rfl
      | injectTouch snapshot =>
          obtain ⟨hinputs, hbuttons, hprofile⟩ := injectTouch_sameKeys snapshot w
          refine ⟨is, ?_, fun k => ?_⟩
          · rw [List.foldl_cons, hlog, hinputs]
          · have hlater := hleaves k
            rw [hbuttons, hprofile] at hlater
            exact hlater
      | setPenProfile profile => exact absurd (hcalls _ List.mem_cons_self) id

/-- No report was written, and the device is as it was. -/
def World.SameReports (w w' : World) : Prop :=
  vmultiReports w'.log = vmultiReports w.log ∧ w'.inj.vmulti = w.inj.vmulti

omit [Windows] [BuildProfile] in
theorem World.SameReports.refl (w : World) : w.SameReports w := ⟨rfl, rfl⟩

omit [Windows] [BuildProfile] in
theorem World.SameReports.trans (u v w : World) (h₁ : u.SameReports v) (h₂ : v.SameReports w) :
    u.SameReports w := ⟨h₂.1.trans h₁.1, h₂.2.trans h₁.2⟩

theorem writePen_sameReports (sample : PenSample) (eraser : Bool) :
    Respects World.SameReports (writePen sample eraser) := by
  have hsame {α : Type} {m : InjectM α} (h : ∀ w, (exec m w).2 = w) :
      Respects World.SameReports m := respects_of_same World.SameReports.refl h
  refine Respects.bind World.SameReports.trans (hsame fun _ => rfl) fun self => ?_
  split
  · exact hsame fun _ => rfl
  · refine Respects.bind World.SameReports.trans (hsame fun _ => rfl) fun screen => ?_
    refine Respects.bind World.SameReports.trans (hsame fun _ => rfl) fun frame w => ?_
    rw [exec_callOk]
    exact ⟨(vmultiReports_append _ _).trans (List.append_nil _), rfl⟩

theorem flushEraser_sameReports (sample : PenSample) (effective_eraser : Bool) :
    Respects World.SameReports (flushEraser sample effective_eraser) := by
  refine Respects.bind World.SameReports.trans
    (respects_of_same World.SameReports.refl fun _ => rfl) fun self => ?_
  split
  · exact writePen_sameReports sample.flush self.last_pen_eraser
  · exact respects_of_same World.SameReports.refl fun _ => rfl

omit [BuildProfile] in
theorem dispatched_sameReports (w : World) (sample : PenSample) :
    w.SameReports (w.dispatched sample) := by
  refine ⟨?_, rfl⟩
  show vmultiReports (w.log ++ _) = _
  rw [vmultiReports_append]
  convert List.append_nil _
  rw [vmultiReports, List.filterMap_map]
  exact List.filterMap_eq_nil_iff.2 fun _ _ => rfl

/-- Without VMulti a sample writes no report. -/
theorem injectPen_sameReports (hok : CallsSucceed) {w : World} (hv : w.inj.vmulti = none)
    (sample : PenSample) : w.SameReports (w.step (.injectPen sample)) := by
  have hdispatch := dispatchPenButtons_exec w sample
  rw [if_pos (acceptsAll_of_works hok.sendInputWorks _ _)] at hdispatch
  have hpath : ¬ (w.dispatched sample).inj.vmulti.isSome := by
    rw [(dispatched_sameReports w sample).2, hv]
    exact Bool.false_ne_true
  have hwrite : ∀ effective_eraser, exec (writeSample sample effective_eraser) (w.dispatched sample) =
      exec (flushEraser sample effective_eraser >>= fun _ => writePen sample effective_eraser)
        (w.dispatched sample) := by
    intro effective_eraser
    rw [writeSample, exec_bind_of_ok (exec_self _), if_neg hpath]
  refine World.SameReports.trans _ _ _ (dispatched_sameReports w sample) ?_
  rw [World.step, Call.method, injectPen, exec_bind_of_ok hdispatch, exec_bind_of_ok (exec_self _),
    exec_bind, hwrite, ← exec_bind]
  refine Respects.bind World.SameReports.trans ?_ (fun _ w => ⟨rfl, rfl⟩) _
  exact Respects.bind World.SameReports.trans (flushEraser_sameReports sample _) fun _ =>
    writePen_sameReports sample _

/-- With VMulti it writes one, of this sample. -/
theorem injectPen_report (hok : CallsSucceed) {w : World} {vmulti : VMultiPen}
    (hv : w.inj.vmulti = some vmulti) (sample : PenSample) :
    ∃ report, vmultiReports (w.step (.injectPen sample)).log = vmultiReports w.log ++ [report] ∧
      reportPen report = (sample.in_contact, sample.in_range) ∧
      (w.step (.injectPen sample)).inj.vmulti = some ⟨report⟩ := by
  have hdispatch := dispatchPenButtons_exec w sample
  rw [if_pos (acceptsAll_of_works hok.sendInputWorks _ _)] at hdispatch
  obtain ⟨hreports, hdevice⟩ := dispatched_sameReports w sample
  rw [hv] at hdevice
  rw [World.step, Call.method, injectPen, exec_bind_of_ok hdispatch, exec_bind_of_ok (exec_self _)]
  generalize (sample.eraser || (w.dispatched sample).inj.pen_eraser_sticky) = effective_eraser
  generalize w.dispatched sample = w₁ at hreports hdevice ⊢
  obtain ⟨report, hreport⟩ : ∃ r, r = (vmultiSample sample effective_eraser).report vmulti.buf :=
    ⟨_, rfl⟩
  have hwrite : exec (writeSample sample effective_eraser) w₁ = (.ok (),
      { w₁ with inj := { w₁.inj with vmulti := some ⟨report⟩ },
                log := w₁.log ++ [(.writeFile report, true)] }) := by
    rw [writeSample, exec_bind_of_ok (exec_self _), if_pos (by rw [hdevice]; rfl), writePenVMulti,
      exec_bind_of_ok (exec_self _), hdevice, hreport]
    refine (exec_bind_of_ok (exec_update _ w₁)).trans ((exec_callOk _ _).trans ?_)
    rw [World.after, hok]
    rfl
  rw [exec_bind_of_ok hwrite]
  refine ⟨report, ?_, hreport ▸ reportPen_report sample effective_eraser vmulti.buf, rfl⟩
  show vmultiReports (w₁.log ++ _) = _
  rw [vmultiReports_append, hreports]
  rfl

theorem injectTouch_sameReports (snapshot : List TouchPoint) (w : World) :
    w.SameReports (w.step (.injectTouch snapshot)) := by
  obtain ⟨⟨frames, hlog⟩, pos, hinj⟩ := injectTouch_touched snapshot w
  rw [World.step, Call.method]
  refine ⟨?_, by rw [hinj]⟩
  rw [hlog, vmultiReports_append]
  convert List.append_nil _
  rw [vmultiReports, List.filterMap_map]
  exact List.filterMap_eq_nil_iff.2 fun _ _ => rfl

/-- **The reports of a run.**  On the VMulti path there is one for each sample, otherwise none. -/
theorem run_reports (hok : CallsSucceed) (w : World) (calls : List Call)
    (hcalls : ∀ c ∈ calls, c.IsInjection) :
    ∃ reports, vmultiReports (calls.foldl World.step w).log = vmultiReports w.log ++ reports ∧
      reports.map reportPen = if w.inj.vmulti.isSome then
        (penSamples calls).map fun sample => (sample.in_contact, sample.in_range) else [] := by
  induction calls generalizing w with
  | nil => exact ⟨[], (List.append_nil _).symm, by simp [penSamples]⟩
  | cons c calls ih =>
      have hrest := fun c hc => hcalls c (List.mem_cons_of_mem _ hc)
      obtain ⟨reports, hlog, hpens⟩ := ih (w.step c) hrest
      cases c with
      | injectPen sample =>
          cases hv : w.inj.vmulti with
          | none =>
              obtain ⟨hsame, hdevice⟩ := injectPen_sameReports hok hv sample
              rw [hdevice, hv] at hpens
              exact ⟨reports, by rw [List.foldl_cons, hlog, hsame], hpens⟩
          | some vmulti =>
              obtain ⟨report, hreport, hpen, hdevice⟩ := injectPen_report hok hv sample
              rw [hdevice] at hpens
              refine ⟨report :: reports, ?_, ?_⟩
              · rw [List.foldl_cons, hlog, hreport, List.append_assoc]
                rfl
              · rw [List.map_cons, hpens, hpen]
                rfl
      | injectTouch snapshot =>
          obtain ⟨hsame, hdevice⟩ := injectTouch_sameReports snapshot w
          rw [hdevice] at hpens
          exact ⟨reports, by rw [List.foldl_cons, hlog, hsame], hpens⟩
      | setPenProfile profile => exact absurd (hcalls _ List.mem_cons_self) id

/-! ### Whole sessions -/

omit [Windows] [BuildProfile] in
theorem forall_getLast?_map {α β : Type} (f : α → β) {l : List α} {v : β} :
    (∀ x, l.getLast? = some x → f x = v) ↔ ∀ y, (l.map f).getLast? = some y → y = v := by
  rw [List.getLast?_map]
  cases l.getLast? with
  | none => simp
  | some x => simp

theorem start_step (found : Bool) (profile : PenButtonProfile) :
    (World.new found).step (.setPenProfile profile) =
      ⟨{ InputInjector.new found with last_pen_buttons := 0, pen_profile := profile }, []⟩ := by
  have hnone : swapInputs (World.new found).inj = [] := by cases found <;> decide
  rw [World.step, Call.method, setPenProfile_exec, hnone]
  rfl

omit [BuildProfile] in
/-- The drop sends no event and no report. -/
theorem drop_log (w : World) :
    sentInputs (exec drop w).2.log = sentInputs w.log ∧
      vmultiReports (exec drop w).2.log = vmultiReports w.log := by
  have hcall : ∀ (w : World) (c : OsCall), (∀ input, c ≠ .sendInput input) →
      (∀ report, c ≠ .writeFile report) → sentInputs (w.after c).log = sentInputs w.log ∧
        vmultiReports (w.after c).log = vmultiReports w.log := by
    intro w c hinput hreport
    show sentInputs (w.log ++ [_]) = _ ∧ vmultiReports (w.log ++ [_]) = _
    rw [sentInputs_append, vmultiReports_append]
    cases c with
    | sendInput input => exact absurd rfl (hinput input)
    | writeFile report => exact absurd rfl (hreport report)
    | injectPen frame => exact ⟨List.append_nil _, List.append_nil _⟩
    | injectTouch frames => exact ⟨List.append_nil _, List.append_nil _⟩
    | destroyTouchDevice => exact ⟨List.append_nil _, List.append_nil _⟩
    | destroyPenDevice => exact ⟨List.append_nil _, List.append_nil _⟩
    | closeHandle => exact ⟨List.append_nil _, List.append_nil _⟩
  have htouch := hcall w .destroyTouchDevice (by simp) (by simp)
  have hpen := hcall (w.after .destroyTouchDevice) .destroyPenDevice (by simp) (by simp)
  have hhandle := hcall ((w.after .destroyTouchDevice).after .destroyPenDevice) .closeHandle (by simp)
    (by simp)
  rw [drop, exec_bind_of_ok (exec_self w), exec_bind_of_ok (exec_call _ w),
    exec_bind_of_ok (exec_call _ _)]
  split
  · rw [exec_bind_of_ok (exec_call _ _)]
    exact ⟨hhandle.1.trans (hpen.1.trans htouch.1), hhandle.2.trans (hpen.2.trans htouch.2)⟩
  · exact ⟨hpen.1.trans htouch.1, hpen.2.trans htouch.2⟩

/-- **What a session leaves pressed.**  The session of a client that is cut at any point leaves nothing
pressed just when the last edges and the last sample of the client did. -/
theorem session_released_iff (hok : CallsSucceed) (found : Bool) (profile : PenButtonProfile)
    (c : ReadConfig) (reads : List ReadResult) (n : ℕ) :
    let calls := (c.readLoop reads).1.take n
    (KeysReleased (sessionWorld found profile calls).log ∧
        LastReportAway (sessionWorld found profile calls).log) ↔
      PressesLifted profile ((penSamples calls).map PenSample.buttons) ∧
        (found = true → ∀ sample, (penSamples calls).getLast? = some sample →
          sample.in_contact = false ∧ sample.in_range = false) := by
  intro calls
  have hcalls : ∀ call ∈ calls, call.IsInjection := by
    intro call hcall
    rcases c.readLoop_calls reads call (List.mem_of_mem_take hcall) with ⟨pe, rfl⟩ | ⟨snapshot, rfl⟩
    · trivial
    · trivial
  obtain ⟨is, hinputs, hleaves⟩ := run_inputs hok.sendInputWorks
    ((World.new found).step (.setPenProfile profile)) calls hcalls
  obtain ⟨reports, hreports, hpens⟩ := run_reports hok
    ((World.new found).step (.setPenProfile profile)) calls hcalls
  obtain ⟨hdropInputs, hdropReports⟩ := drop_log
    (calls.foldl World.step ((World.new found).step (.setPenProfile profile)))
  rw [start_step] at hinputs hreports hleaves hpens hdropInputs hdropReports
  rw [keysReleased_iff, pressesLifted_iff, LastReportAway, sessionWorld, start_step, hdropInputs,
    hdropReports, hinputs, hreports]
  refine and_congr (forall_congr' fun k => ?_) ?_
  · show leavesButton k is ≠ some true ↔ _
    rw [hleaves]
  · show (∀ report, reports.getLast? = some report → _) ↔ _
    have hvmulti : (InputInjector.new found).vmulti.isSome = found := by cases found <;> rfl
    have hsamples : reports.map reportPen = if found then
        (penSamples calls).map (fun sample => (sample.in_contact, sample.in_range)) else [] :=
      hpens.trans (congrArg (fun v : Bool => if v then (penSamples calls).map
        (fun sample => (sample.in_contact, sample.in_range)) else []) hvmulti)
    rw [forall_getLast?_map reportPen, hsamples]
    cases found with
    | false => simp
    | true =>
        rw [if_pos rfl, ← forall_getLast?_map (fun sample : PenSample =>
          (sample.in_contact, sample.in_range))]
        simp only [Prod.mk.injEq, true_implies]

end Calls

/-- A pen message at the origin. -/
def penPayload (phase buttons : UInt8) : List UInt8 :=
  List.replicate 8 0 ++ [phase] ++ List.replicate 20 0 ++ [buttons, 0]

/-- One output pixel, and touch on. -/
def onePixel : ReadConfig := ⟨⟨1, 0, 0, 1, 0, 0⟩, 1, 1, false⟩

/-- The third button is pressed and released, and the pen leaves. -/
theorem session_released_iff_tap :
    letI := Windows.acceptsEvery
    letI : BuildProfile := ⟨true⟩
    let calls := (onePixel.readLoop [.frame msgPenEvent (penPayload 0 4) true,
      .frame msgPenEvent (penPayload 4 0) true, .closed]).1.take 2
    KeysReleased (sessionWorld true .default calls).log ∧
      LastReportAway (sessionWorld true .default calls).log := by
  let _ := Windows.acceptsEvery
  let _ : BuildProfile := ⟨true⟩
  apply (session_released_iff (fun _ _ => rfl) true .default onePixel
    [.frame msgPenEvent (penPayload 0 4) true, .frame msgPenEvent (penPayload 4 0) true, .closed] 2).2
  constructor
  · -- a tap is up again at its press, and holds nothing
    have hedges : ∀ e ∈ edges 0 [4, 0], isSet e.prev e.slot = false → isSet e.now_bits e.slot = true →
        (PenButtonProfile.default.binding e.slot).held = [] := by
      decide
    rintro k pre e post hsplit ⟨hprev, hnow, hheld⟩
    rw [hedges e (hsplit ▸ List.mem_append_right _ List.mem_cons_self) hprev hnow] at hheld
    cases hheld
  · intro _ sample hlast
    have hpen : some (sample.in_contact, sample.in_range) = some (false, false) :=
      (congrArg (Option.map fun s : PenSample => (s.in_contact, s.in_range)) hlast).symm.trans
        (by decide +kernel)
    simpa using hpen

/-- **A session cut while a button is down.**  The first barrel button is pressed and the client goes
away: Ctrl is never released, and the last report says in range. -/
theorem session_holds_ctrl :
    letI := Windows.acceptsEvery
    letI : BuildProfile := ⟨true⟩
    let calls := (onePixel.readLoop [.frame msgPenEvent (penPayload 0 1) true, .closed]).1.take 1
    ¬ KeysReleased (sessionWorld true .default calls).log ∧
      ¬ LastReportAway (sessionWorld true .default calls).log := by
  let _ := Windows.acceptsEvery
  let _ : BuildProfile := ⟨true⟩
  constructor
  · intro h
    exact absurd ((keysReleased_iff _).1 h (.key vkControl)) (by decide +kernel)
  · intro h
    have hlast := forall_getLast?_map reportPen |>.1 h
    exact absurd (hlast (false, true) (by decide +kernel)) (by decide)

end Penflow
