import Penflow.Server.SessionEnd

/-!
# The reports the pen driver is handed

`write_pen` builds every report in one buffer, of which it overwrites the digitizer payload.  `readReport` reads a
report by the layout the file states; the report of a sample reads back as the sample within the driver's ranges,
whatever report was built before it.  Over a session the reports are those of its samples, in their order, and each
has the eraser bits of its sample or of the sticky eraser, which is on after an odd number of presses
(`reports_of_run`).
-/

namespace Penflow

open InjectM

/-! ### The layout of a report -/

/-- `u16::from_le_bytes` -/
def u16OfLE (lo hi : UInt8) : UInt16 := UInt16.ofNat (lo.toNat + 256 * hi.toNat)

/-- The sample a report shows, where its header and its padding are those of a pen report. -/
def readReport : List UInt8 → Option VMultiPenSample
  | id :: len :: report_id :: buttons :: x₀ :: x₁ :: y₀ :: y₁ :: p₀ :: p₁ :: tilt_x :: tilt_y :: padding =>
    if id = 0x40 ∧ len = 11 ∧ report_id = 0x06 ∧ padding = List.replicate (reportBufLen - digiPayloadLen) 0 then
      some {
        x := u16OfLE x₀ x₁
        y := u16OfLE y₀ y₁
        pressure := u16OfLE p₀ p₁
        tilt_x_deg := tilt_x.toInt8
        tilt_y_deg := tilt_y.toInt8
        tip_down := buttons &&& btnTip != 0
        barrel := buttons &&& btnBarrel != 0
        eraser := buttons &&& btnEraser != 0
        inverted := buttons &&& btnInvert != 0
        in_range := buttons &&& btnInRange != 0 }
    else none
  | _ => none

/-- The sample within the ranges of the driver. -/
def VMultiPenSample.clamped (s : VMultiPenSample) : VMultiPenSample :=
  { s with
    x := min s.x vmultiLogicalMax
    y := min s.y vmultiLogicalMax
    pressure := min s.pressure vmultiPressureMaxExtended }

/-- The buffer is as long as a report, and behind the payload it is zero. -/
def VMultiPen.Padded (v : VMultiPen) : Prop :=
  v.buf.length = reportBufLen ∧ v.buf.drop digiPayloadLen = List.replicate (reportBufLen - digiPayloadLen) 0

theorem u16OfLE_leBytes (x : UInt16) : u16OfLE x.toUInt8 (x >>> 8).toUInt8 = x := by
  have hlt := x.toNat_lt
  have hlo : x.toUInt8.toNat = x.toNat % 256 := UInt16.toNat_toUInt8 x
  have hhi : (x >>> 8).toUInt8.toNat = x.toNat / 256 := by
    rw [UInt16.toNat_toUInt8, UInt16.toNat_shiftRight, Nat.shiftRight_eq_div_pow]
    show x.toNat / 2 ^ 8 % 2 ^ 8 = _
    omega
  have hsum : x.toNat % 256 + 256 * (x.toNat / 256) = x.toNat := by omega
  rw [u16OfLE, hlo, hhi, hsum]
  exact UInt16.ofNat_toNat

/-- The buttons byte gives back each of its flags. -/
theorem VMultiPenSample.buttons_flags (s : VMultiPenSample) :
    (s.buttons &&& btnTip != 0) = s.tip_down ∧ (s.buttons &&& btnBarrel != 0) = s.barrel ∧
      (s.buttons &&& btnEraser != 0) = s.eraser ∧ (s.buttons &&& btnInvert != 0) = s.inverted ∧
      (s.buttons &&& btnInRange != 0) = s.in_range := by
  have hflags : ∀ tip barrel eraser inverted range : Bool,
      let buttons := (if tip then btnTip else 0) ||| (if barrel then btnBarrel else 0) |||
        (if eraser then btnEraser else 0) ||| (if inverted then btnInvert else 0) |||
        (if range then btnInRange else 0)
      (buttons &&& btnTip != 0) = tip ∧ (buttons &&& btnBarrel != 0) = barrel ∧
        (buttons &&& btnEraser != 0) = eraser ∧ (buttons &&& btnInvert != 0) = inverted ∧
        (buttons &&& btnInRange != 0) = range := by
    decide
  exact hflags s.tip_down s.barrel s.eraser s.inverted s.in_range

/-- **Reading a report back.** -/
theorem readReport_report (s : VMultiPenSample) {v : VMultiPen} (hv : v.Padded) :
    readReport (s.report v.buf) = some s.clamped := by
  obtain ⟨-, hpadding⟩ := hv
  obtain ⟨htip, hbarrel, heraser, hinverted, hrange⟩ := s.buttons_flags
  rw [VMultiPenSample.report, hpadding]
  simp only [leBytes, List.cons_append, List.nil_append, readReport, and_self, if_true, u16OfLE_leBytes,
    Int8.toInt8_toUInt8, htip, hbarrel, heraser, hinverted, hrange]
  rfl

/-- A report leaves the buffer fit for the next one. -/
theorem padded_report (s : VMultiPenSample) {v : VMultiPen} (hv : v.Padded) :
    VMultiPen.Padded ⟨s.report v.buf⟩ := by
  obtain ⟨hlength, hpadding⟩ := hv
  have hpayload : (s.report v.buf).length = digiPayloadLen + (v.buf.drop digiPayloadLen).length := by
    simp only [VMultiPenSample.report, leBytes, List.length_append, List.length_cons, List.length_nil, digiPayloadLen]
  constructor
  · show (s.report v.buf).length = reportBufLen
    rw [hpayload, List.length_drop, hlength]
    rfl
  · rw [← hpadding]
    simp only [VMultiPenSample.report, leBytes, List.cons_append, List.nil_append]
    rfl

/-! ### The report of a sample -/

/-- The report shows the sample: its point and pressure within the driver's ranges, its tilt within a right angle,
its contact and range, and an eraser that is turned round too. -/
structure VMultiPenSample.Of (s : VMultiPenSample) (sample : PenSample) (eraser : Bool) : Prop where
  x : s.x = min sample.x_logical vmultiLogicalMax
  y : s.y = min sample.y_logical vmultiLogicalMax
  pressure : s.pressure =
    min ((clampF32 sample.pressure 0.0 1.0) * 16383.0).round.toUInt16 vmultiPressureMaxExtended
  tilt : s.tilt_x_deg.toInt = clampInt sample.tilt_x_deg (-90) 90 ∧
    s.tilt_y_deg.toInt = clampInt sample.tilt_y_deg (-90) 90
  tip : s.tip_down = sample.in_contact
  range : s.in_range = sample.in_range
  barrel : s.barrel = false
  eraser : s.eraser = eraser ∧ s.inverted = eraser

theorem toInt_clamp (t : ℤ) : (Int8.ofInt (clampInt t (-90) 90)).toInt = clampInt t (-90) 90 := by
  have hlow : -90 ≤ clampInt t (-90) 90 := by
    rw [clampInt]
    omega
  have hhigh : clampInt t (-90) 90 ≤ 90 := by
    rw [clampInt]
    omega
  apply Int8.toInt_ofInt_of_le
  · omega
  · omega

theorem vmultiSample_of (sample : PenSample) (eraser : Bool) : (vmultiSample sample eraser).clamped.Of sample eraser :=
  ⟨rfl, rfl, rfl, ⟨toInt_clamp _, toInt_clamp _⟩, rfl, rfl, rfl, rfl, rfl⟩

/-- The report is one of this sample. -/
def ReportOf (report : List UInt8) (sample : PenSample) (eraser : Bool) : Prop :=
  report.length = reportBufLen ∧ ∃ s, readReport report = some s ∧ s.Of sample eraser

/-! ### The sticky eraser -/

/-- The slot goes down at this edge, and turns the eraser over. -/
def Edge.turns (profile : PenButtonProfile) (e : Edge) : Bool :=
  !isSet e.prev e.slot && isSet e.now_bits e.slot && profile.binding e.slot == .eraserToggle

/-- An odd number of these edges turns the eraser over. -/
def turned (profile : PenButtonProfile) (es : List Edge) : Bool := es.countP (Edge.turns profile) % 2 == 1

theorem turned_append (profile : PenButtonProfile) (xs ys : List Edge) :
    turned profile (xs ++ ys) = xor (turned profile xs) (turned profile ys) := by
  rw [turned, turned, turned, List.countP_append]
  generalize xs.countP _ = m
  generalize ys.countP _ = n
  rcases Nat.mod_two_eq_zero_or_one m with hm | hm <;> rcases Nat.mod_two_eq_zero_or_one n with hn | hn <;>
    simp [Nat.add_mod, hm, hn]

theorem turned_cons (profile : PenButtonProfile) (e : Edge) (es : List Edge) :
    turned profile (e :: es) = xor (e.turns profile) (turned profile es) := by
  have hone : turned profile [e] = e.turns profile := by
    rw [turned, List.countP_singleton]
    cases e.turns profile <;> rfl
  rw [← List.singleton_append, turned_append, hone]

/-- The dispatch of a sample turns the eraser as its edges say. -/
theorem edgeToggles_eq (profile : PenButtonProfile) (prev now_bits : UInt8) :
    edgeToggles profile prev now_bits = turned profile (slots.map (Edge.mk prev now_bits)) := by
  have hlist : ∀ l : List UInt8, (∀ slot ∈ l, slot ∈ slots) →
      l.foldr (fun slot t => xor (slotToggles (profile.binding slot) (isSet (~~~prev &&& now_bits) slot)) t) false =
        turned profile (l.map (Edge.mk prev now_bits)) := by
    intro l hl
    induction l with
    | nil => rfl
    | cons slot l ih =>
        rw [List.foldr_cons, List.map_cons, turned_cons, ih fun s hs => hl s (List.mem_cons_of_mem _ hs),
          slotToggles, isSet_rose (hl slot List.mem_cons_self)]
        rfl
  exact hlist slots fun _ h => h

/-! ### The reports of a list of samples -/

/-- Each report is one of a sample, in their order and none twice. -/
def ReportsOfPart (reports : List (List UInt8)) (samples : List PenSample) : Prop :=
  ∃ kept, kept.Sublist samples ∧ List.Forall₂ (fun report sample =>
    ∃ eraser, (sample.eraser = true → eraser = true) ∧ ReportOf report sample eraser) reports kept

/-- There is one report for each sample.  Its eraser bits are on just when the sample is one of the eraser end, or an
odd number of button presses up to it has turned the eraser over. -/
def ReportsOfAll (profile : PenButtonProfile) (reports : List (List UInt8)) (samples : List PenSample) : Prop :=
  reports.length = samples.length ∧ ∀ n sample, samples[n]? = some sample → ∃ report, reports[n]? = some report ∧
    ReportOf report sample (sample.eraser ||
      turned profile (edges 0 ((samples.take (n + 1)).map PenSample.buttons)))

/-! ### The reports of a run -/

/-- The reports handed to the driver, taken or not. -/
def handedReports (log : List (OsCall × Bool)) : List (List UInt8) :=
  log.filterMap fun c =>
    match c.1 with
    | .writeFile report => some report
    | _ => none

theorem handedReports_append (xs ys : List (OsCall × Bool)) :
    handedReports (xs ++ ys) = handedReports xs ++ handedReports ys := List.filterMap_append

theorem handedReports_inputs (sent : List (Input × Bool)) :
    handedReports (sent.map fun s => (.sendInput s.1, s.2)) = [] := by
  rw [handedReports, List.filterMap_map]
  exact List.filterMap_eq_nil_iff.2 fun _ _ => rfl

/-- VMulti was found, and its buffer is fit for a report. -/
def World.DeviceReady (w : World) : Prop := ∃ v, w.inj.vmulti = some v ∧ v.Padded

theorem new_deviceReady : (World.new true).DeviceReady := by
  refine ⟨⟨List.replicate reportBufLen 0⟩, rfl, ?_, ?_⟩
  · exact List.length_replicate
  · show (List.replicate reportBufLen 0).drop digiPayloadLen = _
    exact List.drop_replicate

section Runs

variable [Windows] [BuildProfile]

/-- The eraser a sample is written with. -/
def effectiveEraser (w : World) (sample : PenSample) : Bool :=
  sample.eraser || xor w.inj.pen_eraser_sticky (dispatchToggle w sample)

/-- What a sample whose dispatch is through does: it hands over its report. -/
theorem injectPen_hands {w : World} (hready : w.DeviceReady) (sample : PenSample)
    (hall : Windows.acceptsAll w.log.length ((dispatchInputs w sample).map .sendInput) = true) :
    ∃ report, ReportOf report sample (effectiveEraser w sample) ∧
      handedReports (w.step (.injectPen sample)).log = handedReports w.log ++ [report] ∧
      (w.step (.injectPen sample)).DeviceReady ∧
      (w.step (.injectPen sample)).inj.last_pen_buttons = sample.buttons ∧
      (w.step (.injectPen sample)).inj.pen_eraser_sticky =
        xor w.inj.pen_eraser_sticky (dispatchToggle w sample) ∧
      (w.step (.injectPen sample)).inj.pen_profile = w.inj.pen_profile := by
  obtain ⟨v, hv, hpadded⟩ := hready
  have hdispatch := dispatchPenButtons_exec w sample
  rw [if_pos hall] at hdispatch
  have hdevice : (w.dispatched sample).inj.vmulti = some v := hv
  have hlog : handedReports (w.dispatched sample).log = handedReports w.log := by
    show handedReports (w.log ++ _) = _
    have hinputs := handedReports_inputs ((dispatchInputs w sample).map fun i => (i, true))
    rw [List.map_map] at hinputs
    rw [handedReports_append]
    exact (congrArg _ hinputs).trans (List.append_nil _)
  have heraser : (sample.eraser || (w.dispatched sample).inj.pen_eraser_sticky) = effectiveEraser w sample := rfl
  have hbuttons : (w.dispatched sample).inj.last_pen_buttons = sample.buttons := rfl
  have hsticky : (w.dispatched sample).inj.pen_eraser_sticky =
      xor w.inj.pen_eraser_sticky (dispatchToggle w sample) := rfl
  have hprofile : (w.dispatched sample).inj.pen_profile = w.inj.pen_profile := rfl
  rw [World.step, Call.method, injectPen, exec_bind_of_ok hdispatch, exec_bind_of_ok (exec_self _)]
  dsimp only
  rw [heraser, exec_bind]
  generalize w.dispatched sample = w₁ at hdevice hlog hbuttons hsticky hprofile ⊢
  obtain ⟨report, hreport⟩ : ∃ r, r = (vmultiSample sample (effectiveEraser w sample)).report v.buf := ⟨_, rfl⟩
  have hof : ReportOf report sample (effectiveEraser w sample) := by
    rw [hreport]
    exact ⟨(padded_report _ hpadded).1, _, readReport_report _ hpadded, vmultiSample_of _ _⟩
  have hbuf : VMultiPen.Padded ⟨report⟩ := by
    rw [hreport]
    exact padded_report _ hpadded
  have hwrite : exec (writeSample sample (effectiveEraser w sample)) w₁ =
      exec (callOk (.writeFile report)) { w₁ with inj := { w₁.inj with vmulti := some ⟨report⟩ } } := by
    rw [writeSample, exec_bind_of_ok (exec_self _), if_pos (by rw [hdevice]; rfl), writePenVMulti,
      exec_bind_of_ok (exec_self _), hdevice, hreport]
    exact exec_bind_of_ok (exec_update _ w₁)
  have hhanded : ∀ w₂ : World, w₂.log = w₁.log → ∀ ok,
      handedReports (w₂.log ++ [(.writeFile report, ok)]) = handedReports w.log ++ [report] := by
    intro w₂ hlog₂ ok
    rw [hlog₂, handedReports_append, hlog]
    rfl
  refine ⟨report, hof, ?_⟩
  rw [hwrite, exec_callOk]
  split
  case h_1 u w₂ heq =>
    obtain ⟨-, rfl⟩ := Prod.mk.inj heq
    exact ⟨hhanded _ rfl _, ⟨⟨report⟩, rfl, hbuf⟩, hbuttons, hsticky, hprofile⟩
  case h_2 e w₂ heq =>
    obtain ⟨-, rfl⟩ := Prod.mk.inj heq
    exact ⟨hhanded _ rfl _, ⟨⟨report⟩, rfl, hbuf⟩, hbuttons, hsticky, hprofile⟩

/-- One whose dispatch is stopped hands over nothing. -/
theorem injectPen_stopped {w : World} (hready : w.DeviceReady) (sample : PenSample)
    (hall : ¬ Windows.acceptsAll w.log.length ((dispatchInputs w sample).map .sendInput) = true) :
    handedReports (w.step (.injectPen sample)).log = handedReports w.log ∧
      (w.step (.injectPen sample)).DeviceReady := by
  have hdispatch := dispatchPenButtons_exec w sample
  rw [if_neg hall] at hdispatch
  obtain ⟨w', hexec, ⟨sent, hlog⟩, sticky, hinj⟩ := hdispatch
  rw [World.step, Call.method, injectPen, exec_bind_of_error hexec]
  constructor
  · show handedReports w'.log = _
    rw [hlog, handedReports_append, handedReports_inputs, List.append_nil]
  · obtain ⟨v, hv, hpadded⟩ := hready
    refine ⟨v, ?_, hpadded⟩
    show w'.inj.vmulti = _
    rw [hinj]
    exact hv

theorem injectTouch_noReport (snapshot : List TouchPoint) {w : World} (hready : w.DeviceReady) :
    handedReports (w.step (.injectTouch snapshot)).log = handedReports w.log ∧
      (w.step (.injectTouch snapshot)).DeviceReady ∧
      ∃ pos, (w.step (.injectTouch snapshot)).inj = { w.inj with last_touch_pos := pos } := by
  obtain ⟨⟨frames, hlog⟩, pos, hinj⟩ := injectTouch_touched snapshot w
  have hframes : handedReports (frames.map fun f => (.injectTouch f.1, f.2)) = [] := by
    rw [handedReports, List.filterMap_map]
    exact List.filterMap_eq_nil_iff.2 fun _ _ => rfl
  rw [World.step, Call.method]
  refine ⟨?_, ?_, pos, hinj⟩
  · rw [hlog, handedReports_append, hframes, List.append_nil]
  · rw [World.DeviceReady, hinj]
    exact hready

/-- **Whatever Windows refuses**, the reports are those of a part of the samples, in their order. -/
theorem handed_sublist {w : World} (hready : w.DeviceReady) (calls : List Call)
    (hcalls : ∀ c ∈ calls, c.IsInjection) :
    ∃ reports kept, handedReports (calls.foldl World.step w).log = handedReports w.log ++ reports ∧
      kept.Sublist (penSamples calls) ∧
      List.Forall₂ (fun report sample => ∃ eraser, (sample.eraser = true → eraser = true) ∧
        ReportOf report sample eraser) reports kept := by
  induction calls generalizing w with
  | nil => exact ⟨[], [], (List.append_nil _).symm, List.Sublist.refl _, .nil⟩
  | cons c calls ih =>
      have hrest := fun c hc => hcalls c (List.mem_cons_of_mem _ hc)
      cases c with
      | injectPen sample =>
          by_cases hall : Windows.acceptsAll w.log.length ((dispatchInputs w sample).map .sendInput) = true
          · obtain ⟨report, hof, hlog, hready', -⟩ := injectPen_hands hready sample hall
            obtain ⟨reports, kept, hreports, hkept, hall₂⟩ := ih hready' hrest
            refine ⟨report :: reports, sample :: kept, ?_, hkept.cons_cons sample, .cons ⟨_, ?_, hof⟩ hall₂⟩
            · rw [List.foldl_cons, hreports, hlog, List.append_assoc]
              rfl
            · intro heraser
              rw [effectiveEraser, heraser, Bool.true_or]
          · obtain ⟨hlog, hready'⟩ := injectPen_stopped hready sample hall
            obtain ⟨reports, kept, hreports, hkept, hall₂⟩ := ih hready' hrest
            exact ⟨reports, kept, by rw [List.foldl_cons, hreports, hlog], hkept.cons sample, hall₂⟩
      | injectTouch snapshot =>
          obtain ⟨hlog, hready', -⟩ := injectTouch_noReport snapshot hready
          obtain ⟨reports, kept, hreports, hkept, hall₂⟩ := ih hready' hrest
          exact ⟨reports, kept, by rw [List.foldl_cons, hreports, hlog], hkept, hall₂⟩
      | setPenProfile profile => exact absurd (hcalls _ List.mem_cons_self) id

/-- **Where Windows takes every event**, there is one report for each sample, and its eraser bits are on just when
the sample is one of the eraser end or an odd number of presses has turned the eraser over. -/
theorem handed_run (hworks : SendInputWorks) {w : World} (hready : w.DeviceReady) (calls : List Call)
    (hcalls : ∀ c ∈ calls, c.IsInjection) :
    ∃ reports, handedReports (calls.foldl World.step w).log = handedReports w.log ++ reports ∧
      reports.length = (penSamples calls).length ∧
      ∀ n sample, (penSamples calls)[n]? = some sample → ∃ report, reports[n]? = some report ∧
        ReportOf report sample (sample.eraser || xor w.inj.pen_eraser_sticky (turned w.inj.pen_profile
          (edges w.inj.last_pen_buttons (((penSamples calls).take (n + 1)).map PenSample.buttons)))) := by
  induction calls generalizing w with
  | nil =>
      refine ⟨[], (List.append_nil _).symm, rfl, ?_⟩
      intro n sample hn
      cases hn
  | cons c calls ih =>
      have hrest := fun c hc => hcalls c (List.mem_cons_of_mem _ hc)
      cases c with
      | injectPen sample =>
          have hall := acceptsAll_of_works hworks w.log.length (dispatchInputs w sample)
          obtain ⟨report, hof, hlog, hready', hbuttons, hsticky, hprofile⟩ := injectPen_hands hready sample hall
          obtain ⟨reports, hreports, hlength, hshown⟩ := ih hready' hrest
          have hsamples : penSamples (.injectPen sample :: calls) = sample :: penSamples calls := rfl
          rw [hsamples]
          refine ⟨report :: reports, ?_, ?_, ?_⟩
          · rw [List.foldl_cons, hreports, hlog, List.append_assoc]
            rfl
          · rw [List.length_cons, List.length_cons, hlength]
          · intro n later hn
            have hedges : ∀ m, edges w.inj.last_pen_buttons
                (((sample :: penSamples calls).take (m + 1)).map PenSample.buttons) =
                  slots.map (Edge.mk w.inj.last_pen_buttons sample.buttons) ++
                    edges sample.buttons (((penSamples calls).take m).map PenSample.buttons) := fun m => rfl
            rw [hedges, turned_append, ← edgeToggles_eq, ← Bool.xor_assoc]
            cases n with
            | zero =>
                obtain rfl := Option.some.inj hn
                refine ⟨report, rfl, ?_⟩
                rw [List.take_zero, List.map_nil]
                show ReportOf report sample (_ || xor _ false)
                rw [Bool.xor_false]
                exact hof
            | succ n =>
                obtain ⟨later_report, hat, hof'⟩ := hshown n later hn
                rw [hbuttons, hsticky, hprofile] at hof'
                exact ⟨later_report, hat, hof'⟩
      | injectTouch snapshot =>
          obtain ⟨hlog, hready', pos, hinj⟩ := injectTouch_noReport snapshot hready
          obtain ⟨reports, hreports, hlength, hshown⟩ := ih hready' hrest
          rw [hinj] at hshown
          exact ⟨reports, by rw [List.foldl_cons, hreports, hlog], hlength, hshown⟩
      | setPenProfile profile => exact absurd (hcalls _ List.mem_cons_self) id

/-! ### A session -/

omit [BuildProfile] in
/-- The drop hands over no report. -/
theorem drop_handed (w : World) : handedReports (exec drop w).2.log = handedReports w.log := by
  have hcall : ∀ (w : World) (c : OsCall), (∀ report, c ≠ .writeFile report) →
      handedReports (w.after c).log = handedReports w.log := by
    intro w c hreport
    show handedReports (w.log ++ [_]) = _
    rw [handedReports_append]
    cases c with
    | writeFile report => exact absurd rfl (hreport report)
    | _ => exact List.append_nil _
  have htouch := hcall w .destroyTouchDevice (by simp)
  have hpen := hcall (w.after .destroyTouchDevice) .destroyPenDevice (by simp)
  have hhandle := hcall ((w.after .destroyTouchDevice).after .destroyPenDevice) .closeHandle (by simp)
  rw [drop, exec_bind_of_ok (exec_self w), exec_bind_of_ok (exec_call _ w), exec_bind_of_ok (exec_call _ _)]
  split
  · rw [exec_bind_of_ok (exec_call _ _)]
    exact hhandle.trans (hpen.trans htouch)
  · exact hpen.trans htouch

/-- The reports of a session are those of its calls. -/
theorem reports_of_calls (profile : PenButtonProfile) (calls : List Call) (hcalls : ∀ c ∈ calls, c.IsInjection) :
    let reports := handedReports (sessionWorld true profile calls).log
    ReportsOfPart reports (penSamples calls) ∧
      (SendInputWorks → ReportsOfAll profile reports (penSamples calls)) := by
  intro reports
  have hready : ((World.new true).step (.setPenProfile profile)).DeviceReady := by
    rw [start_step]
    exact new_deviceReady
  have hsession : reports =
      handedReports (calls.foldl World.step ((World.new true).step (.setPenProfile profile))).log := drop_handed _
  constructor
  · obtain ⟨handed, kept, hlog, hkept, hof⟩ := handed_sublist hready calls hcalls
    rw [hsession, hlog, start_step]
    exact ⟨kept, hkept, hof⟩
  · intro hworks
    obtain ⟨handed, hlog, hlength, hof⟩ := handed_run hworks hready calls hcalls
    rw [hsession, hlog, start_step]
    rw [start_step] at hof
    refine ⟨hlength, ?_⟩
    intro n sample hn
    obtain ⟨report, hat, hreport⟩ := hof n sample hn
    have hstart : xor (InputInjector.new true).pen_eraser_sticky (turned profile
        (edges 0 (((penSamples calls).take (n + 1)).map PenSample.buttons))) =
          turned profile (edges 0 (((penSamples calls).take (n + 1)).map PenSample.buttons)) := Bool.false_xor _
    refine ⟨report, hat, ?_⟩
    rw [← hstart]
    exact hreport

/-- **The pen of a session on the driver.**  Whatever the client sends and wherever the session is cut, the reports
the pen driver is handed are full reports of samples of the client, in their order and none twice, whatever Windows
refuses.  Where Windows takes the keyboard and mouse events there is one for every sample, and it shows the eraser
just when the sample does, or an odd number of button presses up to it was bound to the eraser. -/
theorem pen_reports (profile : PenButtonProfile) (c : ReadConfig) (reads : List ReadResult) (cut : ℕ) :
    let calls := (c.readLoop reads).1.take cut
    let reports := handedReports (sessionWorld true profile calls).log
    ReportsOfPart reports (penSamples calls) ∧
      (SendInputWorks → ReportsOfAll profile reports (penSamples calls)) := by
  intro calls
  apply reports_of_calls profile calls
  intro call hcall
  rcases c.readLoop_calls reads call (List.mem_of_mem_take hcall) with ⟨pe, rfl⟩ | ⟨snapshot, rfl⟩
  · trivial
  · trivial

omit [Windows] [BuildProfile] in
/-- The first button is bound to the eraser, pressed and released: the pen is an eraser behind it too. -/
theorem pen_reports_toggle :
    letI := Windows.acceptsEvery
    letI : BuildProfile := ⟨true⟩
    let profile := { PenButtonProfile.default with barrel_1 := .eraserToggle }
    let calls := (onePixel.readLoop [.frame msgPenEvent (penPayload 0 1) true,
      .frame msgPenEvent (penPayload 0 0) true, .closed]).1.take 2
    let reports := handedReports (sessionWorld true profile calls).log
    reports.length = 2 ∧ ∀ n < 2, ∃ report s, reports[n]? = some report ∧ readReport report = some s ∧
      s.eraser = true := by
  let _ := Windows.acceptsEvery
  let _ : BuildProfile := ⟨true⟩
  intro profile calls reports
  obtain ⟨-, hall⟩ := pen_reports profile onePixel [.frame msgPenEvent (penPayload 0 1) true,
    .frame msgPenEvent (penPayload 0 0) true, .closed] 2
  obtain ⟨hlength, hreports⟩ := hall fun _ _ => rfl
  have hturned : ∀ n < 2, (penSamples calls)[n]?.any (fun sample => sample.eraser ||
      turned profile (edges 0 (((penSamples calls).take (n + 1)).map PenSample.buttons))) = true := by
    decide +kernel
  refine ⟨hlength, ?_⟩
  intro n hn
  obtain ⟨sample, hsample, heraser⟩ := (Option.any_eq_true _ _).1 (hturned n hn)
  obtain ⟨report, hreport, -, s, hread, hof⟩ := hreports n sample hsample
  exact ⟨report, s, hreport, hread, hof.eraser.1.trans heraser⟩

end Runs

end Penflow
