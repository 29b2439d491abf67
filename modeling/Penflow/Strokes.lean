import Penflow.Server.PenReports
import Penflow.Uplink

/-!
# From the panel to the pen driver

The tablet with its captures, the bytes on their way and the read loop as in the uplink, and behind them the injector
of the session with its pen device.  The driver is handed reports of samples the pen capture emitted, each with the
fields of its own sample, in the order of the capture and none twice (`strokes_arrive`).
-/

namespace Penflow.Uplink

variable {c : ReadConfig} {caps : Client.DeviceCaps} {u : Uplink}

theorem penSamples_eq {calls : List Call} (h : ∀ call ∈ calls, isPen call = true ∨ isTouch call = true) :
    (penSamples calls).map Call.injectPen = calls.filter isPen := by
  induction calls with
  | nil => rfl
  | cons call calls ih =>
      have hrest := ih fun d hd => h d (List.mem_cons_of_mem _ hd)
      cases call with
      | injectPen sample =>
          show Call.injectPen sample :: (penSamples calls).map Call.injectPen = .injectPen sample :: calls.filter isPen
          rw [hrest]
      | injectTouch snapshot => exact hrest
      | setPenProfile profile =>
          rcases h _ List.mem_cons_self with hpen | htouch
          · cases hpen
          · cases htouch

/-- The samples injected are those of a part of what the pen capture emitted. -/
theorem Inv.received (h : u.Inv c) : ∃ received : List (Client.PenSample Float32),
    received.Sublist u.activity.samples ∧ penSamples u.calls = received.map fun x => c.penSample (.ofSample x) := by
  have hpens := h.pens
  rw [← penSamples_eq h.kinds] at hpens
  obtain ⟨received, hreceived, heq⟩ := List.sublist_map_iff.1 hpens
  refine ⟨received, hreceived, ?_⟩
  have hinjective : Function.Injective Call.injectPen := by
    intro x y hxy
    exact Call.injectPen.inj hxy
  apply hinjective.list_map
  rw [heq, List.map_map]
  rfl

theorem Inv.injections (h : u.Inv c) : ∀ call ∈ u.calls, call.IsInjection := by
  intro call hcall
  cases call with
  | setPenProfile profile =>
      rcases h.kinds _ hcall with hpen | htouch
      · cases hpen
      · cases htouch
  | _ => trivial

/-- The samples of the calls made are those of the pen messages the PC has read. -/
theorem Heard.samples {got : List Frame} (h : Heard c u got) (hreader : u.reader ≠ .refused) :
    penSamples u.calls = penSamples (got.filterMap (callOf c)) := by
  rw [h.all hreader]

variable [Windows] [BuildProfile]

/-- **From the panel to the pen driver.**  As long as the goodbye meets no frame, the samples given to the injector
are those of the pen messages among the frames `got` that the PC has read off the socket, unless its handshake
failed, and they go back to samples `received` of the pen capture, in its order and none twice.  Whatever Windows
refuses, the reports the driver is handed are those of a part of them: each is a full report with the point, the
pressure, the tilt, the contact and the range of its own sample.  Where Windows takes the keyboard and mouse events,
every one of them has its report, which shows the eraser just when the tool is one, or an odd number of button
presses among the samples so far was bound to the eraser. -/
theorem strokes_arrive (profile : PenButtonProfile) {es : List UplinkEvent}
    (h : Run.Steps (step c) (fun u e => ¬ u.Meets e) (start caps) es) :
    let u := after c caps es
    let reports := handedReports (sessionWorld true profile u.calls).log
    ∃ (got : List Frame) (received : List (Client.PenSample Float32)),
      u.client.wire = got.flatMap Frame.encode ++ u.unread ∧
      (u.reader ≠ .refused → penSamples u.calls = penSamples (got.filterMap (callOf c))) ∧
      penSamples u.calls = received.map (fun x => c.penSample (.ofSample x)) ∧
      received.Sublist u.activity.samples ∧
      ReportsOfPart reports (penSamples u.calls) ∧
      (SendInputWorks → ReportsOfAll profile reports (penSamples u.calls)) := by
  intro u reports
  have hinv : u.Inv c := h.invariant step_inv start_inv
  obtain ⟨got, hheard⟩ := hinv.heard
  obtain ⟨received, hreceived, hsamples⟩ := hinv.received
  obtain ⟨hpart, hall⟩ := reports_of_calls profile u.calls hinv.injections
  exact ⟨got, received, hheard.stream, hheard.samples, hsamples, hreceived, hpart, hall⟩

omit [Windows] [BuildProfile] in
/-- The stylus goes down, and Windows takes every call: the sample read has its report. -/
theorem strokes_arrive_stroke :
    letI := Windows.acceptsEvery
    letI : BuildProfile := ⟨true⟩
    let u := after uprightRead ⟨2560, 1600, 8191, -60, 60, 2, 3⟩ firstStroke
    (penSamples u.calls).length = 1 ∧
      ReportsOfAll .default (handedReports (sessionWorld true .default u.calls).log) (penSamples u.calls) := by
  let _ := Windows.acceptsEvery
  let _ : BuildProfile := ⟨true⟩
  obtain ⟨got, received, -, -, -, -, -, hall⟩ := strokes_arrive .default (firstStroke_clear uprightRead _)
  refine ⟨?_, hall fun _ _ => rfl⟩
  decide +kernel

end Penflow.Uplink
