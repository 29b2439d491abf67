import Penflow.Capture.CursorBlit
import Penflow.Gui.Settings
import Penflow.Inject.Rotation
import Penflow.Server.VirtualMonitor

/-!
# What a session captures, and where its pen goes

The service chooses the monitor of a session from those DXGI lists; with a virtual display driver the session waits for
the one the driver brings up.  Where its size is not the one asked for, the session forces the mode and waits again.
The engine then looks the monitor up in a list of its own (`session_captures`).

The transform of the pen is taken from the monitor of the engine, and with the screen off from one more list.  Where
the session's monitor is listed still, it lays the unit square of the tablet over the desktop rectangle the output
reports, except on an output that is turned by 90 degrees and not square (`pen_lands`, `screenOff_lands`).
-/

namespace Penflow

open AffineTransform QuarterTurn

/-! ### The monitor of a session -/

section Session

variable [BuildProfile]

/-- What a `SessionConfig` says of the monitor; the driver is the instance id of its device. -/
structure CaptureConfig where
  monitor : MonitorInfo
  vdd : Option String
  vdd_target_resolution : Option (UInt32 × UInt32)

def stubMonitor : MonitorInfo where
  adapter_index := 0
  adapter_luid := 0
  adapter_name := ""
  adapter_vendor_id := 0
  adapter_device_id := 0
  adapter_is_software := false
  output_index_within_adapter := 0
  device_name := ""
  width := 0
  height := 0
  desktop_coords := (0, 0, 0, 0)
  rotation := 1
  attached_to_desktop := false
  looks_virtual := false

/-- What `build_session_config` says of the monitor, with the answers of `list_monitors` and of
`VddController::detect`. -/
def buildSessionConfig (topology : TopologyMode) (vdd_resolution : DisplayResolution)
    (monitors : List MonitorInfo) (detected : Option String) : CaptureConfig :=
  let attached :=
    match topology with
    | .duplicate => (monitors.find? fun m => m.usable && !m.looks_virtual).getD (monitors.head?.getD stubMonitor)
    | .extend => (monitors.find? MonitorInfo.usable).getD (monitors.head?.getD stubMonitor)
  let vdd :=
    match topology with
    | .duplicate => none
    | .extend => detected
  ⟨attached, vdd, vdd.map fun _ => (vdd_resolution.width, vdd_resolution.height)⟩

/-- What Windows answers a session that begins: the list before the driver is enabled, the driver, both waits, the
code of `ChangeDisplaySettingsExW`, the high-performance adapter, and the engine. -/
structure SessionAnswers where
  baseline : Except UInt32 DxgiFactory
  enable : Except VddError Unit
  waiting : Polls
  change_settings : Int32
  again : Polls
  high_perf : Except UInt32 Unit
  start : StartAnswers

/-- Why a session has no engine. -/
inductive CaptureFault where
  | dxgi (e : DxgiFault)
  | vdd (e : VddError)
  | wait (e : WaitFault)
  | highPerf (code : UInt32)
  | engine (e : StartFault)
  deriving DecidableEq, Repr

/-- The size the driver was asked for: the mode is forced, and the monitor found once more. -/
def forceSize (target : Option (UInt32 × UInt32)) (virt : MonitorInfo) (id : String) (keys : List String)
    (a : SessionAnswers) : Option (Except CaptureFault MonitorInfo) :=
  match target with
  | none => some (.ok virt)
  | some (width, height) =>
    if virt.width ≠ width.toNat ∨ virt.height ≠ height.toNat then
      if a.change_settings ≠ 0 then some (.ok virt)
      else
        match waitForVirtualMonitor ⟨3 * nsPerSecond, some id, some keys⟩ a.again with
        | none => none
        | some (.ok refreshed) => some (.ok refreshed)
        | some (.error .panic) => some (.error (.wait .panic))
        | some (.error _) => some (.ok virt)
    else some (.ok virt)

/-- The `capture_monitor` of `Session::run`; nothing, as long as it waits for one. -/
def captureMonitor (cfg : CaptureConfig) (a : SessionAnswers) : Option (Except CaptureFault MonitorInfo) :=
  match cfg.vdd with
  | none => some (.ok cfg.monitor)
  | some id =>
    match snapshotAttachedMonitorKeys a.baseline with
    | .error e => some (.error (.dxgi e))
    | .ok keys =>
      match a.enable with
      | .error e => some (.error (.vdd e))
      | .ok () =>
        match waitForVirtualMonitor ⟨15 * nsPerSecond, some id, some keys⟩ a.waiting with
        | none => none
        | some (.error e) => some (.error (.wait e))
        | some (.ok virt) =>
          match forceSize cfg.vdd_target_resolution virt id keys a with
          | some (.ok virt) =>
            match a.high_perf with
            | .error code => some (.error (.highPerf code))
            | .ok () => some (.ok virt)
          | r => r

/-- The engine of `Session::run`. -/
def sessionEngine (cfg : CaptureConfig) (a : SessionAnswers) : Option (Except CaptureFault Engine) :=
  match captureMonitor cfg a with
  | none => none
  | some (.error e) => some (.error e)
  | some (.ok m) =>
    match startEngine m a.start with
    | .error e => some (.error (.engine e))
    | .ok engine => some (.ok engine)

/-- A poll lists the monitor, which is attached, on hardware, and looks virtual or was not attached before. -/
structure Appeared (before : List MonitorInfo) (polls : List WaitTurn) (m : MonitorInfo) : Prop where
  listed : ∃ t ∈ polls, ∃ mons, listMonitors t.factory = .ok mons ∧ m ∈ mons
  usable : m.usable = true
  fresh : m.looks_virtual = true ∨ ∀ n ∈ before, n.usable = true → ¬ n.sameAs m = true

theorem appeared_of_wait {timeout : ℕ} {id : String} {before : List MonitorInfo} {p : Polls} {m : MonitorInfo}
    (h : waitForVirtualMonitor ⟨timeout, some id, some ((before.filter MonitorInfo.usable).map monitorKey)⟩ p =
      some (.ok m)) : Appeared before p.turns m := by
  obtain ⟨pre, t, post, mons, hturns, -, -, hmons, hfind⟩ := Wait.wait_eq_ok h
  have hwants := List.find?_some hfind
  rw [Wait.wants, Bool.and_eq_true, Bool.or_eq_true] at hwants
  refine ⟨⟨t, by simp [hturns], mons, hmons, List.mem_of_find?_eq_some hfind⟩, hwants.1, ?_⟩
  apply hwants.2.imp_right
  intro hnew n hn husable hsame
  have hkey : monitorKey m ∈ (before.filter MonitorInfo.usable).map monitorKey :=
    List.mem_map.2 ⟨n, List.mem_filter.2 ⟨hn, husable⟩, monitorKey_inj.2 hsame⟩
  simp [hkey] at hnew

theorem Appeared.mono {before : List MonitorInfo} {polls more : List WaitTurn} {m : MonitorInfo}
    (h : Appeared before polls m) (hsub : ∀ t ∈ polls, t ∈ more) : Appeared before more m := by
  obtain ⟨t, ht, hlisted⟩ := h.listed
  exact ⟨⟨t, hsub t ht, hlisted⟩, h.usable, h.fresh⟩

/-- The monitor behind the forced mode is the one of before, or one that appeared in the second wait. -/
theorem forceSize_ok {target : Option (UInt32 × UInt32)} {virt m : MonitorInfo} {id : String}
    {before : List MonitorInfo} {a : SessionAnswers}
    (h : forceSize target virt id ((before.filter MonitorInfo.usable).map monitorKey) a = some (.ok m)) :
    m = virt ∨ Appeared before a.again.turns m := by
  have hkept : (some (.ok virt) : Option (Except CaptureFault MonitorInfo)) = some (.ok m) → m = virt := by
    intro hm
    cases hm
    rfl
  unfold forceSize at h
  split at h
  case h_1 => exact .inl (hkept h)
  case h_2 =>
    split at h
    · split at h
      · exact .inl (hkept h)
      · split at h
        case h_1 => cases h
        case h_2 refreshed hwait =>
          cases h
          exact .inr (appeared_of_wait hwait)
        case h_3 => cases h
        case h_4 => exact .inl (hkept h)
    · exact .inl (hkept h)

/-- With a driver, the session captures a monitor that appeared. -/
theorem captureMonitor_vdd {cfg : CaptureConfig} {a : SessionAnswers} {id : String} {m : MonitorInfo}
    (hvdd : cfg.vdd = some id) (h : captureMonitor cfg a = some (.ok m)) :
    ∃ before, listMonitors a.baseline = .ok before ∧ Appeared before (a.waiting.turns ++ a.again.turns) m := by
  rw [captureMonitor, hvdd] at h
  dsimp only at h
  split at h
  case h_1 => cases h
  case h_2 keys hkeys =>
    obtain ⟨before, hbefore, rfl⟩ := snapshot_eq_ok.1 hkeys
    refine ⟨before, hbefore, ?_⟩
    split at h
    case h_1 => cases h
    case h_2 =>
      split at h
      case h_1 => cases h
      case h_2 => cases h
      case h_3 virt hwait =>
        split at h
        case h_1 forced hforced =>
          have hm : m = forced := by
            split at h
            · cases h
            · cases h
              rfl
          rw [hm]
          rcases forceSize_ok hforced with rfl | hagain
          · exact (appeared_of_wait hwait).mono fun t ht => List.mem_append_left _ ht
          · exact hagain.mono fun t ht => List.mem_append_right _ ht
        case h_2 hforced => exact absurd h (hforced m)

omit [BuildProfile] in
/-- The service chooses a usable monitor where there is one, and in duplicate mode none that looks virtual. -/
theorem buildSessionConfig_monitor {topology : TopologyMode} {res : DisplayResolution} {monitors : List MonitorInfo}
    {detected : Option String}
    (h : ∃ m ∈ monitors, m.usable = true ∧ (topology = .duplicate → m.looks_virtual = false)) :
    let m := (buildSessionConfig topology res monitors detected).monitor
    m ∈ monitors ∧ m.usable = true ∧ (topology = .duplicate → m.looks_virtual = false) := by
  have hfound : ∀ p : MonitorInfo → Bool, (∃ m ∈ monitors, p m = true) → ∀ d,
      (monitors.find? p).getD d ∈ monitors ∧ p ((monitors.find? p).getD d) = true := by
    intro p hp d
    obtain ⟨m, hm⟩ := Option.isSome_iff_exists.1 (List.find?_isSome.2 hp)
    rw [hm]
    exact ⟨List.mem_of_find?_eq_some hm, List.find?_some hm⟩
  obtain ⟨m, hm, husable, hvirtual⟩ := h
  cases topology with
  | duplicate =>
      obtain ⟨hmem, hp⟩ := hfound (fun m => m.usable && !m.looks_virtual)
        ⟨m, hm, by rw [husable, hvirtual rfl]; rfl⟩ (monitors.head?.getD stubMonitor)
      rw [Bool.and_eq_true, Bool.not_eq_true'] at hp
      exact ⟨hmem, hp.1, fun _ => hp.2⟩
  | extend =>
      obtain ⟨hmem, hp⟩ := hfound MonitorInfo.usable ⟨m, hm, husable⟩ (monitors.head?.getD stubMonitor)
      refine ⟨hmem, hp, ?_⟩
      intro hduplicate
      cases hduplicate

theorem sessionEngine_eq_ok {cfg : CaptureConfig} {a : SessionAnswers} {e : Engine}
    (h : sessionEngine cfg a = some (.ok e)) :
    ∃ m, captureMonitor cfg a = some (.ok m) ∧ startEngine m a.start = .ok e := by
  rw [sessionEngine] at h
  split at h
  case h_1 => cases h
  case h_2 => cases h
  case h_3 m hm =>
    split at h
    case h_1 => cases h
    case h_2 engine hstart =>
      cases h
      exact ⟨m, hm, hstart⟩

/-- **What a session captures.**  An engine of a session captures an output of the adapter of a monitor, with the name
of this monitor where it is listed still.  With a virtual display driver in extend mode, this monitor is one that a
poll listed, attached and on hardware, and that looks virtual or was not attached before the driver was enabled,
whatever the polls answer, also where the mode was forced.  Without one it is a monitor that is attached and on
hardware where the service listed such a monitor, and in duplicate mode none that looks virtual. -/
theorem session_captures {topology : TopologyMode} {res : DisplayResolution} {monitors : List MonitorInfo}
    {detected : Option String} {a : SessionAnswers} {e : Engine}
    (h : sessionEngine (buildSessionConfig topology res monitors detected) a = some (.ok e)) :
    ∃ m factory desc odesc, captureMonitor (buildSessionConfig topology res monitors detected) a = some (.ok m) ∧
      a.start.factory = .ok factory ∧ e.adapter.desc = .ok desc ∧ e.output.desc = .ok odesc ∧
      desc.luid = m.adapter_luid ∧ 0 < e.monitor.width ∧ 0 < e.monitor.height ∧
      (factory.Lists m → odesc.device_name = m.device_name ∧ e.monitor.Of desc odesc) ∧
      (¬ factory.Lists m → odesc.device_name ≠ m.device_name ∧ e.monitor = m) ∧
      (topology = .extend ∧ detected.isSome → ∃ before, listMonitors a.baseline = .ok before ∧
        Appeared before (a.waiting.turns ++ a.again.turns) m) ∧
      (topology = .duplicate ∨ detected = none →
        (∃ n ∈ monitors, n.usable = true ∧ (topology = .duplicate → n.looks_virtual = false)) →
        m ∈ monitors ∧ m.usable = true ∧ (topology = .duplicate → m.looks_virtual = false)) := by
  obtain ⟨m, hm, hstart⟩ := sessionEngine_eq_ok h
  obtain ⟨factory, desc, odesc, hfactory, hdesc, hodesc, hluid, hwidth, hheight, hlisted, hgone⟩ :=
    engine_captures hstart
  refine ⟨m, factory, desc, odesc, hm, hfactory, hdesc, hodesc, hluid, hwidth, hheight, hlisted, hgone, ?_, ?_⟩
  · rintro ⟨rfl, hdetected⟩
    obtain ⟨id, rfl⟩ := Option.isSome_iff_exists.1 hdetected
    exact captureMonitor_vdd rfl hm
  · intro hnone husable
    have hvdd : (buildSessionConfig topology res monitors detected).vdd = none := by
      rcases hnone with rfl | rfl
      · rfl
      · cases topology with
        | duplicate => rfl
        | extend => rfl
    have hchosen : m = (buildSessionConfig topology res monitors detected).monitor := by
      rw [captureMonitor, hvdd] at hm
      cases hm
      rfl
    rw [hchosen]
    exact buildSessionConfig_monitor husable

end Session

/-! ### A driver that brings up a screen -/

def screenDesc : AdapterDesc := ⟨"GPU", 0, 0, 0, 7, 0⟩

/-- One adapter with one output. -/
def screenFactory : DxgiFactory where
  adapters := [⟨.ok screenDesc, [⟨.ok ⟨"D", 0, 0, 1920, 1080, 1, true⟩⟩], dxgiErrorNotFound⟩]
  last := dxgiErrorNotFound

/-- Nothing is attached; the first poll behind the driver shows the output. -/
def screenAnswers : SessionAnswers where
  baseline := .ok ⟨[], dxgiErrorNotFound⟩
  enable := .ok ()
  waiting := ⟨0, [⟨0, ⟨0, 0, 0, le_rfl, le_rfl⟩, 0, .ok screenFactory, ⟨0, 0, 0, le_rfl, le_rfl⟩, ⟨0, 0, 0, 0⟩⟩]⟩
  change_settings := 0
  again := ⟨0, []⟩
  high_perf := .ok ()
  start := ⟨.ok screenFactory, .ok (), .ok (), .ok ()⟩

/-- The entry of the output. -/
def screenMonitor : MonitorInfo where
  adapter_index := 0
  adapter_luid := 7
  adapter_name := "GPU"
  adapter_vendor_id := 0
  adapter_device_id := 0
  adapter_is_software := false
  output_index_within_adapter := 0
  device_name := "D"
  width := 1920
  height := 1080
  desktop_coords := (0, 0, 1920, 1080)
  rotation := 1
  attached_to_desktop := true
  looks_virtual := looksVirtual "GPU" || looksVirtual "D"

/-- The session waits for this monitor. -/
theorem captureMonitor_screen :
    letI : BuildProfile := ⟨true⟩
    captureMonitor (buildSessionConfig .extend ⟨1920, 1080⟩ [] (some "VDD")) screenAnswers =
      some (.ok screenMonitor) := by
  let _ : BuildProfile := ⟨true⟩
  have hwants : Wait.wants ⟨15 * nsPerSecond, some "VDD", some []⟩ screenMonitor = true := by
    show (true && (_ || true)) = true
    rw [Bool.or_true]
    rfl
  have hwait : waitForVirtualMonitor ⟨15 * nsPerSecond, some "VDD", some []⟩ screenAnswers.waiting =
      some (.ok screenMonitor) := by
    refine Wait.run_eq_some.2 ⟨[], _, [], rfl, fun u hu => absurd hu List.not_mem_nil, .inl ⟨by decide, ?_⟩⟩
    exact Wait.returns_eq_ok.2 ⟨[screenMonitor], rfl, List.find?_cons_of_pos hwants⟩
  have hkeys : snapshotAttachedMonitorKeys screenAnswers.baseline = .ok [] := rfl
  rw [captureMonitor]
  simp only [buildSessionConfig, hkeys, hwait]
  rfl

/-- The session captures this output. -/
theorem session_captures_screen :
    letI : BuildProfile := ⟨true⟩
    ∃ e odesc m, sessionEngine (buildSessionConfig .extend ⟨1920, 1080⟩ [] (some "VDD")) screenAnswers = some (.ok e) ∧
      e.output.desc = .ok odesc ∧ Appeared [] screenAnswers.waiting.turns m := by
  let _ : BuildProfile := ⟨true⟩
  obtain ⟨e, he⟩ : ∃ e, sessionEngine (buildSessionConfig .extend ⟨1920, 1080⟩ [] (some "VDD")) screenAnswers =
      some (.ok e) := by
    rw [sessionEngine, captureMonitor_screen]
    exact ⟨_, rfl⟩
  obtain ⟨m, factory, desc, odesc, -, -, -, hodesc, -, -, -, -, -, happeared, -⟩ := session_captures he
  obtain ⟨before, hbefore, happeared⟩ := happeared ⟨rfl, rfl⟩
  cases hbefore
  exact ⟨e, odesc, m, he, hodesc, happeared⟩

/-! ### The rectangle of an output -/

namespace OutputDesc

/-- The rectangle on the desktop. -/
def area (d : OutputDesc) : Set (ℚ × ℚ) :=
  {p | ((d.left : ℚ) ≤ p.1 ∧ p.1 ≤ d.right) ∧ (d.top : ℚ) ≤ p.2 ∧ p.2 ≤ d.bottom}

/-- Width and height fit an `i32`. -/
structure Fits (d : OutputDesc) : Prop where
  width : -2 ^ 31 ≤ d.right - d.left ∧ d.right - d.left < 2 ^ 31
  height : -2 ^ 31 ≤ d.bottom - d.top ∧ d.bottom - d.top < 2 ^ 31

end OutputDesc

/-- The degrees of a `DXGI_MODE_ROTATION`. -/
def rotationDeg (rotation : UInt32) : ℕ :=
  match rotation with
  | 2 => 90
  | 3 => 180
  | 4 => 270
  | _ => 0

/-- The `coords` of a session on this monitor, over the rationals. -/
def sessionCoords (m : MonitorInfo) : AffineTransform ℚ :=
  fromNormalizedToRect m.desktop_coords.1 m.desktop_coords.2.1 m.width m.height (rotationDeg m.rotation)

theorem rotationDeg_ne {rotation : UInt32} (h : rotation ≠ 2) : rotationDeg rotation % 360 ≠ 90 := by
  unfold rotationDeg
  split
  · exact absurd rfl h
  · decide
  · decide
  · decide

section Lands

variable [BuildProfile]

/-- The extent of a rectangle that is not empty. -/
theorem extent_eq {hi lo : ℤ} {n : ℕ} (h : extent hi lo = .ok n) (hpos : 0 < n)
    (hfits : -2 ^ 31 ≤ hi - lo ∧ hi - lo < 2 ^ 31) : (n : ℤ) = hi - lo := by
  rw [extent, subI32_of_mem hfits] at h
  have hn : (max (hi - lo) 0).toNat = n := Except.ok.inj h
  omega

/-- **The transform onto an output.** -/
theorem sessionCoords_bijOn {m : MonitorInfo} {desc : AdapterDesc} {odesc : OutputDesc} (hof : m.Of desc odesc)
    (hw : 0 < m.width) (hh : 0 < m.height) (hfits : odesc.Fits) :
    Set.BijOn (sessionCoords m).mapPoint (square ℚ) odesc.area ↔
      odesc.rotation ≠ 2 ∨ odesc.right - odesc.left = odesc.bottom - odesc.top := by
  have hwidth := extent_eq hof.size.1 hw hfits.width
  have hheight := extent_eq hof.size.2 hh hfits.height
  let o : OutputRect := ⟨odesc.left, odesc.top, m.width, m.height, hw, hh⟩
  have hcoords : sessionCoords m = o.transform (rotationDeg odesc.rotation) := by
    rw [sessionCoords, hof.coords, hof.rotation]
    rfl
  have harea : odesc.area = o.area := by
    have hright : (odesc.right : ℚ) = (odesc.left : ℚ) + (m.width : ℚ) := by
      have hsum : odesc.right = odesc.left + (m.width : ℤ) := by omega
      rw [hsum]
      push_cast
      rfl
    have hbottom : (odesc.bottom : ℚ) = (odesc.top : ℚ) + (m.height : ℚ) := by
      have hsum : odesc.bottom = odesc.top + (m.height : ℤ) := by omega
      rw [hsum]
      push_cast
      rfl
    rw [OutputDesc.area, hright, hbottom]
    rfl
  rw [hcoords, harea]
  by_cases hrotation : odesc.rotation = 2
  · have hsquare : m.width = m.height ↔ odesc.right - odesc.left = odesc.bottom - odesc.top := by omega
    rw [hrotation]
    show Set.BijOn (o.transform 90).mapPoint (square ℚ) o.area ↔ _
    rw [o.bijOn_quarter_iff, or_iff_right (absurd rfl)]
    exact hsquare
  · exact iff_of_true (o.covered_of_ne_quarter (rotationDeg_ne hrotation)).bijOn (.inl hrotation)

/-! ### A session with its engine -/

/-- **The pen lands on the picture.**  Where the session's monitor is listed when its engine starts, the transform of
the session maps the unit square of the tablet bijectively onto the desktop rectangle of the output that the engine
captures, whatever display was made larger, moved or turned since it was chosen, just when the output is not turned by
90 degrees or is square. -/
theorem pen_lands {cfg : CaptureConfig} {a : SessionAnswers} {m : MonitorInfo} {e : Engine} {factory : DxgiFactory}
    {odesc : OutputDesc} (hm : captureMonitor cfg a = some (.ok m)) (h : sessionEngine cfg a = some (.ok e))
    (hfactory : a.start.factory = .ok factory) (hlisted : factory.Lists m) (hodesc : e.output.desc = .ok odesc)
    (hfits : odesc.Fits) :
    Set.BijOn (sessionCoords e.monitor).mapPoint (square ℚ) odesc.area ↔
      odesc.rotation ≠ 2 ∨ odesc.right - odesc.left = odesc.bottom - odesc.top := by
  obtain ⟨m', hm', hstart⟩ := sessionEngine_eq_ok h
  rw [hm] at hm'
  cases hm'
  obtain ⟨factory', desc, odesc', hfactory', -, hodesc', -, hw, hh, hcaptured, -⟩ := engine_captures hstart
  rw [hfactory] at hfactory'
  cases hfactory'
  rw [hodesc] at hodesc'
  cases hodesc'
  exact sessionCoords_bijOn (hcaptured hlisted).2 hw hh hfits

omit [BuildProfile] in
theorem screenFactory_lists :
    letI : BuildProfile := ⟨true⟩
    screenFactory.Lists screenMonitor := by
  let _ : BuildProfile := ⟨true⟩
  exact ⟨[screenMonitor], rfl, screenMonitor, List.mem_cons_self, rfl⟩

omit [BuildProfile] in
/-- The tablet covers the whole output. -/
theorem pen_lands_screen :
    letI : BuildProfile := ⟨true⟩
    ∃ e odesc, sessionEngine (buildSessionConfig .extend ⟨1920, 1080⟩ [] (some "VDD")) screenAnswers = some (.ok e) ∧
      e.output.desc = .ok odesc ∧ Set.BijOn (sessionCoords e.monitor).mapPoint (square ℚ) odesc.area := by
  let _ : BuildProfile := ⟨true⟩
  obtain ⟨e, he, hodesc⟩ : ∃ e, sessionEngine (buildSessionConfig .extend ⟨1920, 1080⟩ [] (some "VDD")) screenAnswers =
      some (.ok e) ∧ e.output.desc = .ok ⟨"D", 0, 0, 1920, 1080, 1, true⟩ := by
    rw [sessionEngine, captureMonitor_screen]
    exact ⟨_, rfl, rfl⟩
  refine ⟨e, _, he, hodesc, ?_⟩
  refine (pen_lands captureMonitor_screen he rfl screenFactory_lists hodesc ⟨by decide, by decide⟩).2 (.inl ?_)
  decide

/-! ### A session with the screen off -/

/-- The monitor of `run_screen_off`, with the answer of `list_monitors`; nothing where that panics. -/
def screenOffMonitor (cfg : CaptureConfig) : Except DxgiFault (List MonitorInfo) → Option MonitorInfo
  | .ok mons => some ((mons.find? fun m => m.sameAs cfg.monitor).getD cfg.monitor)
  | .error .panic => none
  | .error _ => some cfg.monitor

/-- **The pen with the screen off.**  Where the monitor is listed, the pen goes to the output of its adapter and name,
as the output lies now, over the rationals. -/
theorem screenOff_lands {cfg : CaptureConfig} {factory : DxgiFactory} (hlisted : factory.Lists cfg.monitor) :
    ∃ m adapter desc output odesc, screenOffMonitor cfg (listMonitors (.ok factory)) = some m ∧
      m.openAdapter factory = .ok adapter ∧ m.openOutput adapter = .ok output ∧ adapter.desc = .ok desc ∧
      output.desc = .ok odesc ∧ desc.luid = cfg.monitor.adapter_luid ∧ odesc.device_name = cfg.monitor.device_name ∧
      (0 < m.width → 0 < m.height → odesc.Fits →
        (Set.BijOn (sessionCoords m).mapPoint (square ℚ) odesc.area ↔
          odesc.rotation ≠ 2 ∨ odesc.right - odesc.left = odesc.bottom - odesc.top)) := by
  obtain ⟨mons, hmons, n, hn, hsame⟩ := hlisted
  have hlist : listMonitors (.ok factory) = .ok mons := by rw [listMonitors, hmons]
  obtain ⟨m, hfind⟩ : ∃ m, mons.find? (fun m => m.sameAs cfg.monitor) = some m :=
    Option.isSome_iff_exists.1 (List.find?_isSome.2 ⟨n, hn, hsame⟩)
  have hfound : m.sameAs cfg.monitor = true := List.find?_some (p := fun m : MonitorInfo => m.sameAs cfg.monitor) hfind
  obtain ⟨hluid, hname⟩ := sameAs_iff.1 hfound
  obtain ⟨adapter, desc, output, odesc, hadapter, hdesc, houtput, hodesc, hof⟩ :=
    open_enumerated hmons (List.mem_of_find?_eq_some hfind)
  refine ⟨m, adapter, desc, output, odesc, ?_, hadapter, houtput, hdesc, hodesc, hof.luid.symm.trans hluid,
    hof.name.symm.trans hname, fun hw hh hfits => sessionCoords_bijOn hof hw hh hfits⟩
  rw [hlist, screenOffMonitor, hfind]
  rfl

omit [BuildProfile] in
/-- With the screen off it covers the output too. -/
theorem screenOff_lands_screen :
    letI : BuildProfile := ⟨true⟩
    ∃ (m : MonitorInfo) (odesc : OutputDesc),
      screenOffMonitor ⟨screenMonitor, none, none⟩ (listMonitors (.ok screenFactory)) = some m ∧
        odesc.device_name = "D" ∧ Set.BijOn (sessionCoords m).mapPoint (square ℚ) odesc.area := by
  let _ : BuildProfile := ⟨true⟩
  have hlisted : screenFactory.Lists (CaptureConfig.mk screenMonitor none none).monitor := screenFactory_lists
  obtain ⟨m, adapter, desc, output, odesc, hm, hadapter, houtput, -, hodesc, -, hname, hlands⟩ :=
    screenOff_lands hlisted
  obtain rfl : screenMonitor = m := Option.some.inj hm
  obtain rfl := Except.ok.inj hadapter
  obtain rfl := Except.ok.inj houtput
  obtain rfl := Except.ok.inj hodesc
  refine ⟨_, _, hm, hname, (hlands (by decide) (by decide) ⟨by decide, by decide⟩).2 (.inl ?_)⟩
  decide

end Lands

end Penflow
