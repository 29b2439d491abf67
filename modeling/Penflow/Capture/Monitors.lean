import Penflow.Core.Outcome
import Mathlib.Data.List.Infix

/-!
# Monitors and the output an engine captures

DXGI numbers the adapters of a factory and the outputs of an adapter; `enumerate` lists every output of every adapter
with both numbers, and a monitor is opened again by them.  What is listed opens as listed (`open_enumerated`).  The
engine looks for its monitor by adapter and name in a fresh list.  Where it is there, the engine captures the output
of that name, with the rectangle it reports; where it is gone, the engine goes on with the old numbers and captures
another output of the same adapter (`engine_captures`).

The adapters of one factory, and the outputs of one adapter, do not change.  A name is the text of its UTF-16.
-/

namespace Penflow

/-! ### What DXGI answers -/

/-- `DXGI_ERROR_NOT_FOUND` -/
def dxgiErrorNotFound : UInt32 := 0x887A0002

/-- `DXGI_OUTPUT_DESC` -/
structure OutputDesc where
  device_name : String
  left : ℤ
  top : ℤ
  right : ℤ
  bottom : ℤ
  rotation : UInt32
  attached_to_desktop : Bool
  deriving DecidableEq, Repr

/-- `DXGI_ADAPTER_DESC1` -/
structure AdapterDesc where
  description : String
  vendor_id : UInt32
  device_id : UInt32
  luid_high : Int32
  luid_low : UInt32
  flags : UInt32
  deriving DecidableEq, Repr

/-- `IDXGIOutput`, with the answer of its `GetDesc`. -/
structure DxgiOutput where
  desc : Except UInt32 OutputDesc

/-- `IDXGIAdapter1`; behind the last of its outputs, `EnumOutputs` answers with an error code. -/
structure DxgiAdapter where
  desc : Except UInt32 AdapterDesc
  outputs : List DxgiOutput
  last : UInt32

/-- `IDXGIFactory6` -/
structure DxgiFactory where
  adapters : List DxgiAdapter
  last : UInt32

/-- Why the engine does not start. -/
inductive StartFault where
  /-- the code of a Windows call -/
  | win32 (code : UInt32)
  | adapterMismatch (output_luid device_luid : ℤ)
  | adapterHasNoOutputs (name : String) (luid : ℤ)
  | notInitialized
  | panic
  deriving DecidableEq, Repr

/-- `((HighPart as i64) << 32) | (LowPart as i64)` -/
def AdapterDesc.luid (d : AdapterDesc) : ℤ := d.luid_high.toInt * 4294967296 + d.luid_low.toNat

/-- `?` on a Windows call. -/
def win32 {α : Type} : Except UInt32 α → Except StartFault α
  | .ok a => .ok a
  | .error code => .error (.win32 code)

/-- Return the fault, unless `c`. -/
def ensure (c : Prop) [Decidable c] (fault : StartFault) : Except StartFault Unit := if c then .ok () else .error fault

/-! ### The list of monitors -/

structure MonitorInfo where
  adapter_index : ℕ
  adapter_luid : ℤ
  adapter_name : String
  adapter_vendor_id : UInt32
  adapter_device_id : UInt32
  adapter_is_software : Bool
  output_index_within_adapter : ℕ
  device_name : String
  width : ℕ
  height : ℕ
  /-- left, top, right and bottom -/
  desktop_coords : ℤ × ℤ × ℤ × ℤ
  rotation : UInt32
  attached_to_desktop : Bool
  looks_virtual : Bool
  deriving DecidableEq, Repr

/-- The patterns of `looks_virtual`. -/
def virtualPatterns : List String :=
  ["virtual display", "virtual monitor", "iddcx", "iddsample", "iddsampledriver", "vdd", "mttvdd", "amyuni",
    "spacedesk", "superdisplay"]

def looksVirtual (name : String) : Bool :=
  virtualPatterns.any fun needle => decide (needle.toList <:+: name.toLower.toList)

section Enumerate

variable [BuildProfile]

/-- `(hi - lo).max(0) as u32` -/
def extent (hi lo : ℤ) : Except StartFault ℕ :=
  match subI32 hi lo with
  | .ok d => .ok (max d 0).toNat
  | .error _ => .error .panic

/-- The entry of an output. -/
def monitorInfo (ai : ℕ) (desc : AdapterDesc) (oi : ℕ) (odesc : OutputDesc) : Except StartFault MonitorInfo := do
  let width ← extent odesc.right odesc.left
  let height ← extent odesc.bottom odesc.top
  pure {
    adapter_index := ai
    adapter_luid := desc.luid
    adapter_name := desc.description
    adapter_vendor_id := desc.vendor_id
    adapter_device_id := desc.device_id
    adapter_is_software := desc.flags &&& 2 != 0
    output_index_within_adapter := oi
    device_name := odesc.device_name
    width := width
    height := height
    desktop_coords := (odesc.left, odesc.top, odesc.right, odesc.bottom)
    rotation := odesc.rotation
    attached_to_desktop := odesc.attached_to_desktop
    looks_virtual := looksVirtual desc.description || looksVirtual odesc.device_name }

/-- The inner loop of `enumerate`, from output `oi` on. -/
def enumerateOutputs (ai : ℕ) (desc : AdapterDesc) (last : UInt32) :
    ℕ → List DxgiOutput → Except StartFault (List MonitorInfo)
  | _, [] => if last = dxgiErrorNotFound then pure [] else .error (.win32 last)
  | oi, output :: outputs => do
    let odesc ← win32 output.desc
    let m ← monitorInfo ai desc oi odesc
    let rest ← enumerateOutputs ai desc last (oi + 1) outputs
    pure (m :: rest)

/-- The outer loop, from adapter `ai` on. -/
def enumerateAdapters (last : UInt32) : ℕ → List DxgiAdapter → Except StartFault (List MonitorInfo)
  | _, [] => if last = dxgiErrorNotFound then pure [] else .error (.win32 last)
  | ai, adapter :: adapters => do
    let desc ← win32 adapter.desc
    let mons ← enumerateOutputs ai desc adapter.last 0 adapter.outputs
    let rest ← enumerateAdapters last (ai + 1) adapters
    pure (mons ++ rest)

/-- `monitors::enumerate` -/
def enumerate (factory : DxgiFactory) : Except StartFault (List MonitorInfo) :=
  enumerateAdapters factory.last 0 factory.adapters

end Enumerate

namespace MonitorInfo

def openAdapter (m : MonitorInfo) (factory : DxgiFactory) : Except StartFault DxgiAdapter :=
  match factory.adapters[m.adapter_index]? with
  | none => .error (.win32 factory.last)
  | some adapter => do
    let desc ← win32 adapter.desc
    ensure (desc.luid = m.adapter_luid) (.adapterMismatch m.adapter_luid desc.luid)
    pure adapter

def openOutput (m : MonitorInfo) (adapter : DxgiAdapter) : Except StartFault DxgiOutput :=
  match adapter.outputs[m.output_index_within_adapter]? with
  | none => .error (.win32 adapter.last)
  | some output => .ok output

/-- The same adapter and name. -/
def sameAs (m n : MonitorInfo) : Bool := m.adapter_luid == n.adapter_luid && m.device_name == n.device_name

end MonitorInfo

/-! ### Reading the list -/

theorem except_bind_eq_ok {ε α β : Type} {x : Except ε α} {f : α → Except ε β} {b : β} :
    (x >>= f) = .ok b ↔ ∃ a, x = .ok a ∧ f a = .ok b := by
  cases x with
  | error e =>
      constructor
      · intro h
        cases h
      · rintro ⟨a, h, -⟩
        cases h
  | ok a =>
      constructor
      · intro h
        exact ⟨a, rfl, h⟩
      · rintro ⟨a', h, hf⟩
        cases h
        exact hf

theorem win32_eq_ok {α : Type} {x : Except UInt32 α} {a : α} : win32 x = .ok a ↔ x = .ok a := by
  cases x with
  | error code =>
      constructor
      · intro h
        cases h
      · intro h
        cases h
  | ok b =>
      constructor
      · intro h
        cases h
        rfl
      · intro h
        cases h
        rfl

theorem ensure_eq_ok {c : Prop} [Decidable c] {fault : StartFault} {u : Unit} : ensure c fault = .ok u ↔ c := by
  unfold ensure
  by_cases hc : c
  · simp [hc]
  · simp [hc]

/-- An adapter that opens for a monitor is the one with its number, and has its LUID. -/
theorem openAdapter_eq_ok {factory : DxgiFactory} {m : MonitorInfo} {adapter : DxgiAdapter} :
    m.openAdapter factory = .ok adapter ↔ factory.adapters[m.adapter_index]? = some adapter ∧
      ∃ desc, adapter.desc = .ok desc ∧ desc.luid = m.adapter_luid := by
  unfold MonitorInfo.openAdapter
  cases hadapter : factory.adapters[m.adapter_index]? with
  | none => simp
  | some a =>
      constructor
      · intro h
        obtain ⟨desc, hdesc, h⟩ := except_bind_eq_ok.1 h
        obtain ⟨_, hluid, h⟩ := except_bind_eq_ok.1 h
        cases h
        exact ⟨rfl, desc, win32_eq_ok.1 hdesc, ensure_eq_ok.1 hluid⟩
      · rintro ⟨ha, desc, hdesc, hluid⟩
        cases ha
        exact except_bind_eq_ok.2 ⟨desc, win32_eq_ok.2 hdesc, except_bind_eq_ok.2 ⟨(), ensure_eq_ok.2 hluid, rfl⟩⟩

theorem openOutput_eq_ok {adapter : DxgiAdapter} {m : MonitorInfo} {output : DxgiOutput} :
    m.openOutput adapter = .ok output ↔ adapter.outputs[m.output_index_within_adapter]? = some output := by
  unfold MonitorInfo.openOutput
  cases adapter.outputs[m.output_index_within_adapter]? with
  | none => simp
  | some o =>
      show Except.ok o = Except.ok output ↔ _
      rw [Except.ok.injEq, Option.some.injEq]

theorem sameAs_iff {m n : MonitorInfo} :
    m.sameAs n = true ↔ m.adapter_luid = n.adapter_luid ∧ m.device_name = n.device_name := by
  rw [MonitorInfo.sameAs, Bool.and_eq_true, beq_iff_eq, beq_iff_eq]

/-- What is at some index of a list is its head or at an index of the rest. -/
theorem exists_getElem?_cons {α : Type*} {a : α} {l : List α} {P : ℕ → α → Prop} :
    (∃ i x, (a :: l)[i]? = some x ∧ P i x) ↔ P 0 a ∨ ∃ i x, l[i]? = some x ∧ P (i + 1) x := by
  constructor
  · rintro ⟨i, x, hi, hP⟩
    cases i with
    | zero =>
        cases hi
        exact .inl hP
    | succ i => exact .inr ⟨i, x, hi, hP⟩
  · rintro (hP | ⟨i, x, hi, hP⟩)
    · exact ⟨0, a, rfl, hP⟩
    · exact ⟨i + 1, x, hi, hP⟩

section List

variable [BuildProfile]

/-- `m` is the entry of output `oi` of the adapter with this description. -/
def Describes (m : MonitorInfo) (ai : ℕ) (desc : AdapterDesc) (oi : ℕ) (output : DxgiOutput) : Prop :=
  ∃ odesc, output.desc = .ok odesc ∧ monitorInfo ai desc oi odesc = .ok m

theorem mem_enumerateOutputs {ai : ℕ} {desc : AdapterDesc} {last : UInt32} {oi : ℕ} {outputs : List DxgiOutput}
    {mons : List MonitorInfo} (h : enumerateOutputs ai desc last oi outputs = .ok mons) {m : MonitorInfo} :
    m ∈ mons ↔ ∃ i output, outputs[i]? = some output ∧ Describes m ai desc (oi + i) output := by
  induction outputs generalizing oi mons with
  | nil =>
      rw [enumerateOutputs] at h
      split at h
      · cases h
        simp
      · cases h
  | cons output outputs ih =>
      rw [enumerateOutputs] at h
      obtain ⟨odesc, hdesc, h⟩ := except_bind_eq_ok.1 h
      obtain ⟨first, hfirst, h⟩ := except_bind_eq_ok.1 h
      obtain ⟨rest, hrest, h⟩ := except_bind_eq_ok.1 h
      cases h
      rw [List.mem_cons, ih hrest, exists_getElem?_cons (P := fun i o => Describes m ai desc (oi + i) o)]
      have hhead : m = first ↔ Describes m ai desc (oi + 0) output := by
        constructor
        · rintro rfl
          exact ⟨odesc, win32_eq_ok.1 hdesc, hfirst⟩
        · rintro ⟨odesc', hdesc', hm⟩
          rw [win32_eq_ok, hdesc'] at hdesc
          cases hdesc
          rw [Nat.add_zero, hfirst] at hm
          cases hm
          rfl
      rw [hhead]
      simp only [Nat.add_assoc, Nat.add_comm 1]

/-- `m` is the entry of an output of this adapter, the one with number `ai`. -/
def Belongs (m : MonitorInfo) (ai : ℕ) (adapter : DxgiAdapter) : Prop :=
  ∃ desc oi output, adapter.desc = .ok desc ∧ adapter.outputs[oi]? = some output ∧ Describes m ai desc oi output

theorem mem_enumerateAdapters {last : UInt32} {ai : ℕ} {adapters : List DxgiAdapter} {mons : List MonitorInfo}
    (h : enumerateAdapters last ai adapters = .ok mons) {m : MonitorInfo} :
    m ∈ mons ↔ ∃ i adapter, adapters[i]? = some adapter ∧ Belongs m (ai + i) adapter := by
  induction adapters generalizing ai mons with
  | nil =>
      rw [enumerateAdapters] at h
      split at h
      · cases h
        simp
      · cases h
  | cons adapter adapters ih =>
      rw [enumerateAdapters] at h
      obtain ⟨desc, hdesc, h⟩ := except_bind_eq_ok.1 h
      obtain ⟨first, hfirst, h⟩ := except_bind_eq_ok.1 h
      obtain ⟨rest, hrest, h⟩ := except_bind_eq_ok.1 h
      cases h
      rw [List.mem_append, ih hrest, mem_enumerateOutputs hfirst,
        exists_getElem?_cons (P := fun i a => Belongs m (ai + i) a)]
      have hhead : (∃ oi output, adapter.outputs[oi]? = some output ∧ Describes m ai desc (0 + oi) output) ↔
          Belongs m (ai + 0) adapter := by
        constructor
        · rintro ⟨oi, output, hoi, hm⟩
          rw [Nat.zero_add] at hm
          exact ⟨desc, oi, output, win32_eq_ok.1 hdesc, hoi, hm⟩
        · rintro ⟨d, oi, output, hd, hoi, hm⟩
          rw [win32_eq_ok, hd] at hdesc
          cases hdesc
          refine ⟨oi, output, hoi, ?_⟩
          rw [Nat.zero_add]
          exact hm
      rw [hhead]
      simp only [Nat.add_assoc, Nat.add_comm 1]

/-- What the list is about: every output of every adapter, and nothing else. -/
theorem mem_enumerate {factory : DxgiFactory} {mons : List MonitorInfo} (h : enumerate factory = .ok mons)
    {m : MonitorInfo} :
    m ∈ mons ↔ ∃ adapter desc output, factory.adapters[m.adapter_index]? = some adapter ∧
      adapter.desc = .ok desc ∧ adapter.outputs[m.output_index_within_adapter]? = some output ∧
      Describes m m.adapter_index desc m.output_index_within_adapter output := by
  have hindices : ∀ {ai oi : ℕ} {desc : AdapterDesc} {output : DxgiOutput}, Describes m ai desc oi output →
      m.adapter_index = ai ∧ m.output_index_within_adapter = oi := by
    rintro ai oi desc output ⟨odesc, -, hm⟩
    rw [monitorInfo] at hm
    obtain ⟨width, -, hm⟩ := except_bind_eq_ok.1 hm
    obtain ⟨height, -, hm⟩ := except_bind_eq_ok.1 hm
    cases hm
    exact ⟨rfl, rfl⟩
  rw [enumerate] at h
  rw [mem_enumerateAdapters h]
  constructor
  · rintro ⟨i, adapter, hi, desc, oi, output, hdesc, hoi, hm⟩
    rw [Nat.zero_add] at hm
    obtain ⟨hai, hoi'⟩ := hindices hm
    rw [hai, hoi']
    exact ⟨adapter, desc, output, hi, hdesc, hoi, hm⟩
  · rintro ⟨adapter, desc, output, hi, hdesc, hoi, hm⟩
    refine ⟨_, adapter, hi, desc, _, output, hdesc, hoi, ?_⟩
    rw [Nat.zero_add]
    exact hm

/-- The entry says of its output what its description does. -/
structure MonitorInfo.Of (m : MonitorInfo) (desc : AdapterDesc) (odesc : OutputDesc) : Prop where
  luid : m.adapter_luid = desc.luid
  software : m.adapter_is_software = (desc.flags &&& 2 != 0)
  name : m.device_name = odesc.device_name
  coords : m.desktop_coords = (odesc.left, odesc.top, odesc.right, odesc.bottom)
  size : extent odesc.right odesc.left = .ok m.width ∧ extent odesc.bottom odesc.top = .ok m.height
  rotation : m.rotation = odesc.rotation
  attached : m.attached_to_desktop = odesc.attached_to_desktop

theorem of_monitorInfo {ai oi : ℕ} {desc : AdapterDesc} {odesc : OutputDesc} {m : MonitorInfo}
    (h : monitorInfo ai desc oi odesc = .ok m) : m.Of desc odesc := by
  rw [monitorInfo] at h
  obtain ⟨width, hwidth, h⟩ := except_bind_eq_ok.1 h
  obtain ⟨height, hheight, h⟩ := except_bind_eq_ok.1 h
  cases h
  exact ⟨rfl, rfl, rfl, rfl, ⟨hwidth, hheight⟩, rfl, rfl⟩

/-- **A listed monitor opens as listed.** -/
theorem open_enumerated {factory : DxgiFactory} {mons : List MonitorInfo} (h : enumerate factory = .ok mons)
    {m : MonitorInfo} (hm : m ∈ mons) :
    ∃ adapter desc output odesc, m.openAdapter factory = .ok adapter ∧ adapter.desc = .ok desc ∧
      m.openOutput adapter = .ok output ∧ output.desc = .ok odesc ∧ m.Of desc odesc := by
  obtain ⟨adapter, desc, output, hadapter, hdesc, houtput, odesc, hodesc, hinfo⟩ := (mem_enumerate h).1 hm
  have hof := of_monitorInfo hinfo
  refine ⟨adapter, desc, output, odesc, ?_, hdesc, ?_, hodesc, hof⟩
  · exact openAdapter_eq_ok.2 ⟨hadapter, desc, hdesc, hof.luid.symm⟩
  · exact openOutput_eq_ok.2 houtput

/-- A list that is returned has an entry for every output. -/
theorem exists_describes_outputs {ai : ℕ} {desc : AdapterDesc} {last : UInt32} {oi : ℕ} {outputs : List DxgiOutput}
    {mons : List MonitorInfo} (h : enumerateOutputs ai desc last oi outputs = .ok mons) {i : ℕ} {output : DxgiOutput}
    (hi : outputs[i]? = some output) : ∃ m, Describes m ai desc (oi + i) output := by
  induction outputs generalizing oi i mons with
  | nil => cases hi
  | cons first outputs ih =>
      rw [enumerateOutputs] at h
      obtain ⟨odesc, hdesc, h⟩ := except_bind_eq_ok.1 h
      obtain ⟨m, hm, h⟩ := except_bind_eq_ok.1 h
      obtain ⟨rest, hrest, -⟩ := except_bind_eq_ok.1 h
      cases i with
      | zero =>
          cases hi
          exact ⟨m, odesc, win32_eq_ok.1 hdesc, hm⟩
      | succ i =>
          obtain ⟨n, hn⟩ := ih hrest hi
          refine ⟨n, ?_⟩
          rw [Nat.add_right_comm] at hn
          exact hn

theorem exists_describes_adapters {last : UInt32} {ai : ℕ} {adapters : List DxgiAdapter} {mons : List MonitorInfo}
    (h : enumerateAdapters last ai adapters = .ok mons) {i oi : ℕ} {adapter : DxgiAdapter} {output : DxgiOutput}
    (hi : adapters[i]? = some adapter) (hoi : adapter.outputs[oi]? = some output) :
    ∃ m desc, adapter.desc = .ok desc ∧ Describes m (ai + i) desc oi output := by
  induction adapters generalizing ai i mons with
  | nil => cases hi
  | cons first adapters ih =>
      rw [enumerateAdapters] at h
      obtain ⟨desc, hdesc, h⟩ := except_bind_eq_ok.1 h
      obtain ⟨mons', hmons, h⟩ := except_bind_eq_ok.1 h
      obtain ⟨rest, hrest, -⟩ := except_bind_eq_ok.1 h
      cases i with
      | zero =>
          cases hi
          obtain ⟨m, hm⟩ := exists_describes_outputs hmons hoi
          rw [Nat.zero_add] at hm
          exact ⟨m, desc, win32_eq_ok.1 hdesc, hm⟩
      | succ i =>
          obtain ⟨m, d, hd, hm⟩ := ih hrest hi
          refine ⟨m, d, hd, ?_⟩
          rw [Nat.add_right_comm] at hm
          exact hm

/-- What is opened for a monitor was listed under the adapter of the monitor. -/
theorem opened_listed {factory : DxgiFactory} {mons : List MonitorInfo} (h : enumerate factory = .ok mons)
    {m : MonitorInfo} {adapter : DxgiAdapter} {output : DxgiOutput} (hadapter : m.openAdapter factory = .ok adapter)
    (houtput : m.openOutput adapter = .ok output) :
    ∃ n ∈ mons, n.adapter_luid = m.adapter_luid ∧ ∃ desc odesc, adapter.desc = .ok desc ∧ output.desc = .ok odesc ∧
      n.Of desc odesc := by
  obtain ⟨hai, desc, hdesc, hluid⟩ := openAdapter_eq_ok.1 hadapter
  have hoi := openOutput_eq_ok.1 houtput
  obtain ⟨n, desc', hdesc', odesc, hodesc, hinfo⟩ := exists_describes_adapters h hai hoi
  rw [hdesc] at hdesc'
  cases hdesc'
  have hof := of_monitorInfo hinfo
  refine ⟨n, ?_, hof.luid.trans hluid, desc, odesc, hdesc, hodesc, hof⟩
  rw [enumerate] at h
  exact (mem_enumerateAdapters h).2 ⟨_, adapter, hai, desc, _, output, hdesc, hoi, odesc, hodesc, hinfo⟩

end List

/-! ### The engine -/

/-- What the other calls of `EngineBuilder::start` answer. -/
structure StartAnswers where
  /-- `create_dxgi_factory` -/
  factory : Except UInt32 DxgiFactory
  /-- `D3D11CreateDevice` and what comes with it -/
  device : Except StartFault Unit
  /-- `create_duplication` -/
  duplication : Except UInt32 Unit
  /-- the converter, the encoder session and the pipeline -/
  rest : Except StartFault Unit

/-- An engine that runs: its monitor, and the adapter and the output it captures. -/
structure Engine where
  monitor : MonitorInfo
  adapter : DxgiAdapter
  output : DxgiOutput

section Start

variable [BuildProfile]

/-- `DxgiCapturer::new`: the output it duplicates. -/
def newCapturer (adapter : DxgiAdapter) (adapter_luid : ℤ) (monitor : MonitorInfo)
    (duplication : Except UInt32 Unit) : Except StartFault DxgiOutput := do
  ensure (adapter_luid = monitor.adapter_luid) (.adapterMismatch monitor.adapter_luid adapter_luid)
  let output ← monitor.openOutput adapter
  win32 duplication
  pure output

/-- `EngineBuilder::start` for the monitor the builder was made with. -/
def startEngine (wanted : MonitorInfo) (a : StartAnswers) : Except StartFault Engine := do
  let factory ← win32 a.factory
  let mons ← enumerate factory
  let monitor := (mons.find? fun m => m.sameAs wanted).getD wanted
  let adapter ← monitor.openAdapter factory
  -- `D3d11Context::create_on_adapter`
  let desc ← win32 adapter.desc
  a.device
  ensure (monitor.width ≠ 0 ∧ monitor.height ≠ 0)
    (.adapterHasNoOutputs monitor.adapter_name monitor.adapter_luid)
  let output ← newCapturer adapter desc.luid monitor a.duplication
  a.rest
  pure ⟨monitor, adapter, output⟩

/-- The factory lists an output of this adapter and name. -/
def DxgiFactory.Lists (factory : DxgiFactory) (m : MonitorInfo) : Prop :=
  ∃ mons, enumerate factory = .ok mons ∧ ∃ n ∈ mons, n.sameAs m = true

/-- The steps of a start. -/
theorem startEngine_eq_ok {wanted : MonitorInfo} {a : StartAnswers} {e : Engine} (h : startEngine wanted a = .ok e) :
    ∃ factory mons, a.factory = .ok factory ∧ enumerate factory = .ok mons ∧
      e.monitor = (mons.find? fun m => m.sameAs wanted).getD wanted ∧
      e.monitor.openAdapter factory = .ok e.adapter ∧ e.monitor.openOutput e.adapter = .ok e.output ∧
      0 < e.monitor.width ∧ 0 < e.monitor.height := by
  obtain ⟨factory, hfactory, h⟩ := except_bind_eq_ok.1 h
  obtain ⟨mons, hmons, h⟩ := except_bind_eq_ok.1 h
  obtain ⟨adapter, hadapter, h⟩ := except_bind_eq_ok.1 h
  obtain ⟨desc, -, h⟩ := except_bind_eq_ok.1 h
  obtain ⟨-, -, h⟩ := except_bind_eq_ok.1 h
  obtain ⟨_, hsize, h⟩ := except_bind_eq_ok.1 h
  obtain ⟨output, houtput, h⟩ := except_bind_eq_ok.1 h
  obtain ⟨-, -, h⟩ := except_bind_eq_ok.1 h
  cases h
  obtain ⟨-, -, houtput⟩ := except_bind_eq_ok.1 houtput
  obtain ⟨opened, hopened, houtput⟩ := except_bind_eq_ok.1 houtput
  obtain ⟨-, -, houtput⟩ := except_bind_eq_ok.1 houtput
  cases houtput
  obtain ⟨hwidth, hheight⟩ := ensure_eq_ok.1 hsize
  exact ⟨factory, mons, win32_eq_ok.1 hfactory, hmons, rfl, hadapter, hopened, Nat.pos_of_ne_zero hwidth,
    Nat.pos_of_ne_zero hheight⟩

/-- **What an engine captures.**  An engine that starts captures an output of the adapter of its monitor.  Where the
monitor is still listed, that is the output of its name, and the engine's monitor has the place, the size and the
rotation that this output reports; where it is not, the engine keeps the old entry, and the output has another name. -/
theorem engine_captures {wanted : MonitorInfo} {a : StartAnswers} {e : Engine} (h : startEngine wanted a = .ok e) :
    ∃ factory desc odesc, a.factory = .ok factory ∧ e.adapter.desc = .ok desc ∧ e.output.desc = .ok odesc ∧
      desc.luid = wanted.adapter_luid ∧ 0 < e.monitor.width ∧ 0 < e.monitor.height ∧
      (factory.Lists wanted → odesc.device_name = wanted.device_name ∧ e.monitor.Of desc odesc) ∧
      (¬ factory.Lists wanted → odesc.device_name ≠ wanted.device_name ∧ e.monitor = wanted) := by
  obtain ⟨factory, mons, hfactory, hmons, hmonitor, hadapter, houtput, hwidth, hheight⟩ := startEngine_eq_ok h
  obtain ⟨hai, desc, hdesc, hluid⟩ := openAdapter_eq_ok.1 hadapter
  cases hfind : mons.find? fun m : MonitorInfo => m.sameAs wanted with
  | some m =>
      have hm : e.monitor = m := by
        rw [hmonitor, hfind]
        rfl
      have hsame : m.adapter_luid = wanted.adapter_luid ∧ m.device_name = wanted.device_name :=
        sameAs_iff.1 (List.find?_some (p := fun m : MonitorInfo => m.sameAs wanted) hfind)
      have hmem := List.mem_of_find?_eq_some hfind
      rw [hm] at hadapter houtput hluid hwidth hheight
      obtain ⟨adapter, desc', output, odesc, hadapter', hdesc', houtput', hodesc, hof⟩ := open_enumerated hmons hmem
      rw [hadapter] at hadapter'
      cases hadapter'
      rw [houtput] at houtput'
      cases houtput'
      rw [hdesc] at hdesc'
      cases hdesc'
      rw [hm]
      refine ⟨factory, desc, odesc, hfactory, hdesc, hodesc, hluid.trans hsame.1, hwidth, hheight, ?_, ?_⟩
      · intro _
        exact ⟨hof.name.symm.trans hsame.2, hof⟩
      · intro hgone
        exact absurd ⟨mons, hmons, m, hmem, sameAs_iff.2 hsame⟩ hgone
  | none =>
      have hm : e.monitor = wanted := by
        rw [hmonitor, hfind]
        rfl
      rw [hm] at hadapter houtput hluid hwidth hheight
      obtain ⟨n, hn, hnluid, desc', odesc, hdesc', hodesc, hof⟩ := opened_listed hmons hadapter houtput
      rw [hdesc] at hdesc'
      cases hdesc'
      have hnone := List.find?_eq_none.1 hfind
      rw [hm]
      refine ⟨factory, desc, odesc, hfactory, hdesc, hodesc, hluid, hwidth, hheight, ?_, ?_⟩
      · rintro ⟨mons', hmons', x, hx, hsame⟩
        rw [hmons] at hmons'
        cases hmons'
        exact absurd hsame (hnone x hx)
      · intro _
        refine ⟨?_, rfl⟩
        intro hname
        exact absurd (sameAs_iff.2 ⟨hnluid, hof.name.trans hname⟩) (hnone n hn)

end Start

end Penflow
