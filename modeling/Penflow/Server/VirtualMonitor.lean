import Mathlib
import Penflow.Capture.Monitors
import Penflow.Lib.LastSome
import Penflow.Server.Vdd

/-!
# The wait for the virtual monitor

After the virtual display driver is enabled, a session polls DXGI until a monitor shows up that looks virtual or was not
attached before.  Each turn of the loop carries what it reads off the clock and what Windows answers.  The wait returns
the first such monitor; behind its timeout it reports the last error of DXGI or what it saw (`Wait.wait_ends`).
-/

namespace Penflow

/-! ### A list of the monitors -/

/-- Why there is no list. -/
inductive DxgiFault where
  | createDxgiFactory (code : UInt32)
  | enumerate (e : StartFault)
  | panic
  deriving DecidableEq, Repr

def monitorKey (m : MonitorInfo) : String := toString m.adapter_luid ++ ":" ++ m.device_name

/-- The text that names a monitor in the report of a timeout. -/
def monitorLabel (m : MonitorInfo) : String :=
  s!"{m.device_name} on {m.adapter_name} ({m.width}x{m.height}, attached={m.attached_to_desktop})"

/-- The output shows a desktop, and its adapter is hardware. -/
def MonitorInfo.usable (m : MonitorInfo) : Bool := m.attached_to_desktop && !m.adapter_is_software

/-- A separator tells where the first of two texts ends. -/
theorem append_cons_inj {α : Type*} [DecidableEq α] {c : α} {xs ys : List α} (hx : c ∉ xs) (hy : c ∉ ys)
    {us vs : List α} (h : xs ++ c :: us = ys ++ c :: vs) : xs = ys ∧ us = vs := by
  have hxs : (xs ++ c :: us).idxOf c = xs.length := by
    rw [List.idxOf_append_of_notMem hx, List.idxOf_cons_self, Nat.add_zero]
  have hys : (ys ++ c :: vs).idxOf c = ys.length := by
    rw [List.idxOf_append_of_notMem hy, List.idxOf_cons_self, Nat.add_zero]
  have hlength : xs.length = ys.length := by rw [← hxs, h, hys]
  obtain ⟨hfront, hback⟩ := List.append_inj h hlength
  exact ⟨hfront, (List.cons.inj hback).2⟩

theorem colon_notMem_repr (z : ℤ) : ':' ∉ z.repr.toList := by
  have hnat : ∀ n : ℕ, ':' ∉ n.repr.toList := by
    intro n hmem
    rw [Nat.toList_repr] at hmem
    exact absurd (Nat.isDigit_of_mem_toDigits (by decide) (by decide) hmem) (by decide)
  rw [Int.repr_eq_if]
  split
  · exact hnat _
  · rw [String.toList_append, List.mem_append]
    rintro (hsign | hdigit)
    · exact absurd hsign (by decide)
    · exact hnat _ hdigit

/-- Two monitors have one key just when they have one adapter and one name. -/
theorem monitorKey_inj {m n : MonitorInfo} : monitorKey m = monitorKey n ↔ m.sameAs n = true := by
  rw [sameAs_iff]
  constructor
  · intro h
    have hlist : ∀ k : MonitorInfo,
        (monitorKey k).toList = k.adapter_luid.repr.toList ++ ':' :: k.device_name.toList := by
      intro k
      rw [monitorKey, Int.toString_eq_repr, String.toList_append, String.toList_append, List.append_assoc]
      rfl
    have hlists := congrArg String.toList h
    rw [hlist, hlist] at hlists
    obtain ⟨hluid, hname⟩ := append_cons_inj (colon_notMem_repr _) (colon_notMem_repr _) hlists
    exact ⟨Int.repr_inj.1 (String.toList_inj.1 hluid), String.toList_inj.1 hname⟩
  · rintro ⟨hluid, hname⟩
    rw [monitorKey, monitorKey, hluid, hname]

section Polls

variable [BuildProfile]

/-- `create_dxgi_factory` and `enumerate` -/
def listMonitors : Except UInt32 DxgiFactory → Except DxgiFault (List MonitorInfo)
  | .error code => .error (.createDxgiFactory code)
  | .ok factory =>
    match enumerate factory with
    | .ok mons => .ok mons
    | .error .panic => .error .panic
    | .error e => .error (.enumerate e)

def snapshotAttachedMonitorKeys (factory : Except UInt32 DxgiFactory) : Except DxgiFault (List String) :=
  match listMonitors factory with
  | .ok mons => .ok ((mons.filter MonitorInfo.usable).map monitorKey)
  | .error e => .error e

theorem snapshot_eq_ok {factory : Except UInt32 DxgiFactory} {keys : List String} :
    snapshotAttachedMonitorKeys factory = .ok keys ↔
      ∃ mons, listMonitors factory = .ok mons ∧ (mons.filter MonitorInfo.usable).map monitorKey = keys := by
  rw [snapshotAttachedMonitorKeys]
  cases listMonitors factory with
  | ok mons => simp
  | error e => simp

/-! ### The wait for the virtual monitor -/

/-- An entry of the timeline, with the milliseconds since the wait began. -/
inductive TimelineEntry where
  | extendRequested (elapsed_ms : ℕ)
  | extendFailed (elapsed_ms : ℕ) (code : Int32)
  | status (elapsed_ms : ℕ) (status problem : UInt32)
  | statusFailed (elapsed_ms : ℕ) (e : VddError)
  deriving DecidableEq, Repr

/-- Why a wait ends without a monitor. -/
inductive WaitFault where
  | dxgi (e : DxgiFault)
  | enumerationTimeout (timeout : ℕ) (monitors_seen : List String) (status_timeline : List TimelineEntry)
  | panic
  deriving DecidableEq, Repr

/-- The readings of the clock around one call to Windows: for the test whether a second is over, for the entry of the
timeline, and behind the call, which may be slow. -/
structure Readings where
  tested : ℕ
  stamped : ℕ
  kept : ℕ
  tested_le : tested ≤ stamped
  stamped_le : stamped ≤ kept

/-- What a turn of the wait reads off the clock, in nanoseconds since the wait began, and what Windows answers: the
code of `SetDisplayConfig`, the factory and the status of the device. -/
structure WaitTurn where
  now : ℕ
  topology : Readings
  display_config : Int32
  factory : Except UInt32 DxgiFactory
  status : Readings
  devnode : DevnodeAnswer

/-- What a wait meets: the reading that `last_status_t` begins with, and the turns. -/
structure Polls where
  begun : ℕ
  turns : List WaitTurn

/-- The arguments of `wait_for_virtual_monitor`. -/
structure Wait where
  timeout : ℕ
  instance_id : Option String
  baseline_attached_keys : Option (List String)

/-- The variables of its loop. -/
structure WaitState where
  all_seen : List String
  status_timeline : List TimelineEntry
  last_dxgi_err : Option DxgiFault
  last_status_t : ℕ
  last_topology_t : Option ℕ

def nsPerSecond : ℕ := 1000000000

def nsPerMilli : ℕ := 1000000

namespace Wait

/-- What `extend_desktop_to_available_displays` comes to. -/
def extendEntry (t : WaitTurn) : TimelineEntry :=
  if t.display_config = 0 then .extendRequested (t.topology.stamped / nsPerMilli)
  else .extendFailed (t.topology.stamped / nsPerMilli) t.display_config

/-- The desktop is asked for once a second. -/
def extendDesktop (w : Wait) (t : WaitTurn) (s : WaitState) : WaitState :=
  if w.baseline_attached_keys.isSome && s.last_topology_t.all fun last => nsPerSecond ≤ t.topology.tested - last then
    { s with
      status_timeline := s.status_timeline ++ [extendEntry t]
      last_topology_t := some t.topology.kept }
  else s

def see (mons : List MonitorInfo) (s : WaitState) : WaitState :=
  { s with
    all_seen := mons.foldl
      (fun seen m => if monitorLabel m ∈ seen then seen else seen ++ [monitorLabel m]) s.all_seen }

/-- What `snapshot_devnode_status` comes to. -/
def statusEntry (id : String) (t : WaitTurn) : TimelineEntry :=
  match snapshotDevnodeStatus id t.devnode with
  | .ok (status, problem) => .status (t.status.stamped / nsPerMilli) status problem
  | .error e => .statusFailed (t.status.stamped / nsPerMilli) e

/-- The status is sampled once a second. -/
def sampleStatus (w : Wait) (t : WaitTurn) (s : WaitState) : WaitState :=
  match w.instance_id with
  | none => s
  | some id =>
    if nsPerSecond ≤ t.status.tested - s.last_status_t then
      { s with
        status_timeline := s.status_timeline ++ [statusEntry id t]
        last_status_t := t.status.kept }
    else s

/-- The monitor is one the wait is for. -/
def wants (w : Wait) (m : MonitorInfo) : Bool :=
  m.usable && (m.looks_virtual || w.baseline_attached_keys.any fun keys => !keys.contains (monitorKey m))

/-- What the turn returns from the wait. -/
def returns (w : Wait) (t : WaitTurn) : Option (Except WaitFault MonitorInfo) :=
  match listMonitors t.factory with
  | .ok mons => (mons.find? w.wants).map .ok
  | .error .panic => some (.error .panic)
  | .error _ => none

/-- A turn that does not return. -/
def turn (w : Wait) (s : WaitState) (t : WaitTurn) : WaitState :=
  let s := w.extendDesktop t s
  match listMonitors t.factory with
  | .ok mons => w.sampleStatus t (see mons s)
  | .error e => w.sampleStatus t { s with last_dxgi_err := some e }

/-- The error behind the loop. -/
def fault (w : Wait) (s : WaitState) : WaitFault :=
  match s.last_dxgi_err with
  | some e => .dxgi e
  | none => .enumerationTimeout w.timeout s.all_seen s.status_timeline

/-- The loop: nothing, as long as it goes on. -/
def run (w : Wait) : WaitState → List WaitTurn → Option (Except WaitFault MonitorInfo)
  | _, [] => none
  | s, t :: ts =>
    if t.now < w.timeout then
      match w.returns t with
      | some r => some r
      | none => w.run (w.turn s t) ts
    else some (.error (w.fault s))

end Wait

def waitForVirtualMonitor (w : Wait) (p : Polls) : Option (Except WaitFault MonitorInfo) :=
  w.run ⟨[], [], none, p.begun, none⟩ p.turns

/-! ### How the wait ends -/

omit [BuildProfile] in
/-- A place in a list is its head or a place behind it. -/
theorem exists_split_cons {α : Type*} {t : α} {ts : List α} {P : List α → α → Prop} :
    (∃ pre u post, t :: ts = pre ++ u :: post ∧ P pre u) ↔
      P [] t ∨ ∃ pre u post, ts = pre ++ u :: post ∧ P (t :: pre) u := by
  constructor
  · rintro ⟨pre, u, post, hts, hP⟩
    cases pre with
    | nil =>
        obtain ⟨rfl, rfl⟩ := List.cons.inj hts
        exact .inl hP
    | cons v pre =>
        obtain ⟨rfl, rfl⟩ := List.cons.inj hts
        exact .inr ⟨pre, u, post, rfl, hP⟩
  · rintro (hP | ⟨pre, u, post, rfl, hP⟩)
    · exact ⟨[], t, ts, rfl, hP⟩
    · exact ⟨t :: pre, u, post, rfl, hP⟩

namespace Wait

variable {w : Wait} {s : WaitState} {t : WaitTurn} {ts : List WaitTurn} {m : MonitorInfo}

/-- The wait ends with the first turn that returns, or with the first one behind the timeout. -/
theorem run_eq_some {r : Except WaitFault MonitorInfo} :
    w.run s ts = some r ↔ ∃ pre t post, ts = pre ++ t :: post ∧
      (∀ u ∈ pre, u.now < w.timeout ∧ w.returns u = none) ∧
      (t.now < w.timeout ∧ w.returns t = some r ∨
        w.timeout ≤ t.now ∧ r = .error (w.fault (pre.foldl w.turn s))) := by
  induction ts generalizing s with
  | nil =>
      constructor
      · intro h
        cases h
      · rintro ⟨pre, t, post, hnil, -⟩
        exact absurd hnil.symm (List.append_ne_nil_of_right_ne_nil _ (List.cons_ne_nil _ _))
  | cons t ts ih =>
      rw [run, exists_split_cons]
      by_cases hnow : t.now < w.timeout
      · rw [if_pos hnow]
        cases hreturns : w.returns t with
        | some r' =>
            constructor
            · intro h
              exact .inl ⟨fun u hu => absurd hu List.not_mem_nil, .inl ⟨hnow, h⟩⟩
            · rintro (⟨-, ⟨-, hr⟩ | ⟨hlate, -⟩⟩ | ⟨pre, u, post, -, hpre, -⟩)
              · exact hr
              · omega
              · have hnone := (hpre t List.mem_cons_self).2
                rw [hreturns] at hnone
                cases hnone
        | none =>
            show w.run (w.turn s t) ts = some r ↔ _
            rw [ih]
            constructor
            · rintro ⟨pre, u, post, rfl, hpre, hend⟩
              exact .inr ⟨pre, u, post, rfl, List.forall_mem_cons.2 ⟨⟨hnow, hreturns⟩, hpre⟩, hend⟩
            · rintro (⟨-, ⟨-, hr⟩ | ⟨hlate, -⟩⟩ | ⟨pre, u, post, hts, hpre, hend⟩)
              · cases hr
              · omega
              · exact ⟨pre, u, post, hts, (List.forall_mem_cons.1 hpre).2, hend⟩
      · rw [if_neg hnow]
        constructor
        · intro h
          cases h
          exact .inl ⟨fun u hu => absurd hu List.not_mem_nil, .inr ⟨Nat.le_of_not_lt hnow, rfl⟩⟩
        · rintro (⟨-, ⟨hearly, -⟩ | ⟨-, rfl⟩⟩ | ⟨pre, u, post, -, hpre, -⟩)
          · exact absurd hearly hnow
          · rfl
          · exact absurd (hpre t List.mem_cons_self).1 hnow

/-- The wait goes on just as long as every turn comes in time and returns nothing. -/
theorem run_eq_none : w.run s ts = none ↔ ∀ t ∈ ts, t.now < w.timeout ∧ w.returns t = none := by
  induction ts generalizing s with
  | nil => exact iff_of_true rfl fun t ht => absurd ht List.not_mem_nil
  | cons t ts ih =>
      rw [run, List.forall_mem_cons]
      by_cases hnow : t.now < w.timeout
      · rw [if_pos hnow]
        cases hreturns : w.returns t with
        | some r => exact iff_of_false (Option.some_ne_none _) fun h => Option.some_ne_none _ h.1.2
        | none =>
            show w.run (w.turn s t) ts = none ↔ _
            rw [ih]
            exact (and_iff_right ⟨hnow, rfl⟩).symm
      · rw [if_neg hnow]
        exact iff_of_false (Option.some_ne_none _) fun h => hnow h.1.1

/-- What a turn returns. -/
theorem returns_eq_ok : w.returns t = some (.ok m) ↔
    ∃ mons, listMonitors t.factory = .ok mons ∧ mons.find? w.wants = some m := by
  rw [returns]
  cases listMonitors t.factory with
  | ok mons =>
      show (mons.find? w.wants).map Except.ok = some (.ok m) ↔ _
      rw [Option.map_eq_some_iff]
      constructor
      · rintro ⟨m', hm', hok⟩
        cases hok
        exact ⟨mons, rfl, hm'⟩
      · rintro ⟨mons', hmons, hm⟩
        cases hmons
        exact ⟨m, hm, rfl⟩
  | error e =>
      have hnone : ¬ ∃ mons : List MonitorInfo, Except.error e = Except.ok mons ∧ mons.find? w.wants = some m := by
        rintro ⟨_, h, -⟩
        cases h
      refine iff_of_false ?_ hnone
      intro h
      cases e with
      | _ => cases h

theorem returns_eq_none : w.returns t = none ↔
    (∃ mons, listMonitors t.factory = .ok mons ∧ ∀ m ∈ mons, w.wants m = false) ∨
      ∃ e, listMonitors t.factory = .error e ∧ e ≠ .panic := by
  rw [returns]
  cases listMonitors t.factory with
  | ok mons =>
      show (mons.find? w.wants).map Except.ok = none ↔ _
      rw [Option.map_eq_none_iff, List.find?_eq_none]
      constructor
      · intro h
        exact .inl ⟨mons, rfl, fun m hm => Bool.eq_false_iff.2 (h m hm)⟩
      · rintro (⟨mons', hmons, hwants⟩ | ⟨e, he, -⟩)
        · cases hmons
          exact fun m hm => Bool.eq_false_iff.1 (hwants m hm)
        · cases he
  | error e =>
      cases e with
      | panic =>
          constructor
          · intro h
            cases h
          · rintro (⟨_, h, -⟩ | ⟨e, he, hne⟩)
            · cases h
            · cases he
              exact absurd rfl hne
      | _ =>
          refine iff_of_true rfl (.inr ⟨_, rfl, ?_⟩)
          intro h
          cases h

omit [BuildProfile] in
theorem extendDesktop_rest : (w.extendDesktop t s).last_dxgi_err = s.last_dxgi_err ∧
    (w.extendDesktop t s).all_seen = s.all_seen := by
  rw [extendDesktop]
  split
  · exact ⟨rfl, rfl⟩
  · exact ⟨rfl, rfl⟩

omit [BuildProfile] in
theorem sampleStatus_rest : (w.sampleStatus t s).last_dxgi_err = s.last_dxgi_err ∧
    (w.sampleStatus t s).all_seen = s.all_seen := by
  rw [sampleStatus]
  split
  · exact ⟨rfl, rfl⟩
  · split
    · exact ⟨rfl, rfl⟩
    · exact ⟨rfl, rfl⟩

/-- The error of the turn, where DXGI gives no list. -/
def dxgiErr (t : WaitTurn) : Option DxgiFault :=
  match listMonitors t.factory with
  | .ok _ => none
  | .error e => some e

theorem turn_err : (w.turn s t).last_dxgi_err = (dxgiErr t).or s.last_dxgi_err := by
  rw [turn, dxgiErr]
  cases listMonitors t.factory with
  | ok mons => exact sampleStatus_rest.1.trans extendDesktop_rest.1
  | error e => exact sampleStatus_rest.1

/-- The loop keeps the last error. -/
theorem foldl_err : (ts.foldl w.turn s).last_dxgi_err = (ts.lastSome dxgiErr).or s.last_dxgi_err := by
  induction ts generalizing s with
  | nil => rfl
  | cons t ts ih => rw [List.foldl_cons, ih, turn_err, List.lastSome_cons, Option.or_assoc]

/-- DXGI lists a monitor of this text in the turn. -/
def Shows (t : WaitTurn) (label : String) : Prop :=
  ∃ mons, listMonitors t.factory = .ok mons ∧ ∃ m ∈ mons, monitorLabel m = label

omit [BuildProfile] in
theorem mem_see {mons : List MonitorInfo} {label : String} :
    label ∈ (see mons s).all_seen ↔ label ∈ s.all_seen ∨ ∃ m ∈ mons, monitorLabel m = label := by
  have hseen : ∀ seen : List String, label ∈ mons.foldl
      (fun seen m => if monitorLabel m ∈ seen then seen else seen ++ [monitorLabel m]) seen ↔
        label ∈ seen ∨ ∃ m ∈ mons, monitorLabel m = label := by
    induction mons with
    | nil => simp
    | cons m mons ih =>
        intro seen
        have hfirst : label ∈ (if monitorLabel m ∈ seen then seen else seen ++ [monitorLabel m]) ↔
            label ∈ seen ∨ monitorLabel m = label := by
          split
          case isTrue hold =>
            refine (or_iff_left_of_imp ?_).symm
            rintro rfl
            exact hold
          case isFalse => rw [List.mem_append, List.mem_singleton, eq_comm (a := label)]
        rw [List.foldl_cons, ih, hfirst, or_assoc]
        simp only [List.mem_cons, exists_eq_or_imp]
  exact hseen _

theorem mem_turn {label : String} : label ∈ (w.turn s t).all_seen ↔ label ∈ s.all_seen ∨ Shows t label := by
  rw [turn, Shows]
  cases listMonitors t.factory with
  | ok mons =>
      show label ∈ (w.sampleStatus t (see mons (w.extendDesktop t s))).all_seen ↔ _
      rw [sampleStatus_rest.2, mem_see, extendDesktop_rest.2]
      simp
  | error e =>
      show label ∈ (w.sampleStatus t { w.extendDesktop t s with last_dxgi_err := some e }).all_seen ↔ _
      rw [sampleStatus_rest.2]
      show label ∈ (w.extendDesktop t s).all_seen ↔ _
      rw [extendDesktop_rest.2]
      simp

/-- The report names what DXGI listed. -/
theorem mem_foldl {label : String} :
    label ∈ (ts.foldl w.turn s).all_seen ↔ label ∈ s.all_seen ∨ ∃ t ∈ ts, Shows t label := by
  induction ts generalizing s with
  | nil => simp
  | cons t ts ih =>
      rw [List.foldl_cons, ih, mem_turn, or_assoc]
      simp only [List.mem_cons, exists_eq_or_imp]

/-! The report of a timeout. -/

/-- The requests of the timeline for the desktop. -/
def requestedAt : TimelineEntry → Option ℕ
  | .extendRequested ms => some ms
  | .extendFailed ms _ => some ms
  | _ => none

/-- Its samples of the status. -/
def sampledAt : TimelineEntry → Option ℕ
  | .status ms _ _ => some ms
  | .statusFailed ms _ => some ms
  | _ => none

/-- A second lies between any two of these milliseconds, and none is behind `last`. -/
def Spaced (xs : List ℕ) (last : ℕ) : Prop :=
  xs.Pairwise (fun x y => x + 1000 ≤ y) ∧ ∀ x ∈ xs, x ≤ last / nsPerMilli

omit [BuildProfile] in
theorem Spaced.concat {xs : List ℕ} {last : ℕ} (h : Spaced xs last) (r : Readings)
    (hsecond : nsPerSecond ≤ r.tested - last) : Spaced (xs ++ [r.stamped / nsPerMilli]) r.kept := by
  have hover : last / nsPerMilli + 1000 ≤ r.stamped / nsPerMilli := by
    have htested := r.tested_le
    rw [nsPerMilli, nsPerSecond] at *
    omega
  have hkept : r.stamped / nsPerMilli ≤ r.kept / nsPerMilli := Nat.div_le_div_right r.stamped_le
  constructor
  · rw [List.pairwise_append]
    refine ⟨h.1, List.pairwise_singleton _ _, ?_⟩
    intro x hx y hy
    obtain rfl := List.mem_singleton.1 hy
    have hlast := h.2 x hx
    omega
  · intro x hx
    rcases List.mem_append.1 hx with hx | hx
    · have hlast := h.2 x hx
      omega
    · rwa [List.mem_singleton.1 hx]

/-- What the wait writes down: no monitor twice, and the desktop is asked for and the status sampled at most once a
second. -/
structure Kept (s : WaitState) : Prop where
  seen : s.all_seen.Nodup
  unrequested : s.last_topology_t = none → s.status_timeline.filterMap requestedAt = []
  requests : ∀ last, s.last_topology_t = some last → Spaced (s.status_timeline.filterMap requestedAt) last
  samples : Spaced (s.status_timeline.filterMap sampledAt) s.last_status_t

omit [BuildProfile] in
theorem extendEntry_stamps (t : WaitTurn) : requestedAt (extendEntry t) = some (t.topology.stamped / nsPerMilli) ∧
    sampledAt (extendEntry t) = none := by
  rw [extendEntry]
  split
  · exact ⟨rfl, rfl⟩
  · exact ⟨rfl, rfl⟩

omit [BuildProfile] in
theorem statusEntry_stamps (id : String) (t : WaitTurn) : requestedAt (statusEntry id t) = none ∧
    sampledAt (statusEntry id t) = some (t.status.stamped / nsPerMilli) := by
  rw [statusEntry]
  split
  · exact ⟨rfl, rfl⟩
  · exact ⟨rfl, rfl⟩

omit [BuildProfile] in
theorem extendDesktop_kept (t : WaitTurn) (h : Kept s) : Kept (w.extendDesktop t s) := by
  obtain ⟨hrequest, hsample⟩ := extendEntry_stamps t
  rw [extendDesktop]
  split
  case isFalse => exact h
  case isTrue hcond =>
    rw [Bool.and_eq_true] at hcond
    refine ⟨h.seen, ?_, ?_, ?_⟩
    · intro hnone
      cases hnone
    · intro last hlast
      cases hlast
      rw [List.filterMap_append, List.filterMap_cons_some hrequest, List.filterMap_nil]
      cases htopology : s.last_topology_t with
      | none =>
          rw [h.unrequested htopology]
          refine ⟨List.pairwise_singleton _ _, ?_⟩
          intro x hx
          rw [List.mem_singleton.1 hx]
          exact Nat.div_le_div_right t.topology.stamped_le
      | some last =>
          rw [htopology] at hcond
          exact (h.requests last htopology).concat t.topology (of_decide_eq_true hcond.2)
    · rw [List.filterMap_append, List.filterMap_cons_none hsample, List.filterMap_nil, List.append_nil]
      exact h.samples

omit [BuildProfile] in
theorem sampleStatus_kept (t : WaitTurn) (h : Kept s) : Kept (w.sampleStatus t s) := by
  rw [sampleStatus]
  split
  case h_1 => exact h
  case h_2 id _ =>
    obtain ⟨hrequest, hsample⟩ := statusEntry_stamps id t
    split
    case isFalse => exact h
    case isTrue hcond =>
      have hrequests : (s.status_timeline ++ [statusEntry id t]).filterMap requestedAt =
          s.status_timeline.filterMap requestedAt := by
        rw [List.filterMap_append, List.filterMap_cons_none hrequest, List.filterMap_nil, List.append_nil]
      refine ⟨h.seen, ?_, ?_, ?_⟩
      · intro hnone
        rw [hrequests]
        exact h.unrequested hnone
      · intro last hlast
        rw [hrequests]
        exact h.requests last hlast
      · rw [List.filterMap_append, List.filterMap_cons_some hsample, List.filterMap_nil]
        exact h.samples.concat t.status hcond

omit [BuildProfile] in
theorem see_kept {mons : List MonitorInfo} (h : Kept s) : Kept (see mons s) := by
  refine ⟨?_, h.unrequested, h.requests, h.samples⟩
  have hseen : ∀ seen : List String, seen.Nodup →
      (mons.foldl (fun seen m => if monitorLabel m ∈ seen then seen else seen ++ [monitorLabel m]) seen).Nodup := by
    induction mons with
    | nil => exact fun seen hnodup => hnodup
    | cons m mons ih =>
        intro seen hnodup
        rw [List.foldl_cons]
        apply ih
        split
        case isTrue => exact hnodup
        case isFalse hnew =>
          refine List.nodup_append.2 ⟨hnodup, List.nodup_singleton _, ?_⟩
          intro label hlabel other hother heq
          rw [heq, List.mem_singleton.1 hother] at hlabel
          exact hnew hlabel
  exact hseen _ h.seen

omit [BuildProfile] in
theorem start_kept (begun : ℕ) : Kept ⟨[], [], none, begun, none⟩ := by
  refine ⟨List.nodup_nil, fun _ => rfl, ?_, .nil, ?_⟩
  · intro last hlast
    cases hlast
  · intro x hx
    cases hx

theorem turn_kept (t : WaitTurn) (h : Kept s) : Kept (w.turn s t) := by
  have hextend := extendDesktop_kept (w := w) t h
  rw [turn]
  split
  · exact sampleStatus_kept t (see_kept hextend)
  · exact sampleStatus_kept t ⟨hextend.seen, hextend.unrequested, hextend.requests, hextend.samples⟩

theorem foldl_kept (h : Kept s) : Kept (ts.foldl w.turn s) := by
  induction ts generalizing s with
  | nil => exact h
  | cons t ts ih => exact ih (turn_kept t h)

/-- A turn in time shows no monitor the wait is for. -/
def Misses (w : Wait) (t : WaitTurn) : Prop :=
  t.now < w.timeout ∧ ∀ mons, listMonitors t.factory = .ok mons → ∀ m ∈ mons, w.wants m = false

theorem misses_of_returns (hnow : t.now < w.timeout) (h : w.returns t = none) : w.Misses t := by
  refine ⟨hnow, ?_⟩
  intro mons hmons
  rcases returns_eq_none.1 h with ⟨mons', hmons', hwants⟩ | ⟨e, he, -⟩
  · rw [hmons] at hmons'
    cases hmons'
    exact hwants
  · rw [hmons] at he
    cases he

theorem wait_eq_ok {p : Polls} (h : waitForVirtualMonitor w p = some (.ok m)) : ∃ pre t post mons,
    p.turns = pre ++ t :: post ∧ (∀ u ∈ pre, w.Misses u) ∧ t.now < w.timeout ∧
      listMonitors t.factory = .ok mons ∧ mons.find? w.wants = some m := by
  obtain ⟨pre, t, post, hts, hpre, ⟨hnow, hreturns⟩ | ⟨-, herror⟩⟩ := run_eq_some.1 h
  · obtain ⟨mons, hmons, hm⟩ := returns_eq_ok.1 hreturns
    exact ⟨pre, t, post, mons, hts, fun u hu => misses_of_returns (hpre u hu).1 (hpre u hu).2, hnow, hmons, hm⟩
  · cases herror

/-- What the wait says of its turns. -/
def Ends (w : Wait) (ts : List WaitTurn) : Option (Except WaitFault MonitorInfo) → Prop
  | none => ∀ t ∈ ts, w.Misses t
  | some (.ok m) => ∃ pre t post mons, ts = pre ++ t :: post ∧ (∀ u ∈ pre, w.Misses u) ∧ t.now < w.timeout ∧
      listMonitors t.factory = .ok mons ∧ mons.find? w.wants = some m
  | some (.error .panic) => ∃ t ∈ ts, listMonitors t.factory = .error .panic
  | some (.error (.dxgi e)) => ∃ pre t post, ts = pre ++ t :: post ∧ (∀ u ∈ pre, w.Misses u) ∧ w.timeout ≤ t.now ∧
      pre.lastSome dxgiErr = some e
  | some (.error (.enumerationTimeout timeout seen timeline)) => ∃ pre t post, ts = pre ++ t :: post ∧
      (∀ u ∈ pre, w.Misses u) ∧ w.timeout ≤ t.now ∧ timeout = w.timeout ∧ (∀ u ∈ pre, dxgiErr u = none) ∧
      seen.Nodup ∧ (∀ label, label ∈ seen ↔ ∃ u ∈ pre, Shows u label) ∧
      (timeline.filterMap requestedAt).Pairwise (fun x y => x + 1000 ≤ y) ∧
      (timeline.filterMap sampledAt).Pairwise fun x y => x + 1000 ≤ y

theorem returns_eq_error {fault : WaitFault} (h : w.returns t = some (.error fault)) :
    fault = .panic ∧ listMonitors t.factory = .error .panic := by
  rw [returns] at h
  split at h
  case h_1 mons hmons =>
    obtain ⟨m, -, hm⟩ := Option.map_eq_some_iff.1 h
    cases hm
  case h_2 hpanic =>
    cases h
    exact ⟨rfl, hpanic⟩
  case h_3 => cases h

omit [BuildProfile] in
theorem Kept.requests_apart (h : Kept s) :
    (s.status_timeline.filterMap requestedAt).Pairwise fun x y => x + 1000 ≤ y := by
  cases htopology : s.last_topology_t with
  | none =>
      rw [h.unrequested htopology]
      exact .nil
  | some last => exact (h.requests last htopology).1

/-- **How the wait ends.**  It goes on as long as every turn comes in time and shows no monitor it is for, and returns
the first such monitor of the first turn that shows one.  Behind the timeout it reports the last error of DXGI, also
where a list came after it; where there was none, it reports what DXGI listed, each text once, and a timeline in which
the desktop is asked for, and the status sampled, at most once a second. -/
theorem wait_ends (w : Wait) (p : Polls) : w.Ends p.turns (waitForVirtualMonitor w p) := by
  cases hrun : waitForVirtualMonitor w p with
  | none =>
      intro t ht
      obtain ⟨hnow, hreturns⟩ := run_eq_none.1 hrun t ht
      exact misses_of_returns hnow hreturns
  | some r =>
      cases r with
      | ok m => exact wait_eq_ok hrun
      | error e =>
          obtain ⟨pre, t, post, hts, hpre, ⟨-, hreturns⟩ | ⟨hlate, herror⟩⟩ := run_eq_some.1 hrun
          · obtain ⟨rfl, hpanic⟩ := returns_eq_error hreturns
            refine ⟨t, ?_, hpanic⟩
            rw [hts]
            exact List.mem_append_right _ List.mem_cons_self
          · have hmisses : ∀ u ∈ pre, w.Misses u := fun u hu => misses_of_returns (hpre u hu).1 (hpre u hu).2
            have hkept : Kept (pre.foldl w.turn ⟨[], [], none, p.begun, none⟩) := foldl_kept (start_kept p.begun)
            have herr : (pre.foldl w.turn ⟨[], [], none, p.begun, none⟩).last_dxgi_err = pre.lastSome dxgiErr := by
              rw [foldl_err]
              exact Option.or_none
            cases herror
            rw [fault]
            cases hlast : (pre.foldl w.turn ⟨[], [], none, p.begun, none⟩).last_dxgi_err with
            | some e => exact ⟨pre, t, post, hts, hmisses, hlate, herr.symm.trans hlast⟩
            | none =>
                refine ⟨pre, t, post, hts, hmisses, hlate, rfl, List.lastSome_eq_none.1 (herr.symm.trans hlast),
                  hkept.seen, ?_, hkept.requests_apart, hkept.samples.1⟩
                intro label
                rw [mem_foldl]
                exact or_iff_right List.not_mem_nil

end Wait

end Polls

end Penflow
