import Penflow.Transport.Adb

/-!
# The reverse rule on the device

The tablet reaches the PC through one rule, `localabstract:penflow` to a port, which every transport sets when it
is bound and removes when it is shut down or dropped.  A removal runs on a thread of its own, and its `shutdown`
gives it up after two seconds, or is given up itself: the removal goes on and comes to the daemon when it may.

A step is what the daemon does for one command, or a step of a transport; a `bind_with_adb` is awaited to its end,
and that its future is dropped part-way is not among them.  The service binds a transport when the one before is
dropped.  Then the rule leads to whoever listens, but for a removal that was given up and comes to the daemon late,
and if the service waited for those too there would be none (`led_of_turns`).  If no command fails, the rule is gone
when everything has come to rest (`rule_gone`).
-/

namespace Penflow

/-- How far the `adb reverse --remove` is that a `shutdown` waits for. -/
inductive Removal where
  | idle
  | running
  | ended
  deriving DecidableEq, Repr

/-- A transport that is held. -/
structure Tunnel where
  bound_port : ℕ
  transport : AdbTransport
  removal : Removal
  deriving Repr

/-- Where the blocking thread of `bind_with_adb` is. -/
inductive BindPlace where
  /-- at `adb reverse --remove` -/
  | clearing
  /-- at `adb reverse` -/
  | ruling
  deriving DecidableEq, Repr

/-- A `bind_with_adb` that has its listener. -/
structure PendingBind where
  bound_port : ℕ
  place : BindPlace
  deriving DecidableEq, Repr

structure AdbHost where
  /-- the port that `localabstract:penflow` leads to -/
  rule : Option ℕ
  bindings : List PendingBind
  tunnels : List Tunnel
  /-- the removals nobody waits for any more -/
  strays : ℕ
  deriving Repr

/-- What the daemon answers comes as `ok`. -/
inductive HostLabel where
  /-- `bind_with_adb` has started the daemon and bound its listener -/
  | bind (port : ℕ)
  | cleared (j : ℕ) (ok : Bool)
  | ruled (j : ℕ) (ok : Bool)
  | transport (i : ℕ) (l : AdbLabel)
  /-- the removal of a `shutdown` that waits for it -/
  | removal (i : ℕ) (ok : Bool)
  /-- a removal nobody waits for -/
  | stray (ok : Bool)
  /-- the last `Arc` of a transport goes -/
  | dropped (i : ℕ) (ok : Bool)

/-- What a step of a transport does to its removal, and the removals it leaves behind. -/
def Tunnel.step (u : Tunnel) (l : AdbLabel) : Tunnel × ℕ :=
  let transport := u.transport.step l
  match u.transport.removing, transport.removing with
  | false, true => (⟨u.bound_port, transport, .running⟩, 0)
  | true, false => (⟨u.bound_port, transport, .idle⟩, if u.removal = .running then 1 else 0)
  | _, _ => (⟨u.bound_port, transport, u.removal⟩, 0)

/-- The port of a transport that has its listener. -/
def Tunnel.port (u : Tunnel) : Option ℕ := if u.transport.listener then some u.bound_port else none

/-- No future of a call holds the transport. -/
def Tunnel.unused (u : Tunnel) : Bool := u.transport.listenerLine.isEmpty && u.transport.reverseLine.isEmpty

/-- A transport that is still to remove its rule. -/
def Tunnel.Answers (u : Tunnel) (port : ℕ) : Prop :=
  u.bound_port = port ∧ u.transport.reverse_active = true ∧ u.removal ≠ .ended

/-- A `shutdown` of the transport is past the lock of the listener. -/
def Tunnel.Closing (u : Tunnel) : Prop := u.transport.reverseLine ≠ [] ∨ u.removal ≠ .idle

namespace AdbHost

def start : AdbHost := ⟨none, [], [], 0⟩

/-- `adb reverse --remove` -/
def remove (s : AdbHost) (ok : Bool) : AdbHost := if ok then { s with rule := none } else s

def cleared (s : AdbHost) (j : ℕ) (ok : Bool) : AdbHost :=
  match s.bindings[j]? with
  | some ⟨port, .clearing⟩ => { s.remove ok with bindings := s.bindings.set j ⟨port, .ruling⟩ }
  | _ => s

/-- Where the command fails, `bind_with_adb` does, and there is no transport to drop. -/
def ruled (s : AdbHost) (j : ℕ) (ok : Bool) : AdbHost :=
  match s.bindings[j]? with
  | some ⟨port, .ruling⟩ =>
    if ok then
      { s with
        rule := some port
        bindings := s.bindings.eraseIdx j
        tunnels := s.tunnels ++ [⟨port, .bound, .idle⟩] }
    else { s with bindings := s.bindings.eraseIdx j }
  | _ => s

def transport (s : AdbHost) (i : ℕ) (l : AdbLabel) : AdbHost :=
  match s.tunnels[i]? with
  | none => s
  | some u => { s with tunnels := s.tunnels.set i (u.step l).1, strays := s.strays + (u.step l).2 }

def removal (s : AdbHost) (i : ℕ) (ok : Bool) : AdbHost :=
  match s.tunnels[i]? with
  | none => s
  | some u =>
    if u.removal = .running then
      { s.remove ok with tunnels := s.tunnels.set i { u with removal := .ended } }
    else s

def stray (s : AdbHost) (ok : Bool) : AdbHost :=
  if s.strays = 0 then s else { s.remove ok with strays := s.strays - 1 }

/-- `Drop` removes the rule if no `shutdown` got so far. -/
def dropped (s : AdbHost) (i : ℕ) (ok : Bool) : AdbHost :=
  match s.tunnels[i]? with
  | none => s
  | some u =>
    if u.unused then
      { s.remove (u.transport.reverse_active && ok) with
        tunnels := s.tunnels.eraseIdx i
        strays := s.strays + (if u.removal = .running then 1 else 0) }
    else s

def step (s : AdbHost) : HostLabel → AdbHost
  | .bind port => { s with bindings := s.bindings ++ [⟨port, .clearing⟩] }
  | .cleared j ok => s.cleared j ok
  | .ruled j ok => s.ruled j ok
  | .transport i l => s.transport i l
  | .removal i ok => s.removal i ok
  | .stray ok => s.stray ok
  | .dropped i ok => s.dropped i ok

/-! ### Where the rule leads -/

/-- The ports at which a transport listens. -/
def listening (s : AdbHost) : List ℕ := s.tunnels.filterMap Tunnel.port

/-- The rule leads to every listener. -/
def Led (s : AdbHost) : Prop := ∀ port ∈ s.listening, s.rule = some port

/-- The rule is removed while nobody listens, and set to the port of whoever does. -/
def Clear (s : AdbHost) : HostLabel → Prop
  | .bind _ => True
  | .cleared j ok => ok = true → ∀ port, s.bindings[j]? = some ⟨port, .clearing⟩ → s.listening = []
  | .ruled j ok => ok = true → ∀ port, s.bindings[j]? = some ⟨port, .ruling⟩ → ∀ other ∈ s.listening, other = port
  | .transport _ _ => True
  | .removal i ok => ok = true → ∀ u, s.tunnels[i]? = some u → u.removal = .running → s.listening = []
  | .stray ok => ok = true → s.strays ≠ 0 → s.listening = []
  | .dropped i ok => ok = true → ∀ u, s.tunnels[i]? = some u → u.unused = true →
      u.transport.reverse_active = true → (s.tunnels.eraseIdx i).filterMap Tunnel.port = []

variable {s : AdbHost}

theorem remove_tunnels (s : AdbHost) (ok : Bool) :
    (s.remove ok).tunnels = s.tunnels ∧ (s.remove ok).rule = if ok then none else s.rule := by
  cases ok with
  | true => exact ⟨rfl, rfl⟩
  | false => exact ⟨rfl, rfl⟩

/-- A rule that is gone leads to no listener. -/
theorem led_none {s : AdbHost} (h : s.rule = none) : s.Led ↔ s.listening = [] := by
  unfold Led
  rw [h, List.eq_nil_iff_forall_not_mem]
  simp

/-- What became of the rule and of the listeners. -/
theorem led_congr {s s' : AdbHost} (hrule : s'.rule = s.rule) (hports : s'.listening ⊆ s.listening) (h : s.Led) :
    s'.Led := by
  intro port hport
  rw [hrule]
  exact h port (hports hport)

/-- A transport gets no listener again. -/
theorem listener_step {t : AdbTransport} {l : AdbLabel} (h : (t.step l).listener = true) : t.listener = true := by
  cases l with
  | accept | shutdown | drop id => exact h
  | client r =>
      simp only [AdbTransport.step, AdbTransport.client] at h
      split at h
      · exact h
      · exact h
  | pollListener =>
      simp only [AdbTransport.step, AdbTransport.pollListener] at h
      split at h
      · exact h
      · split at h
        · exact h
        · exact h
      · cases h
  | pollReverse => exact (t.pollReverse_line).1 ▸ h
  | removed => exact (t.removed_line).1 ▸ h

theorem tunnel_step (u : Tunnel) (l : AdbLabel) :
    (u.step l).1.bound_port = u.bound_port ∧ (u.step l).1.transport = u.transport.step l := by
  unfold Tunnel.step
  dsimp only
  split
  · exact ⟨rfl, rfl⟩
  · exact ⟨rfl, rfl⟩
  · exact ⟨rfl, rfl⟩

theorem port_step {u : Tunnel} {l : AdbLabel} {port : ℕ} (h : (u.step l).1.port = some port) :
    u.port = some port := by
  obtain ⟨hport, htransport⟩ := tunnel_step u l
  unfold Tunnel.port at h ⊢
  rw [hport, htransport] at h
  split at h
  · next hup => rw [if_pos (listener_step hup), h]
  · cases h

/-- A tunnel is changed, and its listener at most goes. -/
theorem listening_set {tunnels : List Tunnel} {i : ℕ} {u u' : Tunnel} (hu : tunnels[i]? = some u)
    (h : ∀ port, u'.port = some port → u.port = some port) :
    (tunnels.set i u').filterMap Tunnel.port ⊆ tunnels.filterMap Tunnel.port := by
  intro port hport
  obtain ⟨v, hv, hvport⟩ := List.mem_filterMap.1 hport
  rcases List.mem_or_eq_of_mem_set hv with hv | rfl
  · exact List.mem_filterMap.2 ⟨v, hv, hvport⟩
  · exact List.mem_filterMap.2 ⟨u, List.mem_of_getElem? hu, h port hvport⟩

/-- A tunnel is changed, and its listener stays. -/
theorem listening_set_eq {tunnels : List Tunnel} {i : ℕ} {u u' : Tunnel} (hu : tunnels[i]? = some u)
    (h : u'.port = u.port) : (tunnels.set i u').filterMap Tunnel.port = tunnels.filterMap Tunnel.port := by
  induction tunnels generalizing i with
  | nil => rfl
  | cons v tunnels ih =>
      cases i with
      | zero =>
          cases hu
          rw [List.set_cons_zero, List.filterMap_cons, List.filterMap_cons, h]
      | succ i => rw [List.set_cons_succ, List.filterMap_cons, List.filterMap_cons, ih hu]

/-! ### One step -/

/-- A removal of the rule among the same listeners. -/
theorem led_remove {t : AdbHost} (h : s.Led) {ok : Bool} (hrule : t.rule = if ok then none else s.rule)
    (hports : t.listening ⊆ s.listening) : t.Led ↔ (ok = true → t.listening = []) := by
  cases ok with
  | true =>
      rw [led_none hrule]
      exact ⟨fun hnil _ => hnil, fun hnil => hnil rfl⟩
  | false =>
      refine iff_of_true (led_congr hrule hports h) ?_
      intro hok
      cases hok

theorem led_cleared (h : s.Led) (j : ℕ) (ok : Bool) : (s.cleared j ok).Led ↔ s.Clear (.cleared j ok) := by
  unfold cleared Clear
  split
  · next port hj =>
      have hsame : (s.remove ok).tunnels = s.tunnels := (remove_tunnels s ok).1
      have hled := led_remove (t := { s.remove ok with bindings := s.bindings.set j ⟨port, .ruling⟩ }) h
        (remove_tunnels s ok).2 (by
          show (s.remove ok).tunnels.filterMap _ ⊆ _
          rw [hsame]
          exact List.Subset.refl _)
      rw [hled]
      show (_ → (s.remove ok).tunnels.filterMap _ = []) ↔ _
      rw [hsame]
      constructor
      · intro hclear hok port' _
        exact hclear hok
      · intro hclear hok
        exact hclear hok port hj
  · next hj =>
      refine iff_of_true h ?_
      intro _ port hport
      exact absurd hport (hj port)

theorem led_ruled (h : s.Led) (j : ℕ) (ok : Bool) : (s.ruled j ok).Led ↔ s.Clear (.ruled j ok) := by
  unfold ruled Clear
  split
  · next port hj =>
      cases ok with
      | false =>
          refine iff_of_true h ?_
          intro hok
          cases hok
      | true =>
          rw [if_pos rfl]
          have hports : (s.tunnels ++ [(⟨port, .bound, .idle⟩ : Tunnel)]).filterMap Tunnel.port =
              s.listening ++ [port] := by
            rw [List.filterMap_append]
            rfl
          constructor
          · intro hled _ port' hport' other hother
            rw [hj] at hport'
            cases hport'
            have hmem : other ∈ (s.tunnels ++ [(⟨port, .bound, .idle⟩ : Tunnel)]).filterMap Tunnel.port := by
              rw [hports]
              exact List.mem_append_left _ hother
            exact (Option.some.inj (hled other hmem)).symm
          · intro hclear other hother
            have hother : other ∈ (s.tunnels ++ [(⟨port, .bound, .idle⟩ : Tunnel)]).filterMap Tunnel.port := hother
            rw [hports] at hother
            show some port = some other
            rcases List.mem_append.1 hother with hother | hother
            · rw [hclear rfl port hj other hother]
            · rw [List.mem_singleton.1 hother]
  · next hj =>
      refine iff_of_true h ?_
      intro _ port hport
      exact absurd hport (hj port)

theorem led_transport (h : s.Led) (i : ℕ) (l : AdbLabel) : (s.transport i l).Led := by
  unfold transport
  split
  · exact h
  · next u hu => exact led_congr (s := s) rfl (listening_set hu fun port => port_step) h

theorem led_removal (h : s.Led) (i : ℕ) (ok : Bool) : (s.removal i ok).Led ↔ s.Clear (.removal i ok) := by
  unfold removal Clear
  cases hi : s.tunnels[i]? with
  | none =>
      refine iff_of_true h ?_
      intro _ u hu
      rw [hi] at hu
      cases hu
  | some u =>
      by_cases hrun : u.removal = .running
      · have hsame : (s.tunnels.set i { u with removal := .ended }).filterMap Tunnel.port = s.listening :=
          listening_set_eq hi rfl
        have hled := led_remove
          (t := { s.remove ok with tunnels := s.tunnels.set i { u with removal := .ended } }) h
          (remove_tunnels s ok).2 (by
            show List.filterMap _ _ ⊆ _
            rw [hsame]
            exact List.Subset.refl _)
        show (if u.removal = .running then _ else s).Led ↔ _
        rw [if_pos hrun, hled]
        show (_ → (s.tunnels.set i { u with removal := .ended }).filterMap Tunnel.port = []) ↔ _
        rw [hsame]
        constructor
        · intro hclear hok v hv _
          exact hclear hok
        · intro hclear hok
          exact hclear hok u hi hrun
      · show (if u.removal = .running then _ else s).Led ↔ _
        rw [if_neg hrun]
        refine iff_of_true h ?_
        intro _ v hv hv'
        rw [hi] at hv
        cases hv
        exact absurd hv' hrun

theorem led_stray (h : s.Led) (ok : Bool) : (s.stray ok).Led ↔ s.Clear (.stray ok) := by
  unfold stray Clear
  by_cases hnone : s.strays = 0
  · rw [if_pos hnone]
    exact iff_of_true h fun _ hsome => absurd hnone hsome
  · have hsame : (s.remove ok).tunnels = s.tunnels := (remove_tunnels s ok).1
    have hled := led_remove (t := { s.remove ok with strays := s.strays - 1 }) h (remove_tunnels s ok).2 (by
      show (s.remove ok).tunnels.filterMap _ ⊆ _
      rw [hsame]
      exact List.Subset.refl _)
    rw [if_neg hnone, hled]
    show (_ → (s.remove ok).tunnels.filterMap _ = []) ↔ _
    rw [hsame]
    constructor
    · intro hclear hok _
      exact hclear hok
    · intro hclear hok
      exact hclear hok hnone

theorem led_dropped (h : s.Led) (i : ℕ) (ok : Bool) : (s.dropped i ok).Led ↔ s.Clear (.dropped i ok) := by
  unfold dropped Clear
  cases hi : s.tunnels[i]? with
  | none =>
      refine iff_of_true h ?_
      intro _ u hu
      rw [hi] at hu
      cases hu
  | some u =>
      by_cases hunused : u.unused = true
      · have hled := led_remove
          (t := { s.remove (u.transport.reverse_active && ok) with
            tunnels := s.tunnels.eraseIdx i
            strays := s.strays + (if u.removal = .running then 1 else 0) }) h
          (remove_tunnels s (u.transport.reverse_active && ok)).2 ((List.eraseIdx_sublist _ _).filterMap _).subset
        show (if u.unused then _ else s).Led ↔ _
        rw [if_pos hunused, hled]
        constructor
        · intro hclear hok v hv _ hactive
          rw [hi] at hv
          cases hv
          apply hclear
          rw [hactive, hok]
          rfl
        · intro hclear hboth
          rw [Bool.and_eq_true] at hboth
          exact hclear hboth.2 u hi hunused hboth.1
      · show (if u.unused then _ else s).Led ↔ _
        rw [if_neg hunused]
        refine iff_of_true h ?_
        intro _ v hv hv'
        rw [hi] at hv
        cases hv
        exact absurd hv' hunused

/-- **The step lemma.** -/
theorem led_step (h : s.Led) (l : HostLabel) : (s.step l).Led ↔ s.Clear l := by
  cases l with
  | bind port => exact iff_of_true h trivial
  | cleared j ok => exact led_cleared h j ok
  | ruled j ok => exact led_ruled h j ok
  | transport i l => exact iff_of_true (led_transport h i l) trivial
  | removal i ok => exact led_removal h i ok
  | stray ok => exact led_stray h ok
  | dropped i ok => exact led_dropped h i ok

/-! ### One transport after the other -/

/-- A transport is bound when the last one is dropped. -/
def Turn (s : AdbHost) : HostLabel → Prop
  | .bind _ => s.bindings = [] ∧ s.tunnels = []
  | _ => True

/-- It is bound when the removals that were given up are through. -/
def Waited (s : AdbHost) : HostLabel → Prop
  | .bind _ => s.strays = 0
  | _ => True

/-- A removal that was given up comes when nobody listens. -/
def Missed (s : AdbHost) : HostLabel → Prop
  | .stray ok => ok = true → s.strays ≠ 0 → s.listening = []
  | _ => True

/-- There is one transport at most, and it has no listener any more when its rule is removed. -/
structure Alone (s : AdbHost) : Prop where
  single : s.bindings.length + s.tunnels.length ≤ 1
  closed : ∀ u ∈ s.tunnels, u.Closing → u.transport.listener = false

/-- A removal that was given up runs on only while nobody listens or is about to. -/
def Settled (s : AdbHost) : Prop := s.strays ≠ 0 → s.bindings = [] ∧ s.listening = []

theorem alone_start : start.Alone where
  single := Nat.zero_le 1
  closed := by
    intro u hu
    cases hu

theorem settled_start : start.Settled := fun _ => ⟨rfl, rfl⟩

/-- A `shutdown` comes to the second lock when it has dropped the listener. -/
theorem reverseLine_step {t : AdbTransport} {l : AdbLabel} (hline : t.reverseLine = [])
    (hup : (t.step l).listener = true) : (t.step l).reverseLine = [] := by
  cases l with
  | accept | shutdown => exact hline
  | client r =>
      simp only [AdbTransport.step, AdbTransport.client]
      split
      · exact hline
      · exact hline
  | pollListener =>
      simp only [AdbTransport.step, AdbTransport.pollListener] at hup ⊢
      split at hup
      · exact hline
      · split
        · exact hline
        · exact hline
      · cases hup
  | pollReverse => simp only [AdbTransport.step, AdbTransport.pollReverse, hline]
  | removed =>
      simp only [AdbTransport.step, AdbTransport.removed, hline]
      split
      · next h => cases h
      · exact hline
  | drop id =>
      show t.reverseLine.filter _ = []
      rw [hline]
      rfl

/-- A removal begins for a `shutdown` at the second lock. -/
theorem removing_step {t : AdbTransport} {l : AdbLabel} (hline : t.reverseLine = []) (hbefore : t.removing = false) :
    (t.step l).removing = false := by
  cases l with
  | accept | shutdown => exact hbefore
  | client r =>
      simp only [AdbTransport.step, AdbTransport.client]
      split
      · exact hbefore
      · exact hbefore
  | pollListener =>
      simp only [AdbTransport.step, AdbTransport.pollListener]
      split
      · exact hbefore
      · split
        · exact hbefore
        · exact hbefore
      · exact hbefore
  | pollReverse => simp only [AdbTransport.step, AdbTransport.pollReverse, hline, hbefore]
  | removed => simp only [AdbTransport.step, AdbTransport.removed, hbefore]
  | drop id =>
      show (t.removing && _) = false
      rw [hbefore]
      rfl

/-- A transport goes on, and still has no listener when its rule is removed. -/
theorem closing_step {u : Tunnel} (l : AdbLabel) (h : u.Closing → u.transport.listener = false) :
    (u.step l).1.Closing → (u.step l).1.transport.listener = false := by
  obtain ⟨-, htransport⟩ := tunnel_step u l
  rw [htransport]
  intro hclosing
  by_contra hup
  rw [Bool.not_eq_false] at hup
  -- with the listener there, no `shutdown` of before is past its lock
  have hopen : ¬ u.Closing := by
    intro hbefore
    have hdown := h hbefore
    rw [listener_step hup] at hdown
    cases hdown
  rw [Tunnel.Closing, not_or, not_not, not_not] at hopen
  obtain ⟨hline, hidle⟩ := hopen
  rcases hclosing with hafter | hafter
  · rw [htransport] at hafter
    exact hafter (reverseLine_step hline hup)
  · apply hafter
    unfold Tunnel.step
    dsimp only
    split
    · next hbefore hremoving =>
        rw [removing_step hline hbefore] at hremoving
        cases hremoving
    · rfl
    · exact hidle

/-- The transport that there is has no listener. -/
theorem Alone.listening_eq (h : s.Alone) {u : Tunnel} (hu : u ∈ s.tunnels) (hclosing : u.Closing) :
    s.bindings = [] ∧ s.listening = [] := by
  obtain ⟨k, hk⟩ := List.mem_iff_getElem?.1 hu
  have hpos := (List.getElem?_eq_some_iff.1 hk).1
  have hsingle := h.single
  have hone : s.tunnels.length = 1 := by omega
  obtain ⟨v, hv⟩ := List.length_eq_one_iff.1 hone
  rw [hv, List.mem_singleton] at hu
  have hdown := h.closed u (hv ▸ hu ▸ List.mem_cons_self) hclosing
  refine ⟨List.length_eq_zero_iff.1 (by omega), ?_⟩
  rw [listening, hv, ← hu]
  simp [Tunnel.port, hdown]

/-- Beside a transport that is being bound there is none. -/
theorem Alone.tunnels_eq (h : s.Alone) {j : ℕ} {b : PendingBind} (hj : s.bindings[j]? = some b) : s.tunnels = [] := by
  have hpos := (List.getElem?_eq_some_iff.1 hj).1
  have hsingle := h.single
  exact List.length_eq_zero_iff.1 (by omega)

theorem closing_of_running {u : Tunnel} (h : u.removal = .running) : u.Closing := by
  right
  rw [h]
  intro hidle
  cases hidle

/-- The transport that is dropped was the only one. -/
theorem Alone.eraseIdx_eq (h : s.Alone) {i : ℕ} {u : Tunnel} (hi : s.tunnels[i]? = some u) :
    s.bindings = [] ∧ s.tunnels.eraseIdx i = [] := by
  have hlt := (List.getElem?_eq_some_iff.1 hi).1
  have hsingle := h.single
  refine ⟨List.length_eq_zero_iff.1 (by omega), List.length_eq_zero_iff.1 ?_⟩
  rw [List.length_eraseIdx_of_lt hlt]
  omega

/-- With one transport at a time only a removal that was given up can take the rule away from it. -/
theorem clear_iff_missed (h : s.Alone) (l : HostLabel) : s.Clear l ↔ s.Missed l := by
  cases l with
  | bind port => exact Iff.rfl
  | transport i l => exact Iff.rfl
  | stray ok => exact Iff.rfl
  | cleared j ok =>
      refine iff_of_true ?_ trivial
      intro _ port hj
      rw [listening, h.tunnels_eq hj]
      rfl
  | ruled j ok =>
      refine iff_of_true ?_ trivial
      intro _ port hj other hother
      rw [listening, h.tunnels_eq hj] at hother
      cases hother
  | removal i ok =>
      refine iff_of_true ?_ trivial
      intro _ u hu hrun
      exact (h.listening_eq (List.mem_of_getElem? hu) (closing_of_running hrun)).2
  | dropped i ok =>
      refine iff_of_true ?_ trivial
      intro _ u hu _ _
      rw [(h.eraseIdx_eq hu).2]
      rfl

/-- A transport is changed among the others. -/
theorem alone_set (h : s.Alone) {i : ℕ} {u : Tunnel} (hu : u.Closing → u.transport.listener = false) {rule : Option ℕ}
    {strays : ℕ} : AdbHost.Alone ⟨rule, s.bindings, s.tunnels.set i u, strays⟩ where
  single := by
    rw [List.length_set]
    exact h.single
  closed := by
    intro v hv
    rcases List.mem_or_eq_of_mem_set hv with hv | rfl
    · exact h.closed v hv
    · exact hu

theorem remove_eq (s : AdbHost) (ok : Bool) :
    s.remove ok = ⟨(s.remove ok).rule, s.bindings, s.tunnels, s.strays⟩ := by
  cases ok with
  | true => rfl
  | false => rfl

/-- The binding that is through becomes the transport. -/
theorem alone_ruled (h : s.Alone) (j : ℕ) (ok : Bool) : (s.ruled j ok).Alone := by
  unfold ruled
  split
  · next port hj =>
      have htunnels := h.tunnels_eq hj
      have hlt := (List.getElem?_eq_some_iff.1 hj).1
      have hsingle := h.single
      have hlength : (s.bindings.eraseIdx j).length = 0 := by
        rw [List.length_eraseIdx_of_lt hlt]
        omega
      split
      · refine ⟨?_, ?_⟩
        · show (s.bindings.eraseIdx j).length + (s.tunnels ++ [_]).length ≤ 1
          rw [hlength, htunnels]
          exact Nat.le_refl 1
        · intro u hu hclosing
          rw [htunnels, List.nil_append, List.mem_singleton] at hu
          rw [hu] at hclosing
          rcases hclosing with hline | hremoval
          · exact absurd rfl hline
          · exact absurd rfl hremoval
      · refine ⟨?_, h.closed⟩
        show (s.bindings.eraseIdx j).length + s.tunnels.length ≤ 1
        omega
  · exact h

/-- Each step leaves one transport at most. -/
theorem alone_step {l : HostLabel} (h : s.Alone) (hturn : s.Turn l) : (s.step l).Alone := by
  cases l with
  | bind port =>
      obtain ⟨hbindings, htunnels⟩ := hturn
      refine ⟨?_, h.closed⟩
      show (s.bindings ++ [_]).length + s.tunnels.length ≤ 1
      rw [hbindings, htunnels]
      exact Nat.le_refl 1
  | cleared j ok =>
      show (s.cleared j ok).Alone
      unfold cleared
      split
      · rw [remove_eq]
        refine ⟨?_, h.closed⟩
        show (s.bindings.set j _).length + s.tunnels.length ≤ 1
        rw [List.length_set]
        exact h.single
      · exact h
  | ruled j ok => exact alone_ruled h j ok
  | transport i l =>
      show (s.transport i l).Alone
      unfold transport
      split
      · exact h
      · next u hu => exact alone_set h (closing_step l (h.closed u (List.mem_of_getElem? hu)))
  | removal i ok =>
      show (s.removal i ok).Alone
      unfold removal
      split
      · exact h
      · next u hu =>
          split
          · next hrun =>
              rw [remove_eq]
              exact alone_set (u := { u with removal := .ended }) h
                fun _ => h.closed u (List.mem_of_getElem? hu) (closing_of_running hrun)
          · exact h
  | stray ok =>
      show (s.stray ok).Alone
      unfold stray
      split
      · exact h
      · rw [remove_eq]
        exact ⟨h.single, h.closed⟩
  | dropped i ok =>
      show (s.dropped i ok).Alone
      unfold dropped
      split
      · exact h
      · next u hu =>
          split
          · rw [remove_eq]
            refine ⟨?_, fun v hv => h.closed v (List.mem_of_mem_eraseIdx hv)⟩
            show s.bindings.length + (s.tunnels.eraseIdx i).length ≤ 1
            rw [(h.eraseIdx_eq hu).1, (h.eraseIdx_eq hu).2]
            exact Nat.zero_le 1
          · exact h

/-- A transport leaves a removal behind only when it has one. -/
theorem running_of_left {u : Tunnel} {l : AdbLabel} (h : (u.step l).2 ≠ 0) : u.removal = .running := by
  unfold Tunnel.step at h
  dsimp only at h
  split at h
  · exact absurd rfl h
  · by_contra hrun
    exact h (if_neg hrun)
  · exact absurd rfl h

/-- A removal is left behind by a transport that does not listen any more. -/
theorem settled_transport (h : s.Alone) (hsettled : s.Settled) (i : ℕ) (l : AdbLabel) :
    (s.transport i l).Settled := by
  unfold transport
  split
  · exact hsettled
  · next u hu =>
      intro hstrays
      have hquiet : s.bindings = [] ∧ s.listening = [] := by
        by_cases hnone : s.strays = 0
        · have hleft : (u.step l).2 ≠ 0 := by
            intro hzero
            exact hstrays (by show s.strays + (u.step l).2 = 0; omega)
          exact h.listening_eq (List.mem_of_getElem? hu) (closing_of_running (running_of_left hleft))
        · exact hsettled hnone
      refine ⟨hquiet.1, List.subset_nil.1 ?_⟩
      rw [← hquiet.2]
      exact listening_set hu fun port => port_step

/-- Removals that are given up leave nobody listening, and the next transport waits for them. -/
theorem settled_step {l : HostLabel} (h : s.Alone) (hsettled : s.Settled) (hwaited : s.Waited l) :
    (s.step l).Settled := by
  cases l with
  | bind port =>
      intro hstrays
      exact absurd hwaited hstrays
  | cleared j ok =>
      show (s.cleared j ok).Settled
      unfold cleared
      split
      · next port hj =>
          rw [remove_eq]
          intro hstrays
          rw [(hsettled hstrays).1] at hj
          cases hj
      · exact hsettled
  | ruled j ok =>
      show (s.ruled j ok).Settled
      unfold ruled
      split
      · next port hj =>
          have hnone : s.strays = 0 := by
            by_contra hstrays
            rw [(hsettled hstrays).1] at hj
            cases hj
          split
          · exact fun hstrays => absurd hnone hstrays
          · exact fun hstrays => absurd hnone hstrays
      · exact hsettled
  | transport i l => exact settled_transport h hsettled i l
  | removal i ok =>
      show (s.removal i ok).Settled
      unfold removal
      split
      · exact hsettled
      · next u hu =>
          split
          · rw [remove_eq]
            intro hstrays
            obtain ⟨hbindings, hlistening⟩ := hsettled hstrays
            refine ⟨hbindings, ?_⟩
            have hsame : (s.tunnels.set i { u with removal := .ended }).filterMap Tunnel.port = s.listening :=
              listening_set_eq hu rfl
            exact hsame.trans hlistening
          · exact hsettled
  | stray ok =>
      show (s.stray ok).Settled
      unfold stray
      split
      · exact hsettled
      · next hsome =>
          rw [remove_eq]
          exact fun _ => hsettled hsome
  | dropped i ok =>
      show (s.dropped i ok).Settled
      unfold dropped
      split
      · exact hsettled
      · next u hu =>
          split
          · rw [remove_eq]
            intro _
            refine ⟨(h.eraseIdx_eq hu).1, ?_⟩
            show (s.tunnels.eraseIdx i).filterMap Tunnel.port = []
            rw [(h.eraseIdx_eq hu).2]
            rfl
          · exact hsettled

theorem missed_of_settled (h : s.Settled) (l : HostLabel) : s.Missed l := by
  cases l with
  | stray ok => exact fun _ hstrays => (h hstrays).2
  | _ => trivial

/-- **The tablet finds the listener.**  Where each transport is bound when the last one is dropped, however the steps of
its calls, of its shutdown and of `adb` fall, the rule leads to the listening port all along exactly when no removal
that was given up comes while somebody listens; and where each is bound when these removals are through, it always
does. -/
theorem led_of_turns {ls : List HostLabel} (hturn : Run.Steps step Turn start ls) :
    ((∀ pre, pre <+: ls → (pre.foldl step start).Led) ↔ Run.Steps step Missed start ls) ∧
      (Run.Steps step Waited start ls → ∀ pre, pre <+: ls → (pre.foldl step start).Led) := by
  have hiff : (∀ pre, pre <+: ls → (pre.foldl step start).Led) ↔ Run.Steps step Missed start ls := by
    have hled : start.Led := by
      intro port hport
      cases hport
    rw [Run.always_iff (I := Led) (fun _ l h => led_step h l) hled]
    exact Run.Steps.congr_of_invariant hturn alone_start (fun _ l h _ => clear_iff_missed h l)
      fun _ _ h ht _ => alone_step h ht
  refine ⟨hiff, fun hwaited => hiff.2 ?_⟩
  rw [Run.steps_iff]
  intro pre l post hls
  subst hls
  rw [Run.steps_append] at hturn hwaited
  have hboth : Run.Steps step (fun s l => s.Turn l ∧ s.Waited l) start pre := by
    have ht := hturn.1
    have hw := hwaited.1
    rw [Run.steps_iff] at ht hw ⊢
    exact fun front k back hpre => ⟨ht front k back hpre, hw front k back hpre⟩
  have hinv : (pre.foldl step start).Alone ∧ (pre.foldl step start).Settled :=
    Run.Steps.invariant (I := fun s => s.Alone ∧ s.Settled)
      (fun _ _ h hp => ⟨alone_step h.1 hp.1, settled_step h.1 h.2 hp.2⟩) ⟨alone_start, settled_start⟩ hboth
  exact missed_of_settled hinv.2 l

/-- A shutdown is given up while its removal runs, the transport is dropped, and the removal is through. -/
def givenUp : List HostLabel :=
  [.bind 5000, .cleared 0 true, .ruled 0 true, .transport 0 .shutdown, .transport 0 .pollListener,
    .transport 0 .pollReverse, .transport 0 (.drop 0), .dropped 0 true, .stray true]

/-- The same, but that the removal comes to the daemon when the next transport listens. -/
def swept : List HostLabel := givenUp.take 8 ++ [.bind 5001, .cleared 0 true, .ruled 0 true, .stray true]

/-- The next transport is bound when the removal is through. -/
def spared : List HostLabel := givenUp ++ [.bind 5001, .cleared 0 true, .ruled 0 true]

/-- Bound early the second transport loses its rule, and bound later it keeps it. -/
theorem led_of_turns_second :
    (¬ ∀ pre, pre <+: swept → (pre.foldl step start).Led) ∧ (∀ pre, pre <+: spared → (pre.foldl step start).Led) ∧
      (spared.foldl step start).listening = [5001] := by
  have hswept : Run.Steps step Turn start swept := by
    exact ⟨⟨rfl, rfl⟩, trivial, trivial, trivial, trivial, trivial, trivial, trivial, ⟨rfl, rfl⟩, trivial, trivial,
      trivial, trivial⟩
  have hspared : Run.Steps step Turn start spared := by
    exact ⟨⟨rfl, rfl⟩, trivial, trivial, trivial, trivial, trivial, trivial, trivial, trivial, ⟨rfl, rfl⟩, trivial,
      trivial, trivial⟩
  refine ⟨?_, ?_, by decide⟩
  · rw [(led_of_turns hswept).1]
    intro hmissed
    obtain ⟨-, -, -, -, -, -, -, -, -, -, -, hstray, -⟩ := hmissed
    have hnone := hstray rfl (by decide)
    revert hnone
    decide
  · apply (led_of_turns hspared).2
    exact ⟨rfl, trivial, trivial, trivial, trivial, trivial, trivial, trivial, trivial, rfl, trivial, trivial, trivial⟩

/-! ### What is left of the rule -/

/-- Somebody is still to remove the rule. -/
structure Owned (s : AdbHost) : Prop where
  awaited : ∀ u ∈ s.tunnels, u.transport.removing = true → u.removal ≠ .idle
  owner : ∀ port, s.rule = some port → (∃ u ∈ s.tunnels, Tunnel.Answers u port) ∨ 0 < s.strays

/-- The commands that are to take the rule away do. -/
def Obeyed : HostLabel → Prop
  | .removal _ ok => ok = true
  | .stray ok => ok = true
  | .dropped _ ok => ok = true
  | _ => True

theorem owned_start : start.Owned where
  awaited := by
    intro u hu
    cases hu
  owner := by
    intro port h
    cases h

/-- Only the end of a removal takes the mark away. -/
theorem active_step (t : AdbTransport) (l : AdbLabel) :
    (t.step l).reverse_active = t.reverse_active ∨ (t.removing = true ∧ (t.step l).removing = false) := by
  cases l with
  | accept | shutdown | drop id => exact .inl rfl
  | client r =>
      left
      simp only [AdbTransport.step, AdbTransport.client]
      split
      · rfl
      · rfl
  | pollListener =>
      left
      simp only [AdbTransport.step, AdbTransport.pollListener]
      split
      · rfl
      · split
        · rfl
        · rfl
      · rfl
  | pollReverse =>
      left
      simp only [AdbTransport.step, AdbTransport.pollReverse]
      split
      · rfl
      · split
        · rfl
        · rfl
  | removed =>
      simp only [AdbTransport.step, AdbTransport.removed]
      split
      · next hremoving _ => exact .inr ⟨hremoving, rfl⟩
      · exact .inl rfl

/-- A transport goes on: its removal is marked as it runs, and it still answers for the rule, or leaves a
removal behind, or its removal has ended. -/
theorem answers_step {u : Tunnel} (l : AdbLabel) (hawaited : u.transport.removing = true → u.removal ≠ .idle) :
    ((u.step l).1.transport.removing = true → (u.step l).1.removal ≠ .idle) ∧
      ∀ port, u.Answers port → (u.step l).1.Answers port ∨ 0 < (u.step l).2 := by
  have hactive := active_step u.transport l
  unfold Tunnel.step
  dsimp only
  cases hbefore : u.transport.removing with
  | false =>
      rw [hbefore] at hactive
      have hsame : (u.transport.step l).reverse_active = u.transport.reverse_active := by
        rcases hactive with hsame | ⟨hremoving, -⟩
        · exact hsame
        · cases hremoving
      cases hafter : (u.transport.step l).removing with
      | false =>
          refine ⟨?_, ?_⟩
          · intro hremoving
            rw [hafter] at hremoving
            cases hremoving
          · rintro port ⟨hport, hup, hended⟩
            exact .inl ⟨hport, hsame.trans hup, hended⟩
      | true =>
          refine ⟨?_, ?_⟩
          · intro _ hidle
            cases hidle
          · rintro port ⟨hport, hup, -⟩
            refine .inl ⟨hport, hsame.trans hup, ?_⟩
            intro hended
            cases hended
  | true =>
      rw [hbefore] at hactive
      cases hafter : (u.transport.step l).removing with
      | true =>
          rw [hafter] at hactive
          have hsame : (u.transport.step l).reverse_active = u.transport.reverse_active := by
            rcases hactive with hsame | ⟨-, hremoving⟩
            · exact hsame
            · cases hremoving
          refine ⟨fun _ => hawaited hbefore, ?_⟩
          rintro port ⟨hport, hup, hended⟩
          exact .inl ⟨hport, hsame.trans hup, hended⟩
      | false =>
          refine ⟨?_, ?_⟩
          · intro hremoving
            have hremoving : (u.transport.step l).removing = true := hremoving
            rw [hafter] at hremoving
            cases hremoving
          · rintro port ⟨-, -, hended⟩
            right
            -- it was waited for, and has not ended
            have hrun : u.removal = .running := by
              cases hremoval : u.removal with
              | idle => exact absurd hremoval (hawaited hbefore)
              | running => rfl
              | ended => exact absurd hremoval hended
            show 0 < if u.removal = .running then 1 else 0
            rw [if_pos hrun]
            omega

theorem owned_transport (h : s.Owned) (i : ℕ) (l : AdbLabel) : (s.transport i l).Owned := by
  unfold transport
  split
  · exact h
  · next u hu =>
      obtain ⟨hawaited, hanswers⟩ := answers_step l (h.awaited u (List.mem_of_getElem? hu))
      constructor
      · intro v hv
        rcases List.mem_or_eq_of_mem_set hv with hv | rfl
        · exact h.awaited v hv
        · exact hawaited
      · intro port hport
        rcases h.owner port hport with ⟨v, hv, hvport⟩ | hstrays
        · obtain ⟨k, hk⟩ := List.mem_iff_getElem?.1 hv
          by_cases hki : k = i
          · rw [hki, hu] at hk
            cases hk
            rcases hanswers port hvport with hstill | hleft
            · refine .inl ⟨_, ?_, hstill⟩
              exact List.mem_set (List.getElem?_eq_some_iff.1 hu).1 _
            · right
              show 0 < s.strays + (u.step l).2
              omega
          · refine .inl ⟨v, ?_, hvport⟩
            apply List.mem_of_getElem? (i := k)
            rw [List.getElem?_set_ne (Ne.symm hki)]
            exact hk
        · right
          show 0 < s.strays + (u.step l).2
          omega

theorem owned_ruled (h : s.Owned) (j : ℕ) (ok : Bool) : (s.ruled j ok).Owned := by
  unfold ruled
  split
  · next port _ =>
      cases ok with
      | false => exact ⟨h.awaited, h.owner⟩
      | true =>
          rw [if_pos rfl]
          constructor
          · intro u hu
            rcases List.mem_append.1 hu with hu | hu
            · exact h.awaited u hu
            · rw [List.mem_singleton.1 hu]
              intro hremoving
              cases hremoving
          · intro port' hport'
            cases hport'
            refine .inl ⟨_, List.mem_append_right _ List.mem_cons_self, rfl, rfl, ?_⟩
            intro hended
            cases hended
  · exact h

/-- Where the rule is removed nobody need answer for it. -/
theorem owned_none {s : AdbHost} (hrule : s.rule = none)
    (hawaited : ∀ u ∈ s.tunnels, u.transport.removing = true → u.removal ≠ .idle) : s.Owned where
  awaited := hawaited
  owner := by
    intro port hport
    rw [hrule] at hport
    cases hport

theorem owned_step {l : HostLabel} (h : s.Owned) (hobeyed : Obeyed l) : (s.step l).Owned := by
  cases l with
  | bind port => exact ⟨h.awaited, h.owner⟩
  | transport i l => exact owned_transport h i l
  | ruled j ok => exact owned_ruled h j ok
  | cleared j ok =>
      show (s.cleared j ok).Owned
      unfold cleared
      split
      · cases ok with
        | true => exact owned_none rfl h.awaited
        | false => exact ⟨h.awaited, h.owner⟩
      · exact h
  | removal i ok =>
      obtain rfl : ok = true := hobeyed
      show (s.removal i true).Owned
      unfold removal
      split
      · exact h
      · split
        · refine owned_none rfl ?_
          intro u hu hremoving
          rcases List.mem_or_eq_of_mem_set hu with hu | rfl
          · exact h.awaited u hu hremoving
          · intro hidle
            cases hidle
        · exact h
  | stray ok =>
      obtain rfl : ok = true := hobeyed
      show (s.stray true).Owned
      unfold stray
      split
      · exact h
      · exact owned_none rfl h.awaited
  | dropped i ok =>
      obtain rfl : ok = true := hobeyed
      show (s.dropped i true).Owned
      unfold dropped
      split
      · exact h
      · next u hu =>
          split
          · have hawaited : ∀ v ∈ s.tunnels.eraseIdx i, v.transport.removing = true → v.removal ≠ .idle :=
              fun v hv => h.awaited v (List.mem_of_mem_eraseIdx hv)
            cases hactive : u.transport.reverse_active with
            | true => exact owned_none rfl hawaited
            | false =>
                refine ⟨hawaited, ?_⟩
                intro port hport
                rcases h.owner port hport with ⟨v, hv, hvport⟩ | hstrays
                · obtain ⟨k, hk⟩ := List.mem_iff_getElem?.1 hv
                  refine .inl ⟨v, ?_, hvport⟩
                  apply List.mem_eraseIdx_iff_getElem?.2
                  refine ⟨k, ?_, hk⟩
                  rintro rfl
                  rw [hu] at hk
                  cases hk
                  rw [hvport.2.1] at hactive
                  cases hactive
                · right
                  show 0 < s.strays + _
                  omega
          · exact h

/-- **No rule is left behind.**  In every interleaving in which no command fails that is to take the rule away, it
is gone when the transports are dropped and the removals nobody waits for are through. -/
theorem rule_gone {ls : List HostLabel} (hobeyed : ∀ l ∈ ls, Obeyed l)
    (htunnels : (ls.foldl step start).tunnels = []) (hstrays : (ls.foldl step start).strays = 0) :
    (ls.foldl step start).rule = none := by
  have howned : (ls.foldl step start).Owned := by
    have hsteps : Run.Steps step (fun _ l => Obeyed l) start ls :=
      Run.steps_iff.2 fun pre l post hls => hobeyed l (hls ▸ List.mem_append_right pre List.mem_cons_self)
    exact Run.Steps.invariant (I := Owned) (fun _ _ h hl => owned_step h hl) owned_start hsteps
  cases hrule : (ls.foldl step start).rule with
  | none => rfl
  | some port =>
      rcases howned.owner port hrule with ⟨u, hu, -⟩ | hpos
      · rw [htunnels] at hu
        cases hu
      · omega

theorem rule_gone_givenUp : (givenUp.foldl step start).rule = none :=
  rule_gone (by simp [givenUp, Obeyed]) (by decide) (by decide)

end AdbHost

end Penflow
