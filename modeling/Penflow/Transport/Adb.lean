import Penflow.Lib.Run

/-!
# The adb transport and its two locks

`accept` holds the lock of the listener while it waits for a client; `shutdown` takes the same lock to drop
the listener, and then the lock of `reverse_active` to remove the reverse rule.  Both locks are fair: the
calls that want one form a line, and the first of the line holds it.  Any of the futures may be dropped.
-/

namespace Penflow

/-- What `accept` fails with. -/
inductive AcceptError where
  | notConnected (message : String)
  | io (message : String)
  deriving DecidableEq, Repr

/-- What a call returned; an accepted client comes with its `peer_label`. -/
inductive CallResult where
  | accept (r : Except AcceptError String)
  | shutdown
  deriving Repr

/-- A call that wants the lock of the listener. -/
inductive ListenerCall where
  | accept (id : ℕ)
  | shutdown (id : ℕ)
  deriving DecidableEq, Repr

namespace ListenerCall

def id : ListenerCall → ℕ
  | accept id => id
  | shutdown id => id

def isAccept : ListenerCall → Bool
  | accept _ => true
  | shutdown _ => false

end ListenerCall

structure AdbTransport where
  /-- `listener` is `Some` -/
  listener : Bool
  reverse_active : Bool
  /-- the calls at the lock of `listener`, its holder first -/
  listenerLine : List ListenerCall
  /-- the holder is in `listener.accept()` -/
  accepting : Bool
  /-- the `shutdown` calls at the lock of `reverse_active`, its holder first -/
  reverseLine : List ℕ
  /-- the holder waits for `adb reverse --remove`, for two seconds at most -/
  removing : Bool
  /-- the number of the next call -/
  next : ℕ
  /-- what the calls returned -/
  returned : List (ℕ × CallResult)
  deriving Repr

inductive AdbLabel where
  /-- `accept` is called -/
  | accept
  /-- `shutdown` is called -/
  | shutdown
  /-- the holder of the listener's lock is polled -/
  | pollListener
  /-- `listener.accept()` returns a client, or the error of the socket -/
  | client (r : Except String String)
  /-- the holder of the lock of `reverse_active` is polled -/
  | pollReverse
  /-- `adb` has removed the rule, or the two seconds are over -/
  | removed
  /-- the future of a call is dropped -/
  | drop (id : ℕ)

/-- The step needs nobody but the executor and its timers. -/
def AdbLabel.Internal : AdbLabel → Prop
  | pollListener | pollReverse | removed => True
  | accept | shutdown | client _ | drop _ => False

namespace AdbTransport

/-- As `bind_with_adb` returns it. -/
def bound : AdbTransport where
  listener := true
  reverse_active := true
  listenerLine := []
  accepting := false
  reverseLine := []
  removing := false
  next := 0
  returned := []

def shutDownError : AcceptError := .notConnected "transport already shut down"

/-- The result of `accept` for what `listener.accept()` returned. -/
def acceptResult : Except String String → Except AcceptError String
  | .ok peer => .ok s!"adb:{peer}"
  | .error message => .error (.io message)

def pollListener (s : AdbTransport) : AdbTransport :=
  match s.listenerLine with
  | [] => s
  | .accept id :: line =>
      if s.listener then { s with accepting := true }
      else { s with listenerLine := line,
                    returned := s.returned ++ [(id, .accept (.error shutDownError))] }
  | .shutdown id :: line =>
      { s with listener := false, listenerLine := line, reverseLine := s.reverseLine ++ [id] }

def client (s : AdbTransport) (r : Except String String) : AdbTransport :=
  match s.accepting, s.listenerLine with
  | true, .accept id :: line =>
      { s with accepting := false, listenerLine := line,
               returned := s.returned ++ [(id, .accept (acceptResult r))] }
  | _, _ => s

def pollReverse (s : AdbTransport) : AdbTransport :=
  match s.reverseLine with
  | [] => s
  | id :: line =>
      if s.reverse_active then { s with removing := true }
      else { s with reverseLine := line, returned := s.returned ++ [(id, .shutdown)] }

def removed (s : AdbTransport) : AdbTransport :=
  match s.removing, s.reverseLine with
  | true, id :: line =>
      { s with removing := false, reverse_active := false, reverseLine := line,
               returned := s.returned ++ [(id, .shutdown)] }
  | _, _ => s

/-- The call leaves its line, and what it held goes to the next. -/
def dropCall (s : AdbTransport) (id : ℕ) : AdbTransport :=
  { s with
    accepting := s.accepting && decide (s.listenerLine.head?.map ListenerCall.id ≠ some id)
    listenerLine := s.listenerLine.filter fun c => c.id ≠ id
    removing := s.removing && decide (s.reverseLine.head? ≠ some id)
    reverseLine := s.reverseLine.filter fun i => i ≠ id }

def step (s : AdbTransport) : AdbLabel → AdbTransport
  | .accept => { s with listenerLine := s.listenerLine ++ [.accept s.next], next := s.next + 1 }
  | .shutdown => { s with listenerLine := s.listenerLine ++ [.shutdown s.next], next := s.next + 1 }
  | .pollListener => s.pollListener
  | .client r => s.client r
  | .pollReverse => s.pollReverse
  | .removed => s.removed
  | .drop id => s.dropCall id

/-- The executor alone can bring the transport to a state with `P`. -/
def Comes (s : AdbTransport) (P : AdbTransport → Prop) : Prop :=
  ∃ ls : List AdbLabel, (∀ l ∈ ls, l.Internal) ∧ P (ls.foldl step s)

/-- `shutdown` was called: it has dropped the listener, or is in line to. -/
def ShutdownCalled (s : AdbTransport) : Prop :=
  s.listener = false ∨ ∃ id, .shutdown id ∈ s.listenerLine

/-- **The promise of `shutdown`.**  Once it is called, the executor alone takes each `shutdown` through
its next lock, and lets each pending `accept` return an error. -/
def Unblocked (s : AdbTransport) : Prop :=
  s.ShutdownCalled →
    (∀ id, .shutdown id ∈ s.listenerLine → s.Comes fun s' => .shutdown id ∉ s'.listenerLine) ∧
    (∀ id ∈ s.reverseLine, s.Comes fun s' => id ∉ s'.reverseLine) ∧
    ∀ id, .accept id ∈ s.listenerLine →
      s.Comes fun s' => (id, .accept (.error shutDownError)) ∈ s'.returned

/-! ### What blocks -/

/-- The first of the line is an `accept`, and a `shutdown` is behind it. -/
def Blocks (line : List ListenerCall) : Prop :=
  (∃ c, line.head? = some c ∧ c.isAccept) ∧ ∃ id, .shutdown id ∈ line

/-- The holder of the lock waits for a client, and a `shutdown` waits for the lock. -/
def Stuck (s : AdbTransport) : Prop := s.listener = true ∧ Blocks s.listenerLine

variable {s : AdbTransport}

/-- The executor cannot move the line while its first waits for a client. -/
theorem pollListener_of_accept {id : ℕ} {line : List ListenerCall} (hup : s.listener = true)
    (hline : s.listenerLine = .accept id :: line) : s.pollListener = { s with accepting := true } := by
  unfold pollListener
  rw [hline]
  exact if_pos hup

theorem pollReverse_line (s : AdbTransport) :
    s.pollReverse.listener = s.listener ∧ s.pollReverse.listenerLine = s.listenerLine := by
  unfold pollReverse
  cases s.reverseLine with
  | nil => exact ⟨rfl, rfl⟩
  | cons id line => cases s.reverse_active <;> exact ⟨rfl, rfl⟩

theorem removed_line (s : AdbTransport) :
    s.removed.listener = s.listener ∧ s.removed.listenerLine = s.listenerLine := by
  unfold removed
  split
  · exact ⟨rfl, rfl⟩
  · exact ⟨rfl, rfl⟩

/-- The two ends of the line that an executor's step leaves as they are. -/
theorem step_of_accept {id : ℕ} {line : List ListenerCall} (hup : s.listener = true)
    (hline : s.listenerLine = .accept id :: line) {l : AdbLabel} (hl : l.Internal) :
    (s.step l).listener = true ∧ (s.step l).listenerLine = .accept id :: line := by
  cases l with
  | pollListener =>
      show s.pollListener.listener = true ∧ s.pollListener.listenerLine = _
      rw [pollListener_of_accept hup hline]
      exact ⟨hup, hline⟩
  | pollReverse =>
      obtain ⟨h, h'⟩ := s.pollReverse_line
      exact ⟨h.trans hup, h'.trans hline⟩
  | removed =>
      obtain ⟨h, h'⟩ := s.removed_line
      exact ⟨h.trans hup, h'.trans hline⟩
  | accept | shutdown | client r | drop id => cases hl

/-- **A stuck line stays.** -/
theorem run_of_accept {id : ℕ} {line : List ListenerCall} {ls : List AdbLabel}
    (hls : ∀ l ∈ ls, AdbLabel.Internal l) (hup : s.listener = true)
    (hline : s.listenerLine = .accept id :: line) :
    (ls.foldl step s).listener = true ∧ (ls.foldl step s).listenerLine = .accept id :: line := by
  induction ls generalizing s with
  | nil => exact ⟨hup, hline⟩
  | cons l ls ih =>
      obtain ⟨hup', hline'⟩ := step_of_accept hup hline (hls l List.mem_cons_self)
      exact ih (fun l' h => hls l' (List.mem_cons_of_mem l h)) hup' hline'

theorem Stuck.not_unblocked (h : s.Stuck) : ¬ s.Unblocked := by
  obtain ⟨hup, ⟨c, hhead, haccept⟩, id, hid⟩ := h
  intro hun
  obtain ⟨ls, hls, hgone⟩ := (hun (Or.inr ⟨id, hid⟩)).1 id hid
  cases c with
  | shutdown k => cases haccept
  | accept k =>
      obtain ⟨line, hline⟩ := List.head?_eq_some_iff.1 hhead
      apply hgone
      rw [(run_of_accept hls hup hline).2, ← hline]
      exact hid

/-! ### What the executor gets through -/

theorem Comes.here {P : AdbTransport → Prop} (h : P s) : s.Comes P := ⟨[], by simp, h⟩

theorem Comes.step {P : AdbTransport → Prop} {l : AdbLabel} (hl : l.Internal) (h : (s.step l).Comes P) :
    s.Comes P := by
  obtain ⟨ls, hls, hP⟩ := h
  refine ⟨l :: ls, fun l' hl' => ?_, hP⟩
  rcases List.mem_cons.1 hl' with rfl | hl'
  · exact hl
  · exact hls l' hl'

theorem Comes.imp {P Q : AdbTransport → Prop} (h : s.Comes P) (hPQ : ∀ s', P s' → Q s') : s.Comes Q := by
  obtain ⟨ls, hls, hP⟩ := h
  exact ⟨ls, hls, hPQ _ hP⟩

/-- The line of the listener is gone, and each `accept` of `calls` has returned the error. -/
structure Drained (calls : List ListenerCall) (returned : List (ℕ × CallResult)) (s' : AdbTransport) :
    Prop where
  line : s'.listenerLine = []
  kept : returned ⊆ s'.returned
  failed : ∀ id, .accept id ∈ calls → (id, .accept (.error shutDownError)) ∈ s'.returned

/-- The first of the line leaves it when it is polled without the listener, or is a `shutdown`. -/
theorem pollListener_pops {c : ListenerCall} {line : List ListenerCall} (hline : s.listenerLine = c :: line)
    (h : s.listener = false ∨ c.isAccept = false) :
    s.pollListener.listener = false ∧ s.pollListener.listenerLine = line ∧
      s.returned ⊆ s.pollListener.returned ∧
      ∀ id, c = .accept id → (id, .accept (.error shutDownError)) ∈ s.pollListener.returned := by
  unfold pollListener
  rw [hline]
  cases c with
  | accept id =>
      rcases h with hdown | hcall
      · rw [hdown]
        refine ⟨rfl, rfl, List.subset_append_left _ _, fun k hk => ?_⟩
        cases hk
        exact List.mem_append_right _ List.mem_cons_self
      · cases hcall
  | shutdown id => exact ⟨rfl, rfl, fun _ hr => hr, fun k hk => by cases hk⟩

/-- The executor empties the line, unless an `accept` waits for a client at its head. -/
theorem comes_drained {line : List ListenerCall} (hline : s.listenerLine = line)
    (h : s.listener = false ∨ ∀ c, line.head? = some c → c.isAccept = false) :
    s.Comes (Drained line s.returned) := by
  induction line generalizing s with
  | nil => exact Comes.here ⟨hline, fun _ hr => hr, by simp⟩
  | cons c line ih =>
      obtain ⟨hdown, hrest, hkept, hfailed⟩ :=
        pollListener_pops hline (h.imp id fun hhead => hhead c rfl)
      apply Comes.step (l := .pollListener) trivial
      refine (ih (s := s.pollListener) hrest (Or.inl hdown)).imp ?_
      rintro s' ⟨hnil, hkept', hfailed'⟩
      refine ⟨hnil, fun r hr => hkept' (hkept hr), fun k hk => ?_⟩
      rcases List.mem_cons.1 hk with hk | hk
      · exact hkept' (hfailed k hk.symm)
      · exact hfailed' k hk

/-- A poll of the second lock and the end of the removal take its holder out. -/
theorem reverse_shorter {id : ℕ} {line : List ℕ} (hline : s.reverseLine = id :: line) :
    s.pollReverse.removed.reverseLine.length ≤ line.length := by
  unfold pollReverse
  rw [hline]
  cases s.reverse_active with
  | true => simp [removed]
  | false =>
      simp only [Bool.false_eq_true, if_false, removed]
      cases s.removing with
      | false => simp
      | true =>
          cases line with
          | nil => simp
          | cons k line => simp

theorem comes_reverse_nil (n : ℕ) (h : s.reverseLine.length ≤ n) :
    s.Comes fun s' => s'.reverseLine = [] := by
  induction n generalizing s with
  | zero => exact Comes.here (List.length_eq_zero_iff.1 (Nat.le_zero.1 h))
  | succ n ih =>
      cases hline : s.reverseLine with
      | nil => exact Comes.here hline
      | cons id line =>
          have hshorter := reverse_shorter hline
          rw [hline, List.length_cons] at h
          apply Comes.step (l := .pollReverse) trivial
          apply Comes.step (l := .removed) trivial
          exact ih (s := s.pollReverse.removed) (by omega)

theorem unblocked_of_not_stuck (h : ¬ s.Stuck) : s.Unblocked := by
  intro hcalled
  have hdrained : s.Comes (Drained s.listenerLine s.returned) := by
    apply comes_drained rfl
    rcases hcalled with hdown | hid
    · exact Or.inl hdown
    · cases hup : s.listener with
      | false => exact Or.inl rfl
      | true =>
          refine Or.inr fun c hc => ?_
          rw [← Bool.not_eq_true]
          exact fun haccept => h ⟨hup, ⟨c, hc, haccept⟩, hid⟩
  refine ⟨fun id _ => ?_, fun id _ => ?_, fun id hid => ?_⟩
  · refine hdrained.imp fun s' hs' => ?_
    rw [hs'.line]
    exact List.not_mem_nil
  · refine (comes_reverse_nil s.reverseLine.length (Nat.le_refl _)).imp fun s' hs' => ?_
    rw [hs']
    exact List.not_mem_nil
  · exact hdrained.imp fun s' hs' => hs'.failed id hid

/-- **What blocks a shutdown, exactly.** -/
theorem unblocked_iff_not_stuck : s.Unblocked ↔ ¬ s.Stuck :=
  ⟨fun h hstuck => hstuck.not_unblocked h, unblocked_of_not_stuck⟩

/-! ### Runs -/

/-- **The steps that block nobody.**  No `shutdown` is called while an `accept` is at the head of the line and
the listener is there; and no call is dropped whose leaving brings an `accept` to the head of the line with a
`shutdown` behind it. -/
def Clear (s : AdbTransport) : AdbLabel → Prop
  | .shutdown => s.listener = true → ∀ c, s.listenerLine.head? = some c → c.isAccept = false
  | .drop id => s.listener = true → ¬ Blocks (s.listenerLine.filter fun c => c.id ≠ id)
  | _ => True

/-- A call that joins the line is behind the others. -/
theorem blocks_append {line : List ListenerCall} {c : ListenerCall} (h : ¬ Blocks line) :
    Blocks (line ++ [c]) ↔ (∃ d, line.head? = some d ∧ d.isAccept) ∧ c.isAccept = false := by
  constructor
  · rintro ⟨⟨d, hhead, haccept⟩, id, hid⟩
    cases line with
    | nil =>
        obtain rfl : c = d := Option.some.inj hhead
        rw [List.nil_append, List.mem_singleton] at hid
        rw [← hid] at haccept
        cases haccept
    | cons e line =>
        have hfirst : ∃ d, (e :: line).head? = some d ∧ d.isAccept := ⟨d, hhead, haccept⟩
        refine ⟨hfirst, ?_⟩
        rcases List.mem_append.1 hid with hid | hid
        · exact absurd ⟨hfirst, id, hid⟩ h
        · rw [← List.mem_singleton.1 hid]
          rfl
  · rintro ⟨⟨d, hhead, haccept⟩, hc⟩
    cases c with
    | accept k => cases hc
    | shutdown k =>
        refine ⟨⟨d, ?_, haccept⟩, k, List.mem_append_right line List.mem_cons_self⟩
        rw [List.head?_append, hhead]
        rfl

/-- The line behind an `accept` that may go has no `shutdown`. -/
theorem Stuck.of_tail {c : ListenerCall} {line : List ListenerCall} (hline : s.listenerLine = c :: line)
    (hc : c.isAccept) (hup : s.listener = true) (h : Blocks line) : s.Stuck := by
  obtain ⟨-, id, hid⟩ := h
  exact ⟨hup, ⟨c, by rw [hline]; rfl, hc⟩, id, by rw [hline]; exact List.mem_cons_of_mem c hid⟩

theorem not_stuck_pollListener (h : ¬ s.Stuck) : ¬ s.pollListener.Stuck := by
  cases hline : s.listenerLine with
  | nil =>
      unfold pollListener
      rw [hline]
      exact h
  | cons c line =>
      by_cases hwaits : s.listener = true ∧ c.isAccept = true
      · cases c with
        | shutdown id => cases hwaits.2
        | accept id =>
            rw [pollListener_of_accept hwaits.1 hline]
            exact h
      · have hpops : s.listener = false ∨ c.isAccept = false := by
          cases hup : s.listener with
          | false => exact Or.inl rfl
          | true => exact Or.inr (by simpa [hup] using hwaits)
        rintro ⟨hup, -⟩
        rw [(pollListener_pops hline hpops).1] at hup
        cases hup

theorem not_stuck_client (h : ¬ s.Stuck) (r : Except String String) : ¬ (s.client r).Stuck := by
  unfold client
  split
  · rename_i id line _ hline
    exact fun hstuck => h (Stuck.of_tail hline rfl hstuck.1 hstuck.2)
  · exact h

/-- **The step lemma.** -/
theorem step_unblocked_iff (h : s.Unblocked) (l : AdbLabel) : (s.step l).Unblocked ↔ s.Clear l := by
  rw [unblocked_iff_not_stuck] at h ⊢
  cases l with
  | accept =>
      refine iff_of_true ?_ trivial
      rintro ⟨hup, hblocks⟩
      rcases (Classical.em (Blocks s.listenerLine)) with hb | hb
      · exact h ⟨hup, hb⟩
      · exact absurd ((blocks_append hb).1 hblocks).2 (by simp [ListenerCall.isAccept])
  | shutdown =>
      constructor
      · intro hnot hup c hhead
        rw [← Bool.not_eq_true]
        intro hc
        exact hnot ⟨hup, (blocks_append fun hb => h ⟨hup, hb⟩).2 ⟨⟨c, hhead, hc⟩, rfl⟩⟩
      · rintro hclear ⟨hup, hblocks⟩
        obtain ⟨⟨c, hhead, hc⟩, -⟩ := (blocks_append fun hb => h ⟨hup, hb⟩).1 hblocks
        rw [hclear hup c hhead] at hc
        cases hc
  | pollListener => exact iff_of_true (not_stuck_pollListener h) trivial
  | client r => exact iff_of_true (not_stuck_client h r) trivial
  | pollReverse =>
      obtain ⟨hup, hline⟩ := s.pollReverse_line
      refine iff_of_true (fun hstuck => h ?_) trivial
      exact ⟨hup.symm.trans hstuck.1, hline ▸ hstuck.2⟩
  | removed =>
      obtain ⟨hup, hline⟩ := s.removed_line
      refine iff_of_true (fun hstuck => h ?_) trivial
      exact ⟨hup.symm.trans hstuck.1, hline ▸ hstuck.2⟩
  | drop id =>
      show ¬ (_ ∧ _) ↔ (_ → ¬ _)
      rw [not_and]
      exact Iff.rfl

theorem bound_unblocked : bound.Unblocked := by
  rw [unblocked_iff_not_stuck]
  rintro ⟨-, -, id, hid⟩
  cases hid

/-- **Shutdown and a pending accept.**  In every interleaving of calls of one transport the promise of
`shutdown` is kept in every state just when every step is clear. -/
theorem shutdown_unblocked_iff (ls : List AdbLabel) :
    (∀ pre, pre <+: ls → (pre.foldl step bound).Unblocked) ↔ Run.Steps step Clear bound ls :=
  Run.always_iff (I := Unblocked) (fun _ l h => step_unblocked_iff h l) bound_unblocked

/-- **The pending accept.**  An `accept` has the lock and waits for a client; the `shutdown` called behind it
waits for the lock. -/
theorem shutdown_behind_accept :
    ¬ ∀ pre, pre <+: [AdbLabel.accept, .pollListener, .shutdown] →
      (pre.foldl step bound).Unblocked := by
  intro h
  have hall := h [.accept, .pollListener, .shutdown] (List.prefix_refl _)
  rw [unblocked_iff_not_stuck] at hall
  exact hall ⟨rfl, ⟨.accept 0, rfl, rfl⟩, 1, by decide⟩

/-- The tear-down of the service: it drops the session with the pending `accept`, and then calls `shutdown`. -/
theorem teardown_unblocked {id : ℕ} (h : s.Unblocked) (hline : s.listenerLine = [.accept id]) :
    ((s.step (.drop id)).step .shutdown).Unblocked := by
  have hnil : (s.step (.drop id)).listenerLine = [] := by
    show s.listenerLine.filter _ = []
    rw [hline]
    simp [ListenerCall.id]
  have hdrop : (s.step (.drop id)).Unblocked := by
    refine (step_unblocked_iff h (.drop id)).2 fun _ hblocks => ?_
    obtain ⟨-, k, hk⟩ := hblocks
    rw [hline] at hk
    simp at hk
  refine (step_unblocked_iff hdrop .shutdown).2 fun _ c hc => ?_
  rw [hnil] at hc
  cases hc

end AdbTransport

end Penflow
