import Penflow.Core.Outcome
import Penflow.Inject.Windows

/-!
# The injector and its calls

`InputInjector` is the state of the injector, and `InjectM` a method on it: it reads and writes the
state, makes Windows calls, and may end early with a fault, which undoes nothing.  A `World` is the
state together with the log of the calls made so far and their verdicts.
-/

namespace Penflow

/-- The VMulti device and the buffer its reports are built in. -/
structure VMultiPen where
  buf : List UInt8
  deriving DecidableEq, Repr

structure InputInjector where
  last_pen_eraser : Bool
  last_pen_in_range : Bool
  last_pen_in_contact : Bool
  pen_profile : PenButtonProfile
  last_pen_buttons : UInt8
  pen_eraser_sticky : Bool
  last_touch_pos : List (UInt32 × ℤ × ℤ)
  vmulti : Option VMultiPen
  deriving DecidableEq, Repr

/-- `REPORT_BUF_LEN` -/
def reportBufLen : ℕ := 65

/-- `InputInjector::new`, when both pointer devices could be created; `found` says whether the VMulti
device was found. -/
def InputInjector.new (found : Bool) : InputInjector where
  last_pen_eraser := false
  last_pen_in_range := false
  last_pen_in_contact := false
  pen_profile := .default
  last_pen_buttons := 0
  pen_eraser_sticky := false
  last_touch_pos := []
  vmulti := if found then some ⟨List.replicate reportBufLen 0⟩ else none

structure World where
  inj : InputInjector
  log : List (OsCall × Bool)
  deriving DecidableEq, Repr

/-- Before the first call. -/
def World.new (found : Bool) : World := ⟨.new found, []⟩

/-! ### Methods -/

/-- A method of the injector. -/
abbrev InjectM := ExceptT Fault (StateM World)

namespace InjectM

variable {α β : Type}

/-- What a method returns, and the world behind it. -/
def exec (m : InjectM α) (w : World) : Outcome α × World := m.run.run w

/-- `self` -/
def self : InjectM InputInjector := do
  let w ← get
  pure w.inj

def update (f : InputInjector → InputInjector) : InjectM Unit := modify fun w => { w with inj := f w.inj }

def ofOutcome (x : Outcome α) : InjectM α := ExceptT.mk (pure x)

variable [Windows]

/-- What `GetSystemMetrics` says at this point. -/
def virtualScreen : InjectM VirtualScreen := do
  let w ← get
  pure (Windows.screen w.log.length)

/-- Make a call, and return whether Windows accepted it. -/
def call (c : OsCall) : InjectM Bool := do
  let w ← get
  let accepted := Windows.accepts w.log.length c
  set { w with log := w.log ++ [(c, accepted)] }
  pure accepted

/-- A call whose failure is returned as `EngineError::Win32`. -/
def callOk (c : OsCall) : InjectM Unit := do
  if ← call c then pure () else throw (.err .win32)

end InjectM

open InjectM

section Rules

variable {α β : Type}

theorem exec_bind (m : InjectM α) (f : α → InjectM β) (w : World) :
    exec (m >>= f) w =
      match exec m w with
      | (.ok a, w') => exec (f a) w'
      | (.error e, w') => (.error e, w') := by
  show (match exec m w with
    | (x, w') => (ExceptT.bindCont f x).run w') = _
  rcases exec m w with ⟨e | a, w'⟩
  · rfl
  · rfl

/-- A method goes on behind a part that returned. -/
theorem exec_bind_of_ok {m : InjectM α} {f : α → InjectM β} {w w' : World} {a : α}
    (h : exec m w = (.ok a, w')) : exec (m >>= f) w = exec (f a) w' := by
  rw [exec_bind, h]

/-- A fault ends the method. -/
theorem exec_bind_of_error {m : InjectM α} {f : α → InjectM β} {w w' : World} {e : Fault}
    (h : exec m w = (.error e, w')) : exec (m >>= f) w = (.error e, w') := by
  rw [exec_bind, h]

@[simp]
theorem exec_self (w : World) : exec self w = (.ok w.inj, w) := rfl

@[simp]
theorem exec_get (w : World) : exec get w = (.ok w, w) := rfl

@[simp]
theorem exec_update (f : InputInjector → InputInjector) (w : World) :
    exec (update f) w = (.ok (), { w with inj := f w.inj }) := rfl

@[simp]
theorem exec_ofOutcome (x : Outcome α) (w : World) : exec (ofOutcome x) w = (x, w) := rfl

/-- A loop whose body always returns. -/
theorem exec_forM {l : List α} {m : α → InjectM Unit} {f : World → α → World}
    (h : ∀ w, ∀ a ∈ l, exec (m a) w = (.ok (), f w a)) (w : World) :
    exec (l.forM m) w = (.ok (), l.foldl f w) := by
  induction l generalizing w with
  | nil => rfl
  | cons a l ih =>
      show exec (m a >>= fun _ => l.forM m) w = _
      rw [exec_bind_of_ok (h w a List.mem_cons_self)]
      exact ih (fun w b hb => h w b (List.mem_cons_of_mem a hb)) (f w a)

/-- Whatever a method returns, the world behind it is in relation `R` to the one before. -/
def Respects (R : World → World → Prop) (m : InjectM α) : Prop := ∀ w, R w (exec m w).2

theorem respects_of_same {R : World → World → Prop} (hrefl : ∀ w, R w w) {m : InjectM α}
    (h : ∀ w, (exec m w).2 = w) : Respects R m := by
  intro w
  rw [h w]
  exact hrefl w

theorem Respects.bind {R : World → World → Prop} (htrans : ∀ u v w, R u v → R v w → R u w)
    {m : InjectM α} {f : α → InjectM β} (hm : Respects R m) (hf : ∀ a, Respects R (f a)) :
    Respects R (m >>= f) := by
  intro w
  have h := hm w
  rw [exec_bind]
  generalize exec m w = x at h ⊢
  obtain ⟨e | a, w'⟩ := x
  · exact h
  · exact htrans _ _ _ h (hf a w')

variable [Windows]

@[simp]
theorem exec_virtualScreen (w : World) :
    exec virtualScreen w = (.ok (Windows.screen w.log.length), w) := rfl

/-- The world after a call. -/
def World.after (w : World) (c : OsCall) : World :=
  { w with log := w.log ++ [(c, Windows.accepts w.log.length c)] }

@[simp]
theorem exec_call (c : OsCall) (w : World) :
    exec (call c) w = (.ok (Windows.accepts w.log.length c), w.after c) := rfl

theorem exec_callOk (c : OsCall) (w : World) :
    exec (callOk c) w =
      (if Windows.accepts w.log.length c then .ok () else .error (.err .win32), w.after c) := by
  rw [callOk, exec_bind_of_ok (exec_call c w)]
  cases Windows.accepts w.log.length c with
  | true => rfl
  | false => rfl

end Rules

end Penflow
