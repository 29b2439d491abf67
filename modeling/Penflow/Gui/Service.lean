import Mathlib.Data.List.Basic
import Penflow.Lib.Run

/-!
# The service of the GUI

`start` spawns the accept loop, `stop` cancels it and waits for it with a timeout, and the loop spawns an
event pump for each session; all of them write `last_state` under the lock of `inner`, which `stop` holds
while it waits.  A step of the machine is what one of them does up to the next point where another may come
in between.

A task whose handle is dropped goes on.  An abort takes effect when the task is polled again: a task that
is being polled goes on to its next suspension.
-/

namespace Penflow

inductive ServiceState where
  | stopped
  | preparing
  | listening
  | connecting (peer : String)
  | connected (peer : String) (device_width device_height : UInt16)
  | disconnected
  | error (message : String)
  deriving DecidableEq, Repr

inductive SessionEvent where
  | connecting (peer : String)
  | connected (peer : String) (device_width device_height : UInt16)
  | disconnected
  | errored (message : String)
  deriving DecidableEq, Repr

def translateEvent : SessionEvent → ServiceState
  | .connecting peer => .connecting peer
  | .connected peer device_width device_height => .connected peer device_width device_height
  | .disconnected => .disconnected
  | .errored message => .error message

/-- Where the accept loop is. -/
inductive LoopPhase where
  /-- at the head of the loop -/
  | head
  /-- in `emit`, in front of the lock -/
  | locking (state : ServiceState) (next : LoopPhase)
  /-- in `emit`, behind the lock -/
  | sending (state : ServiceState) (next : LoopPhase)
  /-- in `bind_with_adb` -/
  | binding
  /-- in the `select!` behind a failed `bind_with_adb` -/
  | backoff
  /-- in `build_session_config` -/
  | building
  /-- in the `select!` over the session -/
  | running (pump : ℕ)
  /-- cancelled, and waiting for the session to finish -/
  | finishing (pump : ℕ)
  /-- cancelled, in `transport.shutdown` -/
  | shuttingDown (pump : ℕ)
  /-- behind a session that ended on its own -/
  | tearDown (pump : ℕ)
  /-- in `transport.shutdown` behind it -/
  | closing
  /-- in the `select!` at the end of the loop -/
  | coolOff
  | ended
  deriving DecidableEq, Repr

structure AcceptLoop where
  phase : LoopPhase
  /-- `cancel` was sent -/
  cancelled : Bool
  deriving DecidableEq, Repr

/-- Where an event pump is. -/
inductive PumpPlace where
  /-- at `rx.recv()` -/
  | receiving
  /-- in `emit`, in front of the lock -/
  | locking (state : ServiceState)
  /-- in `emit`, behind the lock -/
  | sending (state : ServiceState)
  | ended
  deriving DecidableEq, Repr

structure EventPump where
  place : PumpPlace
  /-- a worker thread is in its `poll` -/
  polled : Bool
  aborted : Bool
  deriving DecidableEq, Repr

structure Service where
  /-- the accept loop of `inner.task` -/
  task : Option ℕ
  last_state : ServiceState
  /-- the running `stop`, which holds the lock, and the loop it waits for -/
  stopping : Option (Option ℕ)
  /-- all accept loops ever spawned -/
  loops : List AcceptLoop
  pumps : List EventPump
  /-- all states that were broadcast -/
  events : List ServiceState
  /-- those since `stop` returned, when no `start` came after it -/
  sinceStop : Option (List ServiceState)
  deriving DecidableEq, Repr

/-- How an await of the accept loop ends. -/
inductive LoopAnswer where
  | ok
  | err (message : String)
  /-- the sleep of a `select!` is over -/
  | elapsed
  /-- the cancel of a `select!` is there -/
  | cancel
  deriving DecidableEq, Repr

inductive ServiceLabel where
  | start
  /-- `stop` gets the lock -/
  | stopBegin
  /-- `stop` is through with its wait, and returns -/
  | stopEnd (timed_out : Bool)
  | loopTurn (i : ℕ) (a : LoopAnswer)
  | loopPanics (i : ℕ)
  /-- a worker thread begins to poll an event pump -/
  | pumpPoll (i : ℕ)
  /-- the pump suspends -/
  | pumpYield (i : ℕ)
  | pumpRecv (i : ℕ) (ev : SessionEvent)
  /-- the channel of the pump is closed -/
  | pumpClosed (i : ℕ)
  /-- the pump writes `last_state` -/
  | pumpWrite (i : ℕ)
  | pumpSend (i : ℕ)
  deriving DecidableEq, Repr

namespace Service

def new : Service where
  task := none
  last_state := .stopped
  stopping := none
  loops := []
  pumps := []
  events := []
  sinceStop := none

/-! ### Calls -/

/-- `events.send` -/
def broadcast (s : Service) (state : ServiceState) : Service :=
  { s with
    events := s.events ++ [state]
    sinceStop := s.sinceStop.map fun events => events ++ [state] }

def start (s : Service) : Service :=
  match s.stopping, s.task with
  | none, none =>
    { s with
      loops := s.loops ++ [⟨.head, false⟩]
      task := some s.loops.length
      sinceStop := none }
  | _, _ => s

/-- `cancel.send` -/
def cancel (s : Service) : Option ℕ → Service
  | some i => { s with loops := s.loops.modify i fun l => { l with cancelled := true } }
  | none => s

def stopBegin (s : Service) : Service :=
  match s.stopping with
  | none => { s.cancel s.task with stopping := some s.task, task := none }
  | some _ => s

/-- The loop has not ended. -/
def isAlive (s : Service) (i : ℕ) : Bool := s.loops[i]?.any fun l => l.phase ≠ .ended

/-- The wait of `stop` is over: there is no task, it has ended, or the timeout is. -/
def waitOver (s : Service) (waiting : Option ℕ) (timed_out : Bool) : Bool :=
  timed_out || waiting.all fun i => !s.isAlive i

def stopEnd (s : Service) (timed_out : Bool) : Service :=
  match s.stopping with
  | some waiting =>
    if s.waitOver waiting timed_out then
      { s.broadcast .stopped with
        last_state := .stopped
        stopping := none
        sinceStop := some [] }
    else s
  | none => s

/-! ### The accept loop -/

def toPhase (s : Service) (i : ℕ) (phase : LoopPhase) : Service :=
  { s with loops := s.loops.modify i fun l => { l with phase := phase } }

/-- `event_pump.abort()` -/
def abort (s : Service) (pump : ℕ) : Service :=
  { s with pumps := s.pumps.modify pump fun p => { p with aborted := true } }

/-- A `select!` of a sleep and the cancel. -/
def selectSleep (s : Service) (i : ℕ) (l : AcceptLoop) : LoopAnswer → Service
  | .elapsed => s.toPhase i .head
  | .cancel => if l.cancelled then s.toPhase i .ended else s
  | _ => s

/-- The `select!` over the session and the cancel. -/
def selectSession (s : Service) (i : ℕ) (l : AcceptLoop) (pump : ℕ) : LoopAnswer → Service
  | .ok => s.toPhase i (.locking .disconnected (.tearDown pump))
  | .err message => s.toPhase i (.locking (.error ("session: " ++ message)) (.tearDown pump))
  | .cancel => if l.cancelled then s.toPhase i (.finishing pump) else s
  | .elapsed => s

def bindWithAdb (s : Service) (i : ℕ) : LoopAnswer → Service
  | .ok => s.toPhase i (.locking .listening .building)
  | .err message => s.toPhase i (.locking (.error ("adb reverse failed: " ++ message)) .backoff)
  | _ => s

/-- What the accept loop does next. -/
def runAcceptLoop (s : Service) (i : ℕ) (l : AcceptLoop) (a : LoopAnswer) : Service :=
  match l.phase with
  | .head => s.toPhase i (if l.cancelled then .ended else .locking .preparing .binding)
  | .locking state next =>
    if s.stopping = none then { s.toPhase i (.sending state next) with last_state := state } else s
  | .sending state next => (s.toPhase i next).broadcast state
  | .binding => s.bindWithAdb i a
  | .backoff => s.selectSleep i l a
  | .building =>
    { s.toPhase i (.running s.pumps.length) with pumps := s.pumps ++ [⟨.receiving, false, false⟩] }
  | .running pump => s.selectSession i l pump a
  | .finishing pump => s.toPhase i (.shuttingDown pump)
  | .shuttingDown pump => (s.toPhase i .ended).abort pump
  | .tearDown pump => (s.toPhase i .closing).abort pump
  | .closing => s.toPhase i .coolOff
  | .coolOff => s.selectSleep i l a
  | .ended => s

def loopTurn (s : Service) (i : ℕ) (a : LoopAnswer) : Service :=
  match s.loops[i]? with
  | some l => s.runAcceptLoop i l a
  | none => s

/-! ### The event pump -/

def setPump (s : Service) (i : ℕ) (p : EventPump) : Service := { s with pumps := s.pumps.set i p }

/-- An aborted task ends instead of being polled. -/
def pumpPoll (s : Service) (i : ℕ) (p : EventPump) : Service :=
  if p.place = .ended ∨ p.polled then s
  else if p.aborted then s.setPump i { p with place := .ended }
  else s.setPump i { p with polled := true }

/-- The pump suspends where it has to wait; if it is aborted, it ends. -/
def suspend (s : Service) (i : ℕ) (p : EventPump) : Service :=
  s.setPump i { p with polled := false, place := if p.aborted then .ended else p.place }

def pumpYield (s : Service) (i : ℕ) (p : EventPump) : Service :=
  match p.polled, p.place with
  | true, .receiving => s.suspend i p
  | true, .locking _ => s.suspend i p
  | _, _ => s

def pumpRecv (s : Service) (i : ℕ) (p : EventPump) (ev : SessionEvent) : Service :=
  match p.polled, p.place with
  | true, .receiving => s.setPump i { p with place := .locking (translateEvent ev) }
  | _, _ => s

def pumpClosed (s : Service) (i : ℕ) (p : EventPump) : Service :=
  match p.polled, p.place with
  | true, .receiving => s.setPump i { p with polled := false, place := .ended }
  | _, _ => s

def pumpWrite (s : Service) (i : ℕ) (p : EventPump) : Service :=
  match p.polled, p.place with
  | true, .locking state =>
    if s.stopping = none then
      { s.setPump i { p with place := .sending state } with last_state := state }
    else s
  | _, _ => s

def pumpSend (s : Service) (i : ℕ) (p : EventPump) : Service :=
  match p.polled, p.place with
  | true, .sending state => (s.setPump i { p with place := .receiving }).broadcast state
  | _, _ => s

/-- A step of a pump, if there is one. -/
def onPump (s : Service) (i : ℕ) (f : EventPump → Service) : Service :=
  match s.pumps[i]? with
  | some p => f p
  | none => s

def step (s : Service) : ServiceLabel → Service
  | .start => s.start
  | .stopBegin => s.stopBegin
  | .stopEnd timed_out => s.stopEnd timed_out
  | .loopTurn i a => s.loopTurn i a
  | .loopPanics i => s.toPhase i .ended
  | .pumpPoll i => s.onPump i fun p => s.pumpPoll i p
  | .pumpYield i => s.onPump i fun p => s.pumpYield i p
  | .pumpRecv i ev => s.onPump i fun p => s.pumpRecv i p ev
  | .pumpClosed i => s.onPump i fun p => s.pumpClosed i p
  | .pumpWrite i => s.onPump i fun p => s.pumpWrite i p
  | .pumpSend i => s.onPump i fun p => s.pumpSend i p

end Service

/-! ### Stopped means stopped -/

/-- The pump has ended, or will when it is polled again. -/
def EventPump.Rests (p : EventPump) : Prop := p.place = .ended ∨ p.aborted = true ∧ p.polled = false

instance (p : EventPump) : Decidable p.Rests :=
  inferInstanceAs (Decidable (p.place = .ended ∨ p.aborted = true ∧ p.polled = false))

namespace Service

/-- At most one accept loop is alive, and while the service is stopped its state is `Stopped` and nothing
else is broadcast. -/
structure Calm (s : Service) : Prop where
  oneLoop : ∀ i j, s.isAlive i → s.isAlive j → i = j
  stopped : ∀ events, s.sinceStop = some events →
    s.last_state = .stopped ∧ ∀ state ∈ events, state = .stopped

/-- `stop` returns only when the loop it waits for has ended, and every event pump rests. -/
def Clean (s : Service) : ServiceLabel → Prop
  | .stopEnd timed_out => ∀ waiting ∈ s.stopping, s.waitOver waiting timed_out = true →
      s.waitOver waiting false = true ∧ ∀ p ∈ s.pumps, p.Rests
  | _ => True

instance (s : Service) : ∀ l, Decidable (s.Clean l)
  | .stopEnd timed_out => inferInstanceAs (Decidable (∀ waiting ∈ s.stopping,
      s.waitOver waiting timed_out = true →
        s.waitOver waiting false = true ∧ ∀ p ∈ s.pumps, p.Rests))
  | .start | .stopBegin | .loopTurn _ _ | .loopPanics _ | .pumpPoll _ | .pumpYield _ | .pumpRecv _ _
  | .pumpClosed _ | .pumpWrite _ | .pumpSend _ => inferInstanceAs (Decidable True)

/-- **Who may be alive.**  An accept loop is alive only while `inner` has its handle or `stop` waits for
it; and once `stop` has returned, no loop is and every pump rests. -/
structure Orderly (s : Service) : Prop where
  alive : ∀ i, s.isAlive i → s.task = some i ∨ s.stopping = some (some i)
  taken : ∀ waiting, s.stopping = some waiting → s.task = none
  idle : s.sinceStop.isSome → s.task = none ∧ (s.stopping = none ∨ s.stopping = some none)
  rests : s.sinceStop.isSome → ∀ p ∈ s.pumps, p.Rests
  stopped : ∀ events, s.sinceStop = some events →
    s.last_state = .stopped ∧ ∀ state ∈ events, state = .stopped

theorem orderly_new : new.Orderly where
  alive := nofun
  taken := nofun
  idle := nofun
  rests := nofun
  stopped := nofun

variable {s s' : Service}

theorem Orderly.calm (hs : s.Orderly) : s.Calm where
  oneLoop := by
    intro i j hi hj
    rcases hs.alive i hi with hi | hi
    · rcases hs.alive j hj with hj | hj
      · exact Option.some.inj (hi.symm.trans hj)
      · rw [hs.taken _ hj] at hi
        cases hi
    · rcases hs.alive j hj with hj | hj
      · rw [hs.taken _ hi] at hj
        cases hj
      · exact Option.some.inj (Option.some.inj (hi.symm.trans hj))
  stopped := hs.stopped

/-- No loop is alive while the service is stopped. -/
theorem Orderly.dead (hs : s.Orderly) (hquiet : s.sinceStop.isSome) (i : ℕ) : s.isAlive i = false := by
  obtain ⟨htask, hstopping⟩ := hs.idle hquiet
  cases halive : s.isAlive i with
  | false => rfl
  | true =>
      rcases hs.alive i halive with h | h
      · rw [htask] at h
        cases h
      · rcases hstopping with h' | h'
        · rw [h'] at h
          cases h
        · rw [h'] at h
          cases h

/-! ### Steps of the loop -/

/-- A step of a loop: no loop comes to life, and the handle and the lock stay. -/
structure LoopStep (s s' : Service) : Prop where
  alive : ∀ j, s'.isAlive j → s.isAlive j
  task : s'.task = s.task
  stopping : s'.stopping = s.stopping
  sinceStop : s'.sinceStop.isSome = s.sinceStop.isSome

theorem LoopStep.refl (s : Service) : LoopStep s s := ⟨fun _ h => h, rfl, rfl, rfl⟩

theorem LoopStep.trans {s'' : Service} (h : LoopStep s s') (h' : LoopStep s' s'') :
    LoopStep s s'' where
  alive := fun j hj => h.alive j (h'.alive j hj)
  task := h'.task.trans h.task
  stopping := h'.stopping.trans h.stopping
  sinceStop := h'.sinceStop.trans h.sinceStop

theorem loopStep_toPhase {i : ℕ} (phase : LoopPhase) (hi : s.isAlive i = true) :
    LoopStep s (s.toPhase i phase) where
  alive := by
    intro j hj
    by_cases hij : i = j
    · rw [← hij]
      exact hi
    · simp only [isAlive, toPhase, List.getElem?_modify, if_neg hij, id_map'] at hj ⊢
      exact hj
  task := rfl
  stopping := rfl
  sinceStop := rfl

theorem loopStep_broadcast (state : ServiceState) : LoopStep s (s.broadcast state) where
  alive := fun _ h => h
  task := rfl
  stopping := rfl
  sinceStop := Option.isSome_map

theorem loopStep_abort (pump : ℕ) : LoopStep s (s.abort pump) := ⟨fun _ h => h, rfl, rfl, rfl⟩

theorem loopStep_selectSleep {i : ℕ} (l : AcceptLoop) (a : LoopAnswer) (hi : s.isAlive i = true) :
    LoopStep s (s.selectSleep i l a) := by
  cases a with
  | elapsed => exact loopStep_toPhase _ hi
  | cancel =>
      simp only [selectSleep]
      split
      · exact loopStep_toPhase _ hi
      · exact .refl s
  | ok => exact .refl s
  | err message => exact .refl s

theorem loopStep_selectSession {i : ℕ} (l : AcceptLoop) (pump : ℕ) (a : LoopAnswer)
    (hi : s.isAlive i = true) : LoopStep s (s.selectSession i l pump a) := by
  cases a with
  | ok => exact loopStep_toPhase _ hi
  | err message => exact loopStep_toPhase _ hi
  | cancel =>
      simp only [selectSession]
      split
      · exact loopStep_toPhase _ hi
      · exact .refl s
  | elapsed => exact .refl s

theorem loopStep_bindWithAdb {i : ℕ} (a : LoopAnswer) (hi : s.isAlive i = true) :
    LoopStep s (s.bindWithAdb i a) := by
  cases a with
  | ok => exact loopStep_toPhase _ hi
  | err message => exact loopStep_toPhase _ hi
  | elapsed => exact .refl s
  | cancel => exact .refl s

theorem loopStep_runAcceptLoop {i : ℕ} (l : AcceptLoop) (a : LoopAnswer) (hi : s.isAlive i = true) :
    LoopStep s (s.runAcceptLoop i l a) := by
  cases hphase : l.phase with
  | head =>
      simp only [runAcceptLoop, hphase]
      exact loopStep_toPhase _ hi
  | locking state next =>
      simp only [runAcceptLoop, hphase]
      split
      · exact (loopStep_toPhase (.sending state next) hi).trans ⟨fun _ h => h, rfl, rfl, rfl⟩
      · exact .refl s
  | sending state next =>
      simp only [runAcceptLoop, hphase]
      exact (loopStep_toPhase next hi).trans (loopStep_broadcast state)
  | binding =>
      simp only [runAcceptLoop, hphase]
      exact loopStep_bindWithAdb a hi
  | backoff =>
      simp only [runAcceptLoop, hphase]
      exact loopStep_selectSleep l a hi
  | building =>
      simp only [runAcceptLoop, hphase]
      exact (loopStep_toPhase (.running s.pumps.length) hi).trans ⟨fun _ h => h, rfl, rfl, rfl⟩
  | running pump =>
      simp only [runAcceptLoop, hphase]
      exact loopStep_selectSession l pump a hi
  | finishing pump =>
      simp only [runAcceptLoop, hphase]
      exact loopStep_toPhase _ hi
  | shuttingDown pump =>
      simp only [runAcceptLoop, hphase]
      exact (loopStep_toPhase .ended hi).trans (loopStep_abort pump)
  | tearDown pump =>
      simp only [runAcceptLoop, hphase]
      exact (loopStep_toPhase .closing hi).trans (loopStep_abort pump)
  | closing =>
      simp only [runAcceptLoop, hphase]
      exact loopStep_toPhase _ hi
  | coolOff =>
      simp only [runAcceptLoop, hphase]
      exact loopStep_selectSleep l a hi
  | ended =>
      simp only [runAcceptLoop, hphase]
      exact .refl s

/-- A loop that has ended does nothing. -/
theorem loopTurn_of_dead {i : ℕ} (a : LoopAnswer) (hi : s.isAlive i = false) : s.loopTurn i a = s := by
  cases hl : s.loops[i]? with
  | none => simp only [loopTurn, hl]
  | some l =>
      have hended : l.phase = .ended := by
        rw [isAlive, hl] at hi
        simpa using hi
      simp only [loopTurn, hl, runAcceptLoop, hended]

theorem loopStep_loopTurn {i : ℕ} (a : LoopAnswer) : LoopStep s (s.loopTurn i a) := by
  cases hi : s.isAlive i with
  | false =>
      rw [loopTurn_of_dead a hi]
      exact .refl s
  | true =>
      cases hl : s.loops[i]? with
      | none =>
          simp only [loopTurn, hl]
          exact .refl s
      | some l =>
          simp only [loopTurn, hl]
          exact loopStep_runAcceptLoop l a hi

/-- While the service runs, a step of a loop keeps the order. -/
theorem Orderly.loopStep (hs : s.Orderly) (h : LoopStep s s') (hrunning : s.sinceStop.isSome = false) :
    s'.Orderly where
  alive := by
    intro i hi
    rw [h.task, h.stopping]
    exact hs.alive i (h.alive i hi)
  taken := by
    intro waiting hwaiting
    rw [h.task]
    rw [h.stopping] at hwaiting
    exact hs.taken waiting hwaiting
  idle := by
    intro hquiet
    rw [h.sinceStop, hrunning] at hquiet
    cases hquiet
  rests := by
    intro hquiet
    rw [h.sinceStop, hrunning] at hquiet
    cases hquiet
  stopped := by
    intro events hevents
    have hquiet := h.sinceStop
    rw [hevents, hrunning] at hquiet
    cases hquiet

theorem orderly_loopTurn (i : ℕ) (a : LoopAnswer) (hs : s.Orderly) : (s.loopTurn i a).Orderly := by
  cases hquiet : s.sinceStop.isSome with
  | true =>
      rw [loopTurn_of_dead a (hs.dead hquiet i)]
      exact hs
  | false => exact hs.loopStep (loopStep_loopTurn a) hquiet

theorem orderly_loopPanics (i : ℕ) (hs : s.Orderly) : (s.toPhase i .ended).Orderly := by
  have halive : ∀ j, (s.toPhase i .ended).isAlive j → s.isAlive j := by
    intro j hj
    simp only [isAlive, toPhase, List.getElem?_modify] at hj ⊢
    cases hl : s.loops[j]? with
    | none =>
        rw [hl] at hj
        cases hj
    | some l =>
        rw [hl] at hj
        by_cases hij : i = j
        · simp [if_pos hij] at hj
        · simpa [if_neg hij] using hj
  exact ⟨fun j hj => hs.alive j (halive j hj), hs.taken, hs.idle, hs.rests, hs.stopped⟩

/-! ### Steps of a pump -/

/-- A step of a pump: the loops, the handle and the lock stay; and when every pump rests, so do they
afterwards, and nothing is written or sent. -/
structure PumpStep (s s' : Service) : Prop where
  loops : s'.loops = s.loops
  task : s'.task = s.task
  stopping : s'.stopping = s.stopping
  sinceStop : s'.sinceStop.isSome = s.sinceStop.isSome
  quiet : (∀ p ∈ s.pumps, p.Rests) →
    (∀ p ∈ s'.pumps, p.Rests) ∧ s'.last_state = s.last_state ∧ s'.sinceStop = s.sinceStop

theorem PumpStep.refl (s : Service) : PumpStep s s :=
  ⟨rfl, rfl, rfl, rfl, fun h => ⟨h, rfl, rfl⟩⟩

/-- A pump moves to another place; if it rested, it still does. -/
theorem pumpStep_setPump {i : ℕ} {p q : EventPump} (hp : s.pumps[i]? = some p)
    (hq : p.Rests → q.Rests) : PumpStep s (s.setPump i q) where
  loops := rfl
  task := rfl
  stopping := rfl
  sinceStop := rfl
  quiet := by
    intro hrests
    refine ⟨?_, rfl, rfl⟩
    intro r hr
    rcases List.mem_or_eq_of_mem_set hr with hr | rfl
    · exact hrests r hr
    · exact hq (hrests p (List.mem_of_getElem? hp))

/-- A pump that is polled, and has not ended, does not rest. -/
theorem not_rests_of_polled {p : EventPump} (hpolled : p.polled = true) (hplace : p.place ≠ .ended) :
    ¬ p.Rests := by
  rintro (h | ⟨-, h⟩)
  · exact hplace h
  · rw [hpolled] at h
    cases h

theorem pumpStep_polled {i : ℕ} {p q : EventPump} (hp : s.pumps[i]? = some p)
    (hpolled : p.polled = true) (hplace : p.place ≠ .ended) : PumpStep s (s.setPump i q) :=
  pumpStep_setPump hp fun h => absurd h (not_rests_of_polled hpolled hplace)

theorem pumpStep_pumpPoll {i : ℕ} {p : EventPump} (hp : s.pumps[i]? = some p) :
    PumpStep s (s.pumpPoll i p) := by
  rw [pumpPoll]
  split
  · exact .refl s
  · split
    next hrunning haborted => exact pumpStep_setPump hp fun _ => .inl rfl
    next hrunning haborted =>
      apply pumpStep_setPump hp
      rintro (h | ⟨h, -⟩)
      · exact absurd (.inl h) hrunning
      · exact absurd h haborted

theorem pumpStep_pumpYield {i : ℕ} {p : EventPump} (hp : s.pumps[i]? = some p) :
    PumpStep s (s.pumpYield i p) := by
  rw [pumpYield]
  split
  next hpolled hplace => exact pumpStep_polled hp hpolled (hplace.trans_ne nofun)
  next hpolled hplace => exact pumpStep_polled hp hpolled (hplace.trans_ne nofun)
  next => exact .refl s

theorem pumpStep_pumpRecv {i : ℕ} {p : EventPump} (ev : SessionEvent) (hp : s.pumps[i]? = some p) :
    PumpStep s (s.pumpRecv i p ev) := by
  rw [pumpRecv]
  split
  next hpolled hplace => exact pumpStep_polled hp hpolled (hplace.trans_ne nofun)
  next => exact .refl s

theorem pumpStep_pumpClosed {i : ℕ} {p : EventPump} (hp : s.pumps[i]? = some p) :
    PumpStep s (s.pumpClosed i p) := by
  rw [pumpClosed]
  split
  next hpolled hplace => exact pumpStep_polled hp hpolled (hplace.trans_ne nofun)
  next => exact .refl s

/-- A step that only a pump that is being polled can take. -/
theorem pumpStep_busy {i : ℕ} {p : EventPump} (hp : s.pumps[i]? = some p)
    (hpolled : p.polled = true) (hplace : p.place ≠ .ended) (hloops : s'.loops = s.loops)
    (htask : s'.task = s.task) (hstopping : s'.stopping = s.stopping)
    (hsince : s'.sinceStop.isSome = s.sinceStop.isSome) : PumpStep s s' :=
  ⟨hloops, htask, hstopping, hsince, fun h =>
    absurd (h p (List.mem_of_getElem? hp)) (not_rests_of_polled hpolled hplace)⟩

theorem pumpStep_pumpWrite {i : ℕ} {p : EventPump} (hp : s.pumps[i]? = some p) :
    PumpStep s (s.pumpWrite i p) := by
  rw [pumpWrite]
  split
  next hpolled hplace =>
    split
    · exact pumpStep_busy hp hpolled (hplace.trans_ne nofun) rfl rfl rfl rfl
    · exact .refl s
  next => exact .refl s

theorem pumpStep_pumpSend {i : ℕ} {p : EventPump} (hp : s.pumps[i]? = some p) :
    PumpStep s (s.pumpSend i p) := by
  rw [pumpSend]
  split
  next hpolled hplace =>
    exact pumpStep_busy hp hpolled (hplace.trans_ne nofun) rfl rfl rfl Option.isSome_map
  next => exact .refl s

theorem pumpStep_onPump {i : ℕ} {f : EventPump → Service}
    (hf : ∀ p, s.pumps[i]? = some p → PumpStep s (f p)) : PumpStep s (s.onPump i f) := by
  cases hp : s.pumps[i]? with
  | none =>
      simp only [onPump, hp]
      exact .refl s
  | some p =>
      simp only [onPump, hp]
      exact hf p hp

theorem Orderly.pumpStep (hs : s.Orderly) (h : PumpStep s s') : s'.Orderly where
  alive := by
    intro i hi
    rw [h.task, h.stopping]
    rw [isAlive, h.loops] at hi
    exact hs.alive i hi
  taken := by
    intro waiting hwaiting
    rw [h.stopping] at hwaiting
    rw [h.task]
    exact hs.taken waiting hwaiting
  idle := by
    intro hquiet
    rw [h.sinceStop] at hquiet
    rw [h.task, h.stopping]
    exact hs.idle hquiet
  rests := by
    intro hquiet
    rw [h.sinceStop] at hquiet
    exact (h.quiet (hs.rests hquiet)).1
  stopped := by
    intro events hevents
    have hquiet : s.sinceStop.isSome := by
      rw [← h.sinceStop, hevents]
      rfl
    obtain ⟨-, hlast, hsince⟩ := h.quiet (hs.rests hquiet)
    rw [hlast]
    exact hs.stopped events (hsince.symm.trans hevents)

/-! ### Calls -/

theorem orderly_start (hs : s.Orderly) : s.start.Orderly := by
  cases hstopping : s.stopping with
  | some waiting =>
      simp only [start, hstopping]
      exact hs
  | none =>
      cases htask : s.task with
      | some i =>
          simp only [start, hstopping, htask]
          exact hs
      | none =>
          simp only [start, hstopping, htask]
          refine ⟨?_, ?_, nofun, nofun, nofun⟩
          · intro i hi
            left
            by_cases hlt : i < s.loops.length
            · rw [isAlive, List.getElem?_append_left hlt] at hi
              rcases hs.alive i hi with h | h
              · rw [htask] at h
                cases h
              · rw [hstopping] at h
                cases h
            · by_cases heq : i = s.loops.length
              · rw [heq]
              · have hnone : (s.loops ++ [⟨.head, false⟩])[i]? = none := by
                  apply List.getElem?_eq_none
                  rw [List.length_append, List.length_singleton]
                  omega
                rw [isAlive, hnone] at hi
                cases hi
          · intro waiting h
            cases h

theorem isAlive_cancel (task : Option ℕ) (i : ℕ) : (s.cancel task).isAlive i = s.isAlive i := by
  cases task with
  | none => rfl
  | some j =>
      simp only [cancel, isAlive, List.getElem?_modify]
      cases s.loops[i]? with
      | none => rfl
      | some l => by_cases hij : j = i <;> simp [hij]

theorem orderly_stopBegin (hs : s.Orderly) : s.stopBegin.Orderly := by
  cases hstopping : s.stopping with
  | some waiting =>
      simp only [stopBegin, hstopping]
      exact hs
  | none =>
      have hsame : ∀ task, (s.cancel task).pumps = s.pumps ∧
          (s.cancel task).last_state = s.last_state ∧ (s.cancel task).sinceStop = s.sinceStop := by
        intro task
        cases task with
        | none => exact ⟨rfl, rfl, rfl⟩
        | some i => exact ⟨rfl, rfl, rfl⟩
      obtain ⟨hpumps, hlast, hsince⟩ := hsame s.task
      simp only [stopBegin, hstopping]
      refine ⟨?_, fun _ _ => rfl, ?_, ?_, ?_⟩
      · intro i hi
        right
        have hi' : s.isAlive i := (isAlive_cancel s.task i).symm.trans hi
        rcases hs.alive i hi' with h | h
        · exact congrArg some h
        · rw [hstopping] at h
          cases h
      · intro hquiet
        rw [hsince] at hquiet
        refine ⟨rfl, .inr ?_⟩
        exact congrArg some (hs.idle hquiet).1
      · intro hquiet
        rw [hsince] at hquiet
        rw [hpumps]
        exact hs.rests hquiet
      · intro events hevents
        rw [hsince] at hevents
        rw [hlast]
        exact hs.stopped events hevents

/-- `stop` returns when the loop has ended and the pumps rest. -/
theorem orderly_stopEnd (timed_out : Bool) (hs : s.Orderly) (hclean : s.Clean (.stopEnd timed_out)) :
    (s.stopEnd timed_out).Orderly := by
  cases hstopping : s.stopping with
  | none =>
      simp only [stopEnd, hstopping]
      exact hs
  | some waiting =>
      cases hover : s.waitOver waiting timed_out with
      | false =>
          simp only [stopEnd, hstopping, hover, if_neg Bool.false_ne_true]
          exact hs
      | true =>
          obtain ⟨hended, hrests⟩ := hclean waiting hstopping hover
          have htask := hs.taken waiting hstopping
          simp only [stopEnd, hstopping, hover, if_true]
          refine ⟨?_, nofun, fun _ => ⟨htask, .inl rfl⟩, fun _ => hrests, ?_⟩
          · intro i hi
            have hi' : s.isAlive i = true := hi
            rcases hs.alive i hi' with h | h
            · rw [htask] at h
              cases h
            · rw [hstopping] at h
              cases h
              rw [waitOver, Bool.false_or, Option.all_some, hi'] at hended
              cases hended
          · intro events hevents
            cases hevents
            exact ⟨rfl, nofun⟩

theorem orderly_step (l : ServiceLabel) (hs : s.Orderly) (hl : s.Clean l) : (s.step l).Orderly := by
  cases l with
  | start => exact orderly_start hs
  | stopBegin => exact orderly_stopBegin hs
  | stopEnd timed_out => exact orderly_stopEnd timed_out hs hl
  | loopTurn i a => exact orderly_loopTurn i a hs
  | loopPanics i => exact orderly_loopPanics i hs
  | pumpPoll i => exact hs.pumpStep (pumpStep_onPump fun _ hp => pumpStep_pumpPoll hp)
  | pumpYield i => exact hs.pumpStep (pumpStep_onPump fun _ hp => pumpStep_pumpYield hp)
  | pumpRecv i ev => exact hs.pumpStep (pumpStep_onPump fun _ hp => pumpStep_pumpRecv ev hp)
  | pumpClosed i => exact hs.pumpStep (pumpStep_onPump fun _ hp => pumpStep_pumpClosed hp)
  | pumpWrite i => exact hs.pumpStep (pumpStep_onPump fun _ hp => pumpStep_pumpWrite hp)
  | pumpSend i => exact hs.pumpStep (pumpStep_onPump fun _ hp => pumpStep_pumpSend hp)

/-- **Stopped means stopped**, in every run in which `stop` returns only behind its loop and its pumps. -/
theorem calm_run {is : List ServiceLabel} (h : Run.Steps step Clean new is) :
    (is.foldl step new).Calm := by
  have hs : (is.foldl step new).Orderly :=
    h.invariant (fun _ l hs hl => orderly_step l hs hl) orderly_new
  exact hs.calm

/-! ### The condition is exact -/

/-- Some way on from here leaves the calm. -/
def Restless (s : Service) : Prop := ∃ more : List ServiceLabel, ¬ (more.foldl step s).Calm

theorem Restless.of_step (l : ServiceLabel) (h : (s.step l).Restless) : s.Restless := by
  obtain ⟨more, hmore⟩ := h
  exact ⟨l :: more, hmore⟩

/-- The service is stopped, and pump `i` is polled at `place`. -/
structure PolledAt (s : Service) (i : ℕ) (p : EventPump) : Prop where
  free : s.stopping = none
  quiet : s.sinceStop.isSome
  here : s.pumps[i]? = some p
  polled : p.polled = true

theorem polledAt_set {i : ℕ} {p q : EventPump} (h : s.PolledAt i p) (hq : q.polled = true)
    (hfree : s'.stopping = s.stopping) (hsince : s'.sinceStop.isSome = s.sinceStop.isSome)
    (hpumps : s'.pumps = s.pumps.set i q) : s'.PolledAt i q where
  free := hfree.trans h.free
  quiet := hsince.trans h.quiet
  here := by
    rw [hpumps, List.getElem?_set_self']
    rw [h.here]
    rfl
  polled := hq

theorem restless_disconnected {i : ℕ} {p : EventPump} (h : s.PolledAt i p)
    (hplace : p.place = .locking .disconnected) : s.Restless := by
  refine ⟨[.pumpWrite i], ?_⟩
  intro hcalm
  obtain ⟨events, hevents⟩ := Option.isSome_iff_exists.1 h.quiet
  have hwrite : s.step (.pumpWrite i) =
      { s.setPump i { p with place := .sending .disconnected } with last_state := .disconnected } := by
    simp only [step, onPump, h.here, pumpWrite, h.polled, hplace, h.free, if_true]
  rw [List.foldl_cons, List.foldl_nil, hwrite] at hcalm
  exact absurd (hcalm.stopped events hevents).1 nofun

theorem restless_receiving {i : ℕ} {p : EventPump} (h : s.PolledAt i p)
    (hplace : p.place = .receiving) : s.Restless := by
  have hrecv : s.step (.pumpRecv i .disconnected) =
      s.setPump i { p with place := .locking .disconnected } := by
    simp only [step, onPump, h.here, pumpRecv, h.polled, hplace]
    rfl
  apply Restless.of_step (.pumpRecv i .disconnected)
  rw [hrecv]
  exact restless_disconnected (p := { p with place := .locking .disconnected })
    (polledAt_set h h.polled rfl rfl rfl) rfl

theorem restless_sending {i : ℕ} {p : EventPump} {state : ServiceState} (h : s.PolledAt i p)
    (hplace : p.place = .sending state) : s.Restless := by
  have hsend : s.step (.pumpSend i) =
      (s.setPump i { p with place := .receiving }).broadcast state := by
    simp only [step, onPump, h.here, pumpSend, h.polled, hplace]
  apply Restless.of_step (.pumpSend i)
  rw [hsend]
  exact restless_receiving (p := { p with place := .receiving })
    (polledAt_set h h.polled rfl Option.isSome_map rfl) rfl

theorem restless_locking {i : ℕ} {p : EventPump} {state : ServiceState} (h : s.PolledAt i p)
    (hplace : p.place = .locking state) : s.Restless := by
  have hwrite : s.step (.pumpWrite i) =
      { s.setPump i { p with place := .sending state } with last_state := state } := by
    simp only [step, onPump, h.here, pumpWrite, h.polled, hplace, h.free, if_true]
  apply Restless.of_step (.pumpWrite i)
  rw [hwrite]
  exact restless_sending (p := { p with place := .sending state })
    (polledAt_set h h.polled rfl rfl rfl) rfl

theorem restless_polled {i : ℕ} {p : EventPump} (h : s.PolledAt i p) (hplace : p.place ≠ .ended) :
    s.Restless := by
  cases hp : p.place with
  | receiving => exact restless_receiving h hp
  | locking state => exact restless_locking h hp
  | sending state => exact restless_sending h hp
  | ended => exact absurd hp hplace

/-- A pump that does not rest when the service is stopped. -/
theorem restless_pump {i : ℕ} {p : EventPump} (hfree : s.stopping = none) (hquiet : s.sinceStop.isSome)
    (hp : s.pumps[i]? = some p) (hrests : ¬ p.Rests) : s.Restless := by
  have hplace : p.place ≠ .ended := fun h => hrests (.inl h)
  cases hpolled : p.polled with
  | true => exact restless_polled ⟨hfree, hquiet, hp, hpolled⟩ hplace
  | false =>
      have haborted : ¬ p.aborted = true := fun h => hrests (.inr ⟨h, hpolled⟩)
      have hpoll : s.step (.pumpPoll i) = s.setPump i { p with polled := true } := by
        have hbusy : ¬ (p.place = .ended ∨ p.polled = true) := by
          rw [hpolled]
          rintro (h | h)
          · exact hplace h
          · cases h
        simp only [step, onPump, hp, pumpPoll, if_neg hbusy, if_neg haborted]
      apply Restless.of_step (.pumpPoll i)
      rw [hpoll]
      have hhere : (s.setPump i { p with polled := true }).pumps[i]? =
          some { p with polled := true } := by
        show (s.pumps.set i _)[i]? = _
        rw [List.getElem?_set_self', hp]
        rfl
      exact restless_polled (p := { p with polled := true }) ⟨hfree, hquiet, hhere, rfl⟩ hplace

/-- A loop that is alive when the service has no task: the next `start` spawns a second one. -/
theorem restless_loop {i : ℕ} (hfree : s.stopping = none) (htask : s.task = none)
    (halive : s.isAlive i = true) : s.Restless := by
  refine ⟨[.start], ?_⟩
  intro hcalm
  have hlt : i < s.loops.length := by
    by_contra hge
    rw [isAlive, List.getElem?_eq_none (Nat.le_of_not_lt hge)] at halive
    cases halive
  have hstart : s.start.loops = s.loops ++ [⟨.head, false⟩] := by
    simp only [start, hfree, htask]
  have hold : s.start.isAlive i = true := by
    rw [isAlive, hstart, List.getElem?_append_left hlt]
    exact halive
  have hnew : s.start.isAlive s.loops.length = true := by
    rw [isAlive, hstart, List.getElem?_concat_length]
    rfl
  have heq := hcalm.oneLoop i s.loops.length hold hnew
  omega

/-- **Where `stop` returns otherwise, the calm can be left**: by the next `start`, or by the pump. -/
theorem restless_of_unclean {timed_out : Bool} (hs : s.Orderly)
    (h : ¬ s.Clean (.stopEnd timed_out)) : (s.step (.stopEnd timed_out)).Restless := by
  simp only [Clean, not_forall] at h
  obtain ⟨waiting, hwaiting, hover, hunclean⟩ := h
  have hstep : s.step (.stopEnd timed_out) =
      { s.broadcast .stopped with last_state := .stopped, stopping := none, sinceStop := some [] } := by
    simp only [step, stopEnd, (show s.stopping = some waiting from hwaiting), hover, if_true]
  have htask := hs.taken waiting hwaiting
  rw [hstep]
  by_cases hended : s.waitOver waiting false = true
  · have hpump : ∃ p ∈ s.pumps, ¬ p.Rests := by
      by_contra hnone
      apply hunclean
      refine ⟨hended, ?_⟩
      intro p hp
      by_contra hrests
      exact hnone ⟨p, hp, hrests⟩
    obtain ⟨p, hp, hrests⟩ := hpump
    obtain ⟨i, hi⟩ := List.getElem?_of_mem hp
    exact restless_pump rfl rfl hi hrests
  · cases waiting with
    | none => exact absurd rfl hended
    | some i =>
        have halive : s.isAlive i = true := by
          rw [waitOver, Bool.false_or, Option.all_some] at hended
          simpa using hended
        exact restless_loop rfl htask halive

/-- A session that is stopped and started again. -/
def restarted : List ServiceLabel :=
  [.start, .loopTurn 0 .ok, .loopTurn 0 .ok, .loopTurn 0 .ok, .loopTurn 0 .ok, .loopTurn 0 .ok,
    .loopTurn 0 .ok, .loopTurn 0 .ok, .pumpPoll 0, .pumpRecv 0 (.connecting "tablet"), .pumpWrite 0, .pumpSend 0,
    .pumpYield 0, .stopBegin, .loopTurn 0 .cancel, .loopTurn 0 .ok, .loopTurn 0 .ok, .stopEnd false, .pumpPoll 0,
    .start, .loopTurn 1 .ok]

theorem calm_run_restarted : (restarted.foldl step new).Calm := calm_run (by decide)

/-- `stop` comes when the loop is in front of the lock: it holds the lock until its timeout, and the loop
goes on behind it. -/
def stoppedTooEarly : List ServiceLabel :=
  [.start, .loopTurn 0 .ok, .stopBegin, .stopEnd true, .loopTurn 0 .ok, .loopTurn 0 .ok]

/-- The service is stopped in `Preparing`, and the next `start` makes a second loop. -/
theorem stopped_too_early :
    (stoppedTooEarly.foldl step new).last_state = .preparing ∧
      (stoppedTooEarly.foldl step new).sinceStop = some [.preparing] ∧
      ¬ (stoppedTooEarly.foldl step new).Calm ∧
      ¬ ((stoppedTooEarly ++ [ServiceLabel.start]).foldl step new).Calm := by
  refine ⟨by decide, by decide, ?_, ?_⟩
  · intro h
    exact absurd (h.stopped _ (by decide : _ = some [.preparing])).1 (by decide)
  · intro h
    exact absurd (h.oneLoop 0 1 (by decide) (by decide)) (by decide)

end Service

end Penflow
