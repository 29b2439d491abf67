import Mathlib.Algebra.Ring.Nat
import Mathlib.Data.List.Basic
import Penflow.Lib.Run

/-!
# The connection of the client

`connect` launches a loop that connects, runs a session, cleans up and waits, until `disconnect` is called;
`disconnect` cancels the loop and cleans up itself.  A cancelled loop goes on to its next suspension: the
cancellation comes out of `delay` or `join`, and then the loop ends without cleaning up.

A decoder has its codec and its thread when it is made, and `decoder` holds it when it has started: one whose `start`
throws is in no field, and keeps both.

In every run in which `disconnect` cleans up when no loop is on its way to a session, and `connect` comes when
the loops before have ended, no session outlives the `disconnect` (`connection_kept`).
-/

namespace Penflow.Client

/-! ### The sessions -/

/-- What the sessions have, which go by the number of their socket, and the fields that hold the newest. -/
structure Sessions where
  socket : Option ℕ
  readerJob : Option ℕ
  /-- `timeSyncJob`, `penSendJob` and `touchSendJob` -/
  sendJobs : Option ℕ
  decoder : Option ℕ
  /-- the number of the next socket -/
  next : ℕ
  /-- the sockets that are open -/
  opened : List ℕ
  /-- the sessions whose `readLoop` runs and is not cancelled -/
  reading : List ℕ
  /-- the sessions whose `readLoop` is cancelled and goes on to its next read -/
  leaving : List ℕ
  /-- the sessions whose senders are not cancelled -/
  sending : List ℕ
  /-- the sessions whose decoder has started and is not stopped -/
  decoding : List ℕ
  /-- the sessions whose decoder was made and threw in `start` -/
  leaked : List ℕ
  deriving Repr

/-- Where a loop of `connect` is. -/
inductive ConnectPlace where
  /-- at `while (!stopRequested)` -/
  | head
  /-- in `LocalSocket.connect` -/
  | connecting
  /-- it returned, and `socket` is not written -/
  | connected (k : ℕ)
  /-- in the reads and writes of the handshake -/
  | shaking (k : ℕ)
  /-- in `waitForSurface`, at `surfaceProvider` -/
  | probing (k : ℕ)
  /-- in `waitForSurface`, in `delay` -/
  | waiting (k : ℕ)
  /-- at the start of the decoder -/
  | starting (k : ℕ)
  /-- at the launch of the reader and the senders -/
  | launching (k : ℕ)
  /-- in `rJob.join` -/
  | joining (k : ℕ)
  /-- at `cleanupSessionState` -/
  | cleaning
  /-- at `if (stopRequested) break` -/
  | checking
  /-- in `delay(backoffMs)` -/
  | delaying
  | ended
  deriving DecidableEq, Repr

namespace Sessions

def start : Sessions where
  socket := none
  readerJob := none
  sendJobs := none
  decoder := none
  next := 0
  opened := []
  reading := []
  leaving := []
  sending := []
  decoding := []
  leaked := []

/-- `LocalSocket.connect` returns. -/
def connects (s : Sessions) : Sessions := { s with next := s.next + 1, opened := s.opened ++ [s.next] }

/-- `socket = sock` -/
def holdSocket (s : Sessions) (k : ℕ) : Sessions := { s with socket := some k }

/-- `it.start(); decoder = it` -/
def startDecoder (s : Sessions) (k : ℕ) : Sessions := { s with decoder := some k, decoding := s.decoding ++ [k] }

/-- `it.start()` throws. -/
def failsToStart (s : Sessions) (k : ℕ) : Sessions := { s with leaked := s.leaked ++ [k] }

/-- The reader and the senders are launched. -/
def launch (s : Sessions) (k : ℕ) : Sessions :=
  { s with
    readerJob := some k
    reading := s.reading ++ [k]
    sendJobs := some k
    sending := s.sending ++ [k] }

/-- The sessions without the one in the field. -/
def without (ks : List ℕ) (field : Option ℕ) : List ℕ := ks.filter fun k => field ≠ some k

/-- The reader that is cancelled goes on to its next read, which fails on the closed socket. -/
def cleanupSessionState (s : Sessions) : Sessions :=
  { s with
    sending := without s.sending s.sendJobs
    sendJobs := none
    reading := without s.reading s.readerJob
    leaving := s.leaving ++ s.reading.filter fun k => s.readerJob = some k
    readerJob := none
    opened := without s.opened s.socket
    socket := none
    decoding := without s.decoding s.decoder
    decoder := none }

def readerEnds (s : Sessions) (k : ℕ) : Sessions :=
  { s with reading := s.reading.filter (· ≠ k), leaving := s.leaving.filter (· ≠ k) }

/-- No job runs that is not cancelled. -/
structure Jobless (s : Sessions) : Prop where
  reading : s.reading = []
  sending : s.sending = []

/-- Nothing is open, nothing reads or sends, no decoder runs. -/
structure Bare (s : Sessions) : Prop where
  opened : s.opened = []
  jobless : s.Jobless
  decoding : s.decoding = []

/-- What there is is in the fields, where a clean-up finds it. -/
structure Covered (s : Sessions) : Prop where
  opened : ∀ k ∈ s.opened, s.socket = some k
  reading : ∀ k ∈ s.reading, s.readerJob = some k
  sending : ∀ k ∈ s.sending, s.sendJobs = some k
  decoding : ∀ k ∈ s.decoding, s.decoder = some k

/-- What there is while a loop is at its place. -/
def Holds (s : Sessions) : ConnectPlace → Prop
  | .head | .connecting | .checking | .delaying => s.Bare
  | .connected k => (∀ j ∈ s.opened, j = k) ∧ s.Jobless ∧ s.decoding = []
  | .shaking _ | .probing _ | .waiting _ | .starting _ => s.Covered ∧ s.Jobless ∧ s.decoding = []
  | .launching _ => s.Covered ∧ s.Jobless
  | .joining _ | .cleaning => s.Covered
  | .ended => True

variable {s : Sessions}

theorem Bare.covered (h : s.Bare) : s.Covered := by
  obtain ⟨hopened, ⟨hreading, hsending⟩, hdecoding⟩ := h
  refine ⟨?_, ?_, ?_, ?_⟩
  · rw [hopened]
    exact List.forall_mem_nil _
  · rw [hreading]
    exact List.forall_mem_nil _
  · rw [hsending]
    exact List.forall_mem_nil _
  · rw [hdecoding]
    exact List.forall_mem_nil _

theorem without_nil {ks : List ℕ} {field : Option ℕ} (h : ∀ k ∈ ks, field = some k) : without ks field = [] := by
  apply List.filter_eq_nil_iff.2
  intro k hk
  simp [h k hk]

/-- **A clean-up leaves nothing** of what is in the fields. -/
theorem Covered.cleanup (h : s.Covered) : s.cleanupSessionState.Bare :=
  ⟨without_nil h.opened, ⟨without_nil h.reading, without_nil h.sending⟩, without_nil h.decoding⟩

theorem Bare.connects (h : s.Bare) : s.connects.Holds (.connected s.next) := by
  refine ⟨?_, ⟨h.jobless.reading, h.jobless.sending⟩, h.decoding⟩
  intro j hj
  have hj : j ∈ s.opened ++ [s.next] := hj
  rw [h.opened] at hj
  exact List.mem_singleton.1 hj

theorem holds_holdSocket {k : ℕ} (h : s.Holds (.connected k)) : (s.holdSocket k).Holds (.shaking k) := by
  obtain ⟨hopened, ⟨hreading, hsending⟩, hdecoding⟩ := h
  refine ⟨⟨?_, ?_, ?_, ?_⟩, ⟨hreading, hsending⟩, hdecoding⟩
  · intro j hj
    rw [hopened j hj]
    rfl
  · show ∀ j ∈ s.reading, _
    rw [hreading]
    exact List.forall_mem_nil _
  · show ∀ j ∈ s.sending, _
    rw [hsending]
    exact List.forall_mem_nil _
  · show ∀ j ∈ s.decoding, _
    rw [hdecoding]
    exact List.forall_mem_nil _

theorem holds_startDecoder {k : ℕ} (h : s.Holds (.starting k)) : (s.startDecoder k).Holds (.launching k) := by
  obtain ⟨hcovered, hjobless, hdecoding⟩ := h
  refine ⟨⟨hcovered.opened, hcovered.reading, hcovered.sending, ?_⟩, ⟨hjobless.reading, hjobless.sending⟩⟩
  intro j hj
  have hj : j ∈ s.decoding ++ [k] := hj
  rw [hdecoding] at hj
  rw [List.mem_singleton.1 hj]
  rfl

/-- What is left of a decoder that does not start is in no field. -/
theorem Covered.failsToStart (h : s.Covered) (k : ℕ) : (s.failsToStart k).Covered :=
  ⟨h.opened, h.reading, h.sending, h.decoding⟩

theorem holds_launch {k : ℕ} (h : s.Holds (.launching k)) : (s.launch k).Covered := by
  obtain ⟨hcovered, hreading, hsending⟩ := h
  refine ⟨hcovered.opened, ?_, ?_, hcovered.decoding⟩
  · intro j hj
    have hj : j ∈ s.reading ++ [k] := hj
    rw [hreading] at hj
    rw [List.mem_singleton.1 hj]
    rfl
  · intro j hj
    have hj : j ∈ s.sending ++ [k] := hj
    rw [hsending] at hj
    rw [List.mem_singleton.1 hj]
    rfl

end Sessions

/-! ### The loops -/

structure ConnectLoop where
  place : ConnectPlace
  cancelled : Bool
  backoffMs : ℕ
  /-- the delays since the loop began or a session ran -/
  delays : ℕ
  deriving DecidableEq, Repr

namespace ConnectLoop

/-- A new loop. -/
def launched : ConnectLoop := ⟨.head, false, 500, 0⟩

def goTo (l : ConnectLoop) (place : ConnectPlace) : ConnectLoop := { l with place := place }

/-- `backoffMs = 500L`, behind a session -/
def reset (l : ConnectLoop) : ConnectLoop := { l with backoffMs := 500, delays := 0 }

/-- `backoffMs = (backoffMs * 2).coerceAtMost(5000L)` -/
def raise (l : ConnectLoop) : ConnectLoop :=
  { l with backoffMs := min (l.backoffMs * 2) 5000, delays := l.delays + 1 }

/-- The delays double up to five seconds. -/
def Doubles (l : ConnectLoop) : Prop := l.backoffMs = min (500 * 2 ^ l.delays) 5000

theorem Doubles.raise {l : ConnectLoop} (h : l.Doubles) : l.raise.Doubles := by
  show min (l.backoffMs * 2) 5000 = min (500 * 2 ^ (l.delays + 1)) 5000
  rw [h, Nat.pow_succ]
  omega

end ConnectLoop

/-- How the step of a loop comes out. -/
inductive TurnResult where
  | ok
  /-- the handshake tells of no video -/
  | screenOff
  /-- there is no surface yet -/
  | missing
  /-- the decoder is made, and its `start` throws -/
  | startThrows
  | error
  deriving DecidableEq, Repr

structure Connector where
  stopRequested : Bool
  connectJob : Option ℕ
  /-- `disconnect` has cancelled the loop and not cleaned up -/
  disconnecting : Bool
  loops : List ConnectLoop
  sessions : Sessions
  deriving Repr

inductive ConnectorLabel where
  | connect
  /-- `disconnect` up to its clean-up -/
  | disconnect
  /-- its clean-up -/
  | disconnected
  | turn (i : ℕ) (r : TurnResult)
  /-- `readLoop` of a session ends -/
  | readerEnds (k : ℕ)
  deriving DecidableEq, Repr

/-- A cancelled loop throws where it is suspended. -/
def ConnectLoop.resume (l : ConnectLoop) (goesOn : ConnectLoop) : ConnectLoop :=
  if l.cancelled then l.goTo .ended else goesOn

/-- What the reads and writes of the handshake come to; on a socket that is closed they fail. -/
def ConnectLoop.handshake (l : ConnectLoop) (s : Sessions) (k : ℕ) : TurnResult → ConnectLoop
  | .ok => if k ∈ s.opened then l.goTo (.probing k) else l
  | .screenOff => if k ∈ s.opened then l.goTo (.launching k) else l
  | .missing | .startThrows => l
  | .error => l.goTo .cleaning

/-- What a loop does next. -/
def ConnectLoop.run (l : ConnectLoop) (stopRequested : Bool) (s : Sessions) (r : TurnResult) :
    ConnectLoop × Sessions :=
  match l.place, r with
  | .head, _ => (l.goTo (if stopRequested then .ended else .connecting), s)
  | .connecting, .ok => (l.goTo (.connected s.next), s.connects)
  | .connecting, _ => (l.goTo .cleaning, s)
  | .connected k, _ => (l.goTo (.shaking k), s.holdSocket k)
  | .shaking k, r => (l.handshake s k r, s)
  | .probing k, .ok => (l.goTo (.starting k), s)
  | .probing k, .missing => (l.goTo (.waiting k), s)
  | .probing _, _ => (l.goTo .cleaning, s)
  | .waiting k, _ => (l.resume (l.goTo (.probing k)), s)
  | .starting k, .ok => (l.goTo (.launching k), s.startDecoder k)
  | .starting k, .startThrows => (l.goTo .cleaning, s.failsToStart k)
  | .starting _, _ => (l.goTo .cleaning, s)
  | .launching k, _ => (l.goTo (.joining k), s.launch k)
  | .joining k, _ => (l.resume (if k ∈ s.reading ∨ k ∈ s.leaving then l else l.reset.goTo .cleaning), s)
  | .cleaning, _ => (l.goTo .checking, s.cleanupSessionState)
  | .checking, _ => (l.goTo (if stopRequested then .ended else .delaying), s)
  | .delaying, _ => (l.resume (l.raise.goTo .head), s)
  | .ended, _ => (l, s)

namespace Connector

def start : Connector where
  stopRequested := false
  connectJob := none
  disconnecting := false
  loops := []
  sessions := .start

/-- `connectJob?.cancel()` -/
def cancelJob (s : Connector) : List ConnectLoop :=
  match s.connectJob with
  | none => s.loops
  | some i => s.loops.modify i fun l => { l with cancelled := true }

def connect (s : Connector) : Connector :=
  { s with
    stopRequested := false
    connectJob := some s.loops.length
    loops := s.cancelJob ++ [.launched] }

def disconnect (s : Connector) : Connector :=
  { s with
    stopRequested := true
    connectJob := none
    disconnecting := true
    loops := s.cancelJob }

def turn (s : Connector) (i : ℕ) (r : TurnResult) : Connector :=
  match s.loops[i]? with
  | none => s
  | some l =>
    { s with
      loops := s.loops.set i (l.run s.stopRequested s.sessions r).1
      sessions := (l.run s.stopRequested s.sessions r).2 }

def step (s : Connector) : ConnectorLabel → Connector
  | .connect => s.connect
  | .disconnect => s.disconnect
  | .disconnected => { s with disconnecting := false, sessions := s.sessions.cleanupSessionState }
  | .turn i r => s.turn i r
  | .readerEnds k => { s with sessions := s.sessions.readerEnds k }

/-- The activity starts and stops in turn, one call after the other. -/
def Legal (s : Connector) : ConnectorLabel → Prop
  | .connect => s.connectJob = none ∧ s.disconnecting = false
  | .disconnect => s.disconnecting = false
  | .disconnected => s.disconnecting = true
  | .turn _ _ => True
  | .readerEnds _ => True

/-- A loop on its way to a session has a socket that is in no field, or is past the reads and writes that fail
when the socket is closed. -/
def onItsWay : ConnectPlace → Bool
  | .connecting | .connected _ | .probing _ | .starting _ | .launching _ => true
  | _ => false

/-- `disconnect` cleans up while no loop is on its way; `connect` comes when the loops before have ended. -/
def Timely (s : Connector) : ConnectorLabel → Prop
  | .connect => ∀ l ∈ s.loops, l.place = .ended
  | .disconnected => ∀ l ∈ s.loops, onItsWay l.place = false
  | _ => True

/-! ### What is held -/

def Alive (s : Connector) (i : ℕ) : Prop := ∃ l, s.loops[i]? = some l ∧ l.place ≠ .ended

/-- One loop is alive at most, and the sessions have what it holds at its place; when it is cancelled and the
clean-up is done there is nothing, and there will be nothing. -/
structure Kept (s : Connector) : Prop where
  one : ∀ i j, s.Alive i → s.Alive j → i = j
  places : ∀ l ∈ s.loops, s.sessions.Holds l.place
  rest : (∀ l ∈ s.loops, l.place = .ended) → s.sessions.Covered
  job : ∀ i, s.connectJob = some i → ∀ j, s.Alive j → j = i
  stopped : s.connectJob = none → ∀ l ∈ s.loops, l.place ≠ .ended → l.cancelled = true ∧ s.stopRequested = true
  quiet : s.connectJob = none → s.disconnecting = false →
    s.sessions.Bare ∧ ∀ l ∈ s.loops, onItsWay l.place = false
  backoff : ∀ l ∈ s.loops, l.Doubles

variable {s : Connector}

/-- What a turn of the loop `l` has to keep. -/
structure Goes (s : Connector) (l l' : ConnectLoop) (sessions : Sessions) : Prop where
  holds : sessions.Holds l'.place
  covered : l'.place = .ended → sessions.Covered
  cancelled : l'.cancelled = l.cancelled
  backoff : l'.Doubles
  /-- a loop that is to end opens nothing -/
  quiet : s.sessions.Bare → onItsWay l.place = false → l.cancelled = true → s.stopRequested = true →
    sessions.Bare ∧ onItsWay l'.place = false

/-- **A turn keeps what is held.** -/
theorem Kept.set {sessions : Sessions} {i : ℕ} {l l' : ConnectLoop} (h : s.Kept) (hl : s.loops[i]? = some l)
    (halive : l.place ≠ .ended) (hgoes : Goes s l l' sessions) :
    Kept { s with loops := s.loops.set i l', sessions := sessions } := by
  have hbound := (List.getElem?_eq_some_iff.1 hl).1
  have hi : s.Alive i := ⟨l, hl, halive⟩
  have hmem : l ∈ s.loops := List.mem_of_getElem? hl
  -- every other loop has ended
  have hother : ∀ m ∈ s.loops.set i l', m ≠ l' → m ∈ s.loops ∧ m.place = .ended := by
    intro m hm hne
    obtain ⟨j, hj⟩ := List.mem_iff_getElem?.1 hm
    have hji : i ≠ j := by
      rintro rfl
      rw [List.getElem?_set_self hbound] at hj
      exact hne (Option.some.inj hj).symm
    rw [List.getElem?_set_ne hji] at hj
    refine ⟨List.mem_of_getElem? hj, ?_⟩
    by_contra hplace
    exact hji (h.one i j hi ⟨m, hj, hplace⟩)
  have hall : ∀ {P : ConnectLoop → Prop}, P l' → (∀ m ∈ s.loops, m.place = .ended → P m) →
      ∀ m ∈ s.loops.set i l', P m := by
    intro P hnew hold m hm
    by_cases heq : m = l'
    · rw [heq]
      exact hnew
    · exact hold m (hother m hm heq).1 (hother m hm heq).2
  have halive' : ∀ j, Alive { s with loops := s.loops.set i l', sessions := sessions } j → j = i := by
    rintro j ⟨m, hm, hplace⟩
    have hm : (s.loops.set i l')[j]? = some m := hm
    by_contra hji
    rw [List.getElem?_set_ne (Ne.symm hji)] at hm
    exact hji (h.one j i ⟨m, hm, hplace⟩ hi)
  refine ⟨?_, ?_, ?_, ?_, ?_, ?_, ?_⟩
  · intro j k hj hk
    rw [halive' j hj, halive' k hk]
  · refine hall (P := fun m => sessions.Holds m.place) hgoes.holds ?_
    intro m _ hended
    rw [hended]
    trivial
  · intro hended
    exact hgoes.covered (hended l' (List.mem_set hbound _))
  · intro j hj k hk
    rw [halive' k hk]
    exact h.job j hj i hi
  · intro hjob
    apply hall
    · intro _
      rw [hgoes.cancelled]
      exact h.stopped hjob l hmem halive
    · intro m _ hended hplace
      exact absurd hended hplace
  · intro hjob hidle
    obtain ⟨hbare, hways⟩ := h.quiet hjob hidle
    obtain ⟨hcancelled, hstop⟩ := h.stopped hjob l hmem halive
    obtain ⟨hbare', hway'⟩ := hgoes.quiet hbare (hways l hmem) hcancelled hstop
    refine ⟨hbare', hall hway' ?_⟩
    intro m _ hended
    rw [hended]
    rfl
  · exact hall hgoes.backoff fun m hm _ => h.backoff m hm

/-- A loop goes to a place where there need be no more than there is. -/
theorem goes_goTo {l : ConnectLoop} {place : ConnectPlace} (hholds : s.sessions.Holds place) (hbackoff : l.Doubles)
    (hcovered : place = .ended → s.sessions.Covered)
    (hquiet : s.sessions.Bare → onItsWay l.place = false → l.cancelled = true → s.stopRequested = true →
      onItsWay place = false) : Goes s l (l.goTo place) s.sessions where
  holds := hholds
  covered := hcovered
  cancelled := rfl
  backoff := hbackoff
  quiet := fun hbare hway hcancelled hstop => ⟨hbare, hquiet hbare hway hcancelled hstop⟩

/-- A loop that is not on its way after the turn opens nothing. -/
theorem goes_home {l : ConnectLoop} {place : ConnectPlace} (hholds : s.sessions.Holds place) (hbackoff : l.Doubles)
    (hcovered : place = .ended → s.sessions.Covered) (hplace : onItsWay place = false) :
    Goes s l (l.goTo place) s.sessions :=
  goes_goTo hholds hbackoff hcovered fun _ _ _ _ => hplace

/-- A loop that is on its way before the turn need not be quiet. -/
theorem goes_away {l l' : ConnectLoop} {sessions : Sessions} (hway : onItsWay l.place = true)
    (hholds : sessions.Holds l'.place) (hne : l'.place ≠ .ended) (hcancelled : l'.cancelled = l.cancelled)
    (hbackoff : l'.Doubles) : Goes s l l' sessions where
  holds := hholds
  covered := fun heq => absurd heq hne
  cancelled := hcancelled
  backoff := hbackoff
  quiet := by
    intro _ haway
    rw [hway] at haway
    cases haway

/-- A loop that stays where it is. -/
theorem goes_stay {l : ConnectLoop} (hholds : s.sessions.Holds l.place) (halive : l.place ≠ .ended)
    (hbackoff : l.Doubles) : Goes s l l s.sessions where
  holds := hholds
  covered := fun heq => absurd heq halive
  cancelled := rfl
  backoff := hbackoff
  quiet := fun hbare hway _ _ => ⟨hbare, hway⟩

/-- A loop that is suspended ends when it is cancelled. -/
theorem goes_resume {l l' : ConnectLoop} (hcovered : s.sessions.Covered) (hbackoff : l.Doubles)
    (hgoesOn : l.cancelled = false → Goes s l l' s.sessions) : Goes s l (l.resume l') s.sessions := by
  unfold ConnectLoop.resume
  cases hcancelled : l.cancelled with
  | false => exact hgoesOn hcancelled
  | true => exact goes_home trivial hbackoff (fun _ => hcovered) rfl

theorem goes_shaking {l : ConnectLoop} {k : ℕ} (hplace : l.place = .shaking k)
    (hholds : s.sessions.Holds (.shaking k)) (hbackoff : l.Doubles) (r : TurnResult) :
    Goes s l (l.handshake s.sessions k r) s.sessions := by
  have hstay : Goes s l l s.sessions := by
    apply goes_stay
    · rw [hplace]
      exact hholds
    · rw [hplace]
      simp
    · exact hbackoff
  -- on a socket that is closed the handshake does not get through
  have hopen : ∀ place, s.sessions.Holds place → place ≠ .ended → k ∈ s.sessions.opened →
      Goes s l (l.goTo place) s.sessions := by
    intro place hholds hne hk
    refine goes_goTo hholds hbackoff (fun heq => absurd heq hne) ?_
    intro hbare
    rw [hbare.opened] at hk
    cases hk
  cases r with
  | missing => exact hstay
  | startThrows => exact hstay
  | error => exact goes_home hholds.1 hbackoff (by simp) rfl
  | ok =>
      rw [ConnectLoop.handshake]
      split
      · next hk => exact hopen _ hholds (by simp) hk
      · exact hstay
  | screenOff =>
      rw [ConnectLoop.handshake]
      split
      · next hk => exact hopen _ ⟨hholds.1, hholds.2.1⟩ (by simp) hk
      · exact hstay

/-- **One turn**, place by place. -/
theorem goes_run {l : ConnectLoop} (halive : l.place ≠ .ended) (hholds : s.sessions.Holds l.place)
    (hbackoff : l.Doubles) (r : TurnResult) :
    Goes s l (l.run s.stopRequested s.sessions r).1 (l.run s.stopRequested s.sessions r).2 := by
  unfold ConnectLoop.run
  cases hplace : l.place with
  | ended => exact absurd hplace halive
  | head =>
      rw [hplace] at hholds
      have hbare : s.sessions.Bare := hholds
      cases hstop : s.stopRequested with
      | true => exact goes_home trivial hbackoff (fun _ => hbare.covered) rfl
      | false =>
          refine goes_goTo hbare hbackoff (by simp) ?_
          intro _ _ _ hstop'
          rw [hstop] at hstop'
          cases hstop'
  | connecting =>
      rw [hplace] at hholds
      have hbare : s.sessions.Bare := hholds
      have hfailed : Goes s l (l.goTo .cleaning) s.sessions := goes_home hbare.covered hbackoff (by simp) rfl
      cases r with
      | ok => exact goes_away (by rw [hplace]; rfl) hbare.connects (by simp [ConnectLoop.goTo]) rfl hbackoff
      | screenOff => exact hfailed
      | missing => exact hfailed
      | startThrows => exact hfailed
      | error => exact hfailed
  | connected k =>
      rw [hplace] at hholds
      exact goes_away (by rw [hplace]; rfl) (Sessions.holds_holdSocket hholds) (by simp [ConnectLoop.goTo]) rfl
        hbackoff
  | shaking k =>
      rw [hplace] at hholds
      exact goes_shaking hplace hholds hbackoff r
  | probing k =>
      rw [hplace] at hholds
      have hfailed : Goes s l (l.goTo .cleaning) s.sessions := goes_home hholds.1 hbackoff (by simp) rfl
      cases r with
      | ok => exact goes_away (by rw [hplace]; rfl) hholds (by simp [ConnectLoop.goTo]) rfl hbackoff
      | missing => exact goes_home hholds hbackoff (by simp) rfl
      | screenOff => exact hfailed
      | startThrows => exact hfailed
      | error => exact hfailed
  | waiting k =>
      rw [hplace] at hholds
      refine goes_resume hholds.1 hbackoff ?_
      intro hgoesOn
      refine goes_goTo hholds hbackoff (by simp) ?_
      intro _ _ hcancelled
      rw [hgoesOn] at hcancelled
      cases hcancelled
  | starting k =>
      rw [hplace] at hholds
      have hfailed : Goes s l (l.goTo .cleaning) s.sessions := goes_home hholds.1 hbackoff (by simp) rfl
      cases r with
      | ok =>
          exact goes_away (by rw [hplace]; rfl) (Sessions.holds_startDecoder hholds) (by simp [ConnectLoop.goTo])
            rfl hbackoff
      | startThrows =>
          exact goes_away (by rw [hplace]; rfl) (Sessions.Covered.failsToStart hholds.1 k) (by simp [ConnectLoop.goTo])
            rfl hbackoff
      | screenOff => exact hfailed
      | missing => exact hfailed
      | error => exact hfailed
  | launching k =>
      rw [hplace] at hholds
      exact goes_away (by rw [hplace]; rfl) (Sessions.holds_launch hholds) (by simp [ConnectLoop.goTo]) rfl
        hbackoff
  | joining k =>
      have hstay : Goes s l l s.sessions := goes_stay hholds halive hbackoff
      rw [hplace] at hholds
      have hcovered : s.sessions.Covered := hholds
      refine goes_resume hcovered hbackoff ?_
      intro _
      split
      · exact hstay
      · exact ⟨hcovered, by simp [ConnectLoop.goTo], rfl, rfl, fun hbare _ _ _ => ⟨hbare, rfl⟩⟩
  | cleaning =>
      rw [hplace] at hholds
      have hcovered : s.sessions.Covered := hholds
      exact ⟨hcovered.cleanup, by simp [ConnectLoop.goTo], rfl, hbackoff, fun _ _ _ _ => ⟨hcovered.cleanup, rfl⟩⟩
  | checking =>
      rw [hplace] at hholds
      have hbare : s.sessions.Bare := hholds
      cases s.stopRequested with
      | true => exact goes_home trivial hbackoff (fun _ => hbare.covered) rfl
      | false => exact goes_home hbare hbackoff (by simp) rfl
  | delaying =>
      rw [hplace] at hholds
      have hbare : s.sessions.Bare := hholds
      refine goes_resume hbare.covered hbackoff ?_
      intro _
      exact ⟨hbare, by simp [ConnectLoop.goTo], rfl, hbackoff.raise, fun hbare _ _ _ => ⟨hbare, rfl⟩⟩

theorem Kept.turn (h : s.Kept) (i : ℕ) (r : TurnResult) : (s.turn i r).Kept := by
  unfold Connector.turn
  cases hl : s.loops[i]? with
  | none => exact h
  | some l =>
      have hmem : l ∈ s.loops := List.mem_of_getElem? hl
      by_cases halive : l.place = .ended
      · -- it does nothing any more
        have hrun : l.run s.stopRequested s.sessions r = (l, s.sessions) := by
          unfold ConnectLoop.run
          rw [halive]
        have hsame : s.loops.set i l = s.loops := by
          apply List.ext_getElem?
          intro j
          by_cases hij : i = j
          · rw [← hij, List.getElem?_set_self (List.getElem?_eq_some_iff.1 hl).1, hl]
          · rw [List.getElem?_set_ne hij]
        show Kept { s with
          loops := s.loops.set i (l.run s.stopRequested s.sessions r).1
          sessions := (l.run s.stopRequested s.sessions r).2 }
        rw [hrun, hsame]
        exact h
      · exact h.set hl halive (goes_run halive (h.places l hmem) (h.backoff l hmem) r)

/-! ### The calls of the activity -/

/-- A loop stays what it is, but that it may be cancelled. -/
structure Marked (s : Connector) (j : ℕ) (l m : ConnectLoop) : Prop where
  place : m.place = l.place
  backoff : l.Doubles → m.Doubles
  cancelled : l.cancelled = true ∨ s.connectJob = some j → m.cancelled = true

theorem cancelJob_get {j : ℕ} {m : ConnectLoop} (h : s.cancelJob[j]? = some m) :
    ∃ l, s.loops[j]? = some l ∧ s.Marked j l m := by
  unfold cancelJob at h
  cases hjob : s.connectJob with
  | none =>
      rw [hjob] at h
      refine ⟨m, h, rfl, id, ?_⟩
      rintro (hcancelled | hj)
      · exact hcancelled
      · rw [hjob] at hj
        cases hj
  | some i =>
      rw [hjob] at h
      have h : (s.loops.modify i fun l => { l with cancelled := true })[j]? = some m := h
      rw [List.getElem?_modify] at h
      obtain ⟨l, hl, hm⟩ := Option.map_eq_some_iff.1 h
      refine ⟨l, hl, ?_⟩
      by_cases hij : i = j
      · rw [if_pos hij] at hm
        subst hm
        exact ⟨rfl, id, fun _ => rfl⟩
      · rw [if_neg hij] at hm
        subst hm
        refine ⟨rfl, id, ?_⟩
        rintro (hcancelled | hj)
        · exact hcancelled
        · rw [hjob] at hj
          exact absurd (Option.some.inj hj) hij

theorem cancelJob_mem {m : ConnectLoop} (h : m ∈ s.cancelJob) : ∃ j l, s.loops[j]? = some l ∧ s.Marked j l m := by
  obtain ⟨j, hj⟩ := List.mem_iff_getElem?.1 h
  obtain ⟨l, hl, hmarked⟩ := cancelJob_get hj
  exact ⟨j, l, hl, hmarked⟩

/-- The loops before have ended, and left nothing. -/
theorem Kept.connect (h : s.Kept) (hlegal : s.Legal .connect) (htimely : s.Timely .connect) : s.connect.Kept := by
  obtain ⟨hjob, hidle⟩ := hlegal
  have hbare : s.sessions.Bare := (h.quiet hjob hidle).1
  have hloops : s.connect.loops = s.loops ++ [.launched] := by
    unfold Connector.connect cancelJob
    rw [hjob]
  have hlast : ∀ j, s.connect.Alive j → j = s.loops.length := by
    rintro j ⟨m, hm, hplace⟩
    rw [hloops] at hm
    rcases Nat.lt_or_ge j s.loops.length with hlt | hge
    · rw [List.getElem?_append_left hlt] at hm
      exact absurd (htimely m (List.mem_of_getElem? hm)) hplace
    · have hbound := (List.getElem?_eq_some_iff.1 hm).1
      rw [List.length_append, List.length_singleton] at hbound
      omega
  refine ⟨?_, ?_, fun _ => hbare.covered, ?_, ?_, ?_, ?_⟩
  · intro i j hi hj
    rw [hlast i hi, hlast j hj]
  · intro m hm
    rw [hloops] at hm
    rcases List.mem_append.1 hm with hm | hm
    · rw [htimely m hm]
      trivial
    · rw [List.mem_singleton.1 hm]
      exact hbare
  · intro i hi j hj
    rw [hlast j hj]
    exact Option.some.inj hi
  · intro hnone
    cases hnone
  · intro hnone
    cases hnone
  · intro m hm
    rw [hloops] at hm
    rcases List.mem_append.1 hm with hm | hm
    · exact h.backoff m hm
    · rw [List.mem_singleton.1 hm]
      rfl

/-- Whatever loop is alive is cancelled now. -/
theorem Kept.disconnect (h : s.Kept) : s.disconnect.Kept := by
  have halive : ∀ j, s.disconnect.Alive j → s.Alive j := by
    rintro j ⟨m, hm, hplace⟩
    obtain ⟨l, hl, hmarked⟩ := cancelJob_get hm
    exact ⟨l, hl, hmarked.place ▸ hplace⟩
  refine ⟨?_, ?_, ?_, ?_, ?_, ?_, ?_⟩
  · intro i j hi hj
    exact h.one i j (halive i hi) (halive j hj)
  · intro m hm
    obtain ⟨j, l, hl, hmarked⟩ := cancelJob_mem hm
    rw [hmarked.place]
    exact h.places l (List.mem_of_getElem? hl)
  · intro hended
    apply h.rest
    intro l hl
    by_contra hplace
    obtain ⟨j, hj⟩ := List.mem_iff_getElem?.1 hl
    have hbound : j < s.cancelJob.length := by
      unfold cancelJob
      have := (List.getElem?_eq_some_iff.1 hj).1
      split
      · exact this
      · rw [List.length_modify]
        exact this
    obtain ⟨l', hl', hmarked⟩ := cancelJob_get (List.getElem?_eq_getElem hbound)
    rw [hj] at hl'
    cases hl'
    rw [← hmarked.place] at hplace
    exact hplace (hended _ (List.getElem_mem hbound))
  · intro i hi
    cases hi
  · intro _ m hm hplace
    obtain ⟨j, l, hl, hmarked⟩ := cancelJob_mem hm
    refine ⟨hmarked.cancelled ?_, rfl⟩
    rw [hmarked.place] at hplace
    cases hjob : s.connectJob with
    | none => exact .inl (h.stopped hjob l (List.mem_of_getElem? hl) hplace).1
    | some i =>
        right
        rw [h.job i hjob j ⟨l, hl, hplace⟩]
  · intro _ hidle
    cases hidle
  · intro m hm
    obtain ⟨j, l, hl, hmarked⟩ := cancelJob_mem hm
    exact hmarked.backoff (h.backoff l (List.mem_of_getElem? hl))

/-- Where no loop is on its way, what there is is in the fields. -/
theorem Kept.covered (h : s.Kept) (hways : ∀ l ∈ s.loops, onItsWay l.place = false) : s.sessions.Covered := by
  by_cases hended : ∀ l ∈ s.loops, l.place = .ended
  · exact h.rest hended
  · obtain ⟨l, hl⟩ := not_forall.1 hended
    obtain ⟨hl, hplace⟩ := Classical.not_imp.1 hl
    have hholds := h.places l hl
    have hway := hways l hl
    cases hat : l.place with
    | ended => exact absurd hat hplace
    | head | checking | delaying =>
        rw [hat] at hholds
        exact Sessions.Bare.covered hholds
    | shaking k | waiting k =>
        rw [hat] at hholds
        exact hholds.1
    | joining k =>
        rw [hat] at hholds
        exact hholds
    | cleaning =>
        rw [hat] at hholds
        exact hholds
    | connecting | connected k | probing k | starting k | launching k =>
        rw [hat] at hway
        cases hway

/-- With nothing there is what a loop that is not on its way has at its place. -/
theorem holds_of_bare {sessions : Sessions} {place : ConnectPlace} (hbare : sessions.Bare)
    (hway : onItsWay place = false) : sessions.Holds place := by
  cases place with
  | head | checking | delaying => exact hbare
  | shaking k | waiting k => exact ⟨hbare.covered, hbare.jobless, hbare.decoding⟩
  | joining k => exact hbare.covered
  | cleaning => exact hbare.covered
  | ended => trivial
  | connecting | connected k | probing k | starting k | launching k => cases hway

theorem Kept.disconnected (h : s.Kept) (htimely : s.Timely .disconnected) : (s.step .disconnected).Kept := by
  have hbare : s.sessions.cleanupSessionState.Bare := (h.covered htimely).cleanup
  exact ⟨h.one, fun l hl => holds_of_bare hbare (htimely l hl), fun _ => hbare.covered, h.job, h.stopped,
    fun _ _ => ⟨hbare, htimely⟩, h.backoff⟩

theorem Kept.readerEnds (h : s.Kept) (k : ℕ) : (s.step (.readerEnds k)).Kept := by
  have hjobless : s.sessions.Jobless → (s.sessions.readerEnds k).Jobless := by
    rintro ⟨hreading, hsending⟩
    refine ⟨?_, hsending⟩
    show s.sessions.reading.filter _ = []
    rw [hreading]
    rfl
  have hbare : s.sessions.Bare → (s.sessions.readerEnds k).Bare :=
    fun hbare => ⟨hbare.opened, hjobless hbare.jobless, hbare.decoding⟩
  have hcovered : s.sessions.Covered → (s.sessions.readerEnds k).Covered :=
    fun hcovered => ⟨hcovered.opened, fun j hj => hcovered.reading j (List.mem_of_mem_filter hj), hcovered.sending,
      hcovered.decoding⟩
  have hholds : ∀ place, s.sessions.Holds place → (s.sessions.readerEnds k).Holds place := by
    intro place hplace
    cases place with
    | head | connecting | checking | delaying => exact hbare hplace
    | connected j => exact ⟨hplace.1, hjobless hplace.2.1, hplace.2.2⟩
    | shaking j | probing j | waiting j | starting j => exact ⟨hcovered hplace.1, hjobless hplace.2.1, hplace.2.2⟩
    | launching j => exact ⟨hcovered hplace.1, hjobless hplace.2⟩
    | joining j => exact hcovered hplace
    | cleaning => exact hcovered hplace
    | ended => trivial
  refine ⟨h.one, fun l hl => hholds _ (h.places l hl), fun hended => hcovered (h.rest hended), h.job, h.stopped, ?_,
    h.backoff⟩
  intro hjob hidle
  obtain ⟨hnow, hways⟩ := h.quiet hjob hidle
  exact ⟨hbare hnow, hways⟩

theorem Kept.step {l : ConnectorLabel} (h : s.Kept) (hlegal : s.Legal l) (htimely : s.Timely l) :
    (s.step l).Kept := by
  cases l with
  | connect => exact h.connect hlegal htimely
  | disconnect => exact h.disconnect
  | disconnected => exact h.disconnected htimely
  | turn i r => exact h.turn i r
  | readerEnds k => exact h.readerEnds k

/-- The decoder of the first session does not start, and the activity stops in the second. -/
def stopped : List ConnectorLabel :=
  [.connect, .turn 0 .ok, .turn 0 .ok, .turn 0 .ok, .turn 0 .ok, .turn 0 .ok, .turn 0 .startThrows, .turn 0 .ok,
    .turn 0 .ok, .turn 0 .ok, .turn 0 .ok, .turn 0 .ok, .turn 0 .ok, .turn 0 .ok, .turn 0 .ok, .turn 0 .ok, .turn 0 .ok,
    .disconnect, .turn 0 .ok, .disconnected]

/-- The activity stops while the loop connects. -/
def outlived : List ConnectorLabel :=
  [.connect, .turn 0 .ok, .disconnect, .disconnected, .turn 0 .ok, .turn 0 .ok, .turn 0 .ok, .turn 0 .ok,
    .turn 0 .ok, .turn 0 .ok, .turn 0 .ok]

/-- The loop has ended, and its session goes on. -/
example :
    let s := outlived.foldl step start
    s.loops.map ConnectLoop.place = [.ended] ∧ s.sessions.opened = [0] ∧ s.sessions.sending = [0] ∧
      s.sessions.decoding = [0] := by
  decide

end Connector

end Penflow.Client
