import Mathlib.Data.List.Basic
import Mathlib.Data.List.Infix
import Mathlib.Data.Nat.Notation
import Penflow.Lib.Run

/-!
# The virtual display

A `VddController` enables and disables one PnP device with `devcon.exe`, in its own process when that is
elevated and otherwise in elevated helpers: a resident helper, which enables the device, waits to be told
to stop and disables it again, or a helper for a single command.  The machine below has the process of the
controller and all helpers it ever launched.  A step is one call to the system and what the process does
with the answer, so that any other process may come in between.

The process of the controller stays alive.  A helper ends only where its code ends it.
-/

namespace Penflow

inductive VddError where
  | devNodeNotFound (instance_id : String)
  | configManager (code : UInt32)
  /-- without the hint, a text for the problem code -/
  | driverProblem (status problem : UInt32)
  | helperExitedNonZero (code : Option Int32)
  | enableHadNoEffect
  | disableHadNoEffect (status problem : UInt32)
  | shellExecute (message : String)
  deriving DecidableEq, Repr

/-! ### Commands -/

inductive DevconAction where
  | enable
  | disable
  deriving DecidableEq, Repr

def DevconAction.name : DevconAction → String
  | .enable => "enable"
  | .disable => "disable"

/-- How a run of `devcon.exe` ends. -/
inductive DevconRun where
  | notBundled
  | spawnFailed (error : String)
  | exited (code : UInt32) (stdout stderr : String)
  deriving DecidableEq, Repr

def noMatch (stdout stderr : String) : Bool :=
  "no matching devices found".toList <:+: (stdout ++ "\n" ++ stderr).toLower.toList

def devconAction (action : DevconAction) (instance_id : String) : DevconRun → Except VddError Unit
  | .notBundled => .error (.shellExecute
      "devcon.exe not found at <exe-dir>/vdd/devcon.exe — broken install?")
  | .spawnFailed error => .error (.shellExecute s!"devcon {action.name} spawn failed: {error}")
  | .exited code stdout stderr =>
    if code = 0 ∨ code = 1 ∧ noMatch stdout stderr = false then .ok ()
    else .error (.shellExecute (s!"devcon {action.name} @{instance_id} " ++
      s!"exit=ExitStatus(ExitStatus({code})); stdout={stdout.quote}; stderr={stderr.quote}"))

def crSuccess : UInt32 := 0
def crNoSuchDevnode : UInt32 := 0x0D
def dnHasProblem : UInt32 := 0x400
def cmProbDisabled : UInt32 := 22

/-- What the Configuration Manager answers about the device: the results of `CM_Locate_DevNodeW` and
`CM_Get_DevNode_Status`. -/
structure DevnodeAnswer where
  located : UInt32
  queried : UInt32
  status : UInt32
  problem : UInt32
  deriving DecidableEq, Repr

def locateDevnode (instance_id : String) (a : DevnodeAnswer) : Except VddError Unit :=
  if a.located = crSuccess then .ok ()
  else if a.located = crNoSuchDevnode then .error (.devNodeNotFound instance_id)
  else .error (.configManager a.located)

def snapshotDevnodeStatus (instance_id : String) (a : DevnodeAnswer) :
    Except VddError (UInt32 × UInt32) := do
  locateDevnode instance_id a
  if a.queried = crSuccess then .ok (a.status, a.problem) else .error (.configManager a.queried)

def hasProblem (status : UInt32) : Bool := status &&& dnHasProblem ≠ 0

def devnodeIsDisabled (instance_id : String) (a : DevnodeAnswer) : Except VddError Bool := do
  let (status, problem) ← snapshotDevnodeStatus instance_id a
  return hasProblem status && problem == cmProbDisabled

def verifyDevnodeStarted (instance_id : String) (a : DevnodeAnswer) : Except VddError Unit := do
  let (status, problem) ← snapshotDevnodeStatus instance_id a
  if hasProblem status then
    if problem = cmProbDisabled then .error .enableHadNoEffect
    else .error (.driverProblem status problem)

/-- The answers of the loop of `verify_devnode_disabled`: those before the deadline, the first one behind
it, and the one for the error. -/
structure DevnodePolls where
  early : List DevnodeAnswer
  late : DevnodeAnswer
  final : DevnodeAnswer
  deriving DecidableEq, Repr

def pollDisabled (instance_id : String) (late final : DevnodeAnswer) :
    List DevnodeAnswer → Except VddError Unit
  | [] => do
    if ← devnodeIsDisabled instance_id late then return
    let (status, problem) ← snapshotDevnodeStatus instance_id final
    .error (.disableHadNoEffect status problem)
  | a :: early => do
    if ← devnodeIsDisabled instance_id a then return
    pollDisabled instance_id late final early

def verifyDevnodeDisabled (instance_id : String) (polls : DevnodePolls) : Except VddError Unit :=
  pollDisabled instance_id polls.late polls.final polls.early

/-! ### Processes -/

/-- Where `resident_helper_main` is. -/
inductive HelperPlace where
  /-- in front of `OpenEventW(done)` -/
  | launched
  /-- in front of `OpenEventW(stop)` -/
  | doneOpened
  /-- in front of its `devcon enable` -/
  | opened
  /-- its `devcon enable` failed, in front of `SetEvent(done)` -/
  | failed
  /-- its `devcon enable` succeeded, in front of `SetEvent(done)` -/
  | started
  /-- waits for the stop event or the end of the parent -/
  | watching
  /-- in front of its `devcon disable` -/
  | leaving
  /-- in front of `verify_devnode_disabled` -/
  | verifying
  | exiting (code : UInt32)
  | exited (code : UInt32)
  deriving DecidableEq, Repr

/-- A resident helper, its two events, whether the parent still has its handles to them, and whether the
`devcon enable` of the helper succeeded, once it is through. -/
structure HelperProcess where
  place : HelperPlace
  done_event : Bool
  stop_event : Bool
  handles : Bool
  enable_ok : Option Bool
  deriving DecidableEq, Repr

def HelperProcess.new : HelperProcess where
  place := .launched
  done_event := false
  stop_event := false
  handles := true
  enable_ok := none

/-- Where `helper_main` is with its one command. -/
inductive OneShotPlace where
  | ahead
  | verifying
  | exiting (code : UInt32)
  | exited (code : UInt32)
  deriving DecidableEq, Repr

structure OneShot where
  action : DevconAction
  place : OneShotPlace
  deriving DecidableEq, Repr

def stillActive : UInt32 := 259

/-- `GetExitCodeProcess` into a `code` that is 0 -/
def readExitCode (read : Bool) (exited : Option UInt32) : UInt32 :=
  if read then exited.getD stillActive else 0

def HelperPlace.exitStatus : HelperPlace → Option UInt32
  | .exited code => some code
  | _ => none

def OneShotPlace.exitStatus : OneShotPlace → Option UInt32
  | .exited code => some code
  | _ => none

/-- Where the process of the controller is. -/
inductive ParentPlace where
  /-- in no call of the controller -/
  | idle
  /-- `enable`, in front of `verify_devnode_started` -/
  | verifyStarted
  /-- in the wait of `spawn_resident_helper` -/
  | spawnWait (i : ℕ)
  /-- in the wait of `run_helper_elevated` -/
  | oneShotWait (k : ℕ) (action : DevconAction)
  /-- `disable`, in the wait of `shutdown` -/
  | shutdown (i : ℕ)
  /-- `disable`, in front of the drop of the helper it took -/
  | dropHelper (i : ℕ) (needs_fallback : Bool)
  /-- `disable`, in front of the fallback -/
  | fallback
  /-- the fallback, in front of `verify_devnode_disabled` -/
  | verifyDisabled
  /-- the controller is being dropped, in front of the drop of `resident` -/
  | dropResident (i : ℕ)
  /-- the controller has been dropped -/
  | gone
  deriving DecidableEq, Repr

structure Vdd where
  instance_id : String
  enabled : Bool
  resident : Option ℕ
  place : ParentPlace
  /-- in `Drop` -/
  dropping : Bool
  helpers : List HelperProcess
  oneShots : List OneShot
  /-- the devcon command for the device that succeeded last -/
  device : Option DevconAction
  /-- some `devcon disable` failed -/
  disable_failed : Bool
  /-- what the last call returned -/
  returned : Option (Except VddError Unit)

/-- What comes of launching the elevated helper. -/
inductive Launch where
  | noExe (error : String)
  | refused (error : String)
  | noHandle
  | started
  deriving DecidableEq, Repr

def Launch.result : Launch → Except VddError Unit
  | .noExe error => .error (.shellExecute s!"can't resolve current exe path: {error}")
  | .refused error => .error (.shellExecute s!"ShellExecuteExW: {error}")
  | .noHandle => .error (.shellExecute
      "ShellExecuteExW returned no process handle (likely user clicked No on UAC)")
  | .started => .ok ()

/-- What comes of the two `CreateEventW`. -/
inductive CreateEvents where
  | failed (suffix error : String)
  | created
  deriving DecidableEq, Repr

def CreateEvents.result : CreateEvents → Except VddError Unit
  | .failed suffix error => .error (.shellExecute s!"CreateEventW({suffix}): {error}")
  | .created => .ok ()

inductive WaitResult where
  /-- the first handle is signaled -/
  | object0
  /-- only the second one is -/
  | object1
  | timeout
  | failed
  deriving DecidableEq, Repr

inductive ShutdownOutcome where
  | clean
  | timeout
  | nonZero (code : UInt32)
  deriving DecidableEq, Repr

inductive VddLabel where
  | enable (elevated : Bool) (run : DevconRun) (events : CreateEvents) (launch : Launch)
  | verifyStarted (a : DevnodeAnswer)
  | spawnWaitOver (r : WaitResult) (read : Bool)
  /-- the wait of `run_helper_elevated` is over, because the process has exited or not -/
  | oneShotWaitOver (object0 read : Bool)
  | disable (set : Bool)
  | drop (set : Bool)
  /-- the wait of `shutdown` is over, because the process has exited or not -/
  | shutdownOver (object0 read : Bool)
  /-- the `ResidentHelper` is dropped -/
  | helperDropped (set : Bool)
  | fallback (elevated : Bool) (run : DevconRun) (launch : Launch)
  | verifyDisabled (polls : DevnodePolls)
  | helperOpens (i : ℕ) (ok : Bool)
  | helperEnables (i : ℕ) (run : DevconRun)
  | helperSignals (i : ℕ) (set : Bool)
  /-- the watch of the helper ends, by the stop event or because a call of it failed -/
  | helperWakes (i : ℕ) (signaled : Bool)
  | helperDisables (i : ℕ) (run : DevconRun)
  | helperVerifies (i : ℕ) (polls : DevnodePolls)
  | helperExits (i : ℕ)
  | oneShotRuns (k : ℕ) (run : DevconRun)
  | oneShotVerifies (k : ℕ) (a : DevnodeAnswer) (polls : DevnodePolls)
  | oneShotExits (k : ℕ)

namespace Vdd

/-- `for_instance` -/
def new (instance_id : String) : Vdd where
  instance_id := instance_id
  enabled := false
  resident := none
  place := .idle
  dropping := false
  helpers := []
  oneShots := []
  device := none
  disable_failed := false
  returned := none

/-- What a run of devcon does to the device. -/
def devcon (s : Vdd) (action : DevconAction) (run : DevconRun) : Vdd :=
  match devconAction action s.instance_id run with
  | .ok () => { s with device := some action }
  | .error _ => { s with disable_failed := s.disable_failed || action == .disable }

theorem devcon_ok {s : Vdd} {action : DevconAction} {run : DevconRun}
    (h : devconAction action s.instance_id run = .ok ()) :
    s.devcon action run = { s with device := some action } := by
  simp only [devcon, h]

theorem devcon_error {s : Vdd} {action : DevconAction} {run : DevconRun} {e : VddError}
    (h : devconAction action s.instance_id run = .error e) :
    s.devcon action run = { s with disable_failed := s.disable_failed || action == .disable } := by
  simp only [devcon, h]

/-! ### The process of the controller -/

/-- Where a drop goes behind the `disable`: the fields are dropped. -/
def dropFields (s : Vdd) : ParentPlace :=
  match s.resident with
  | some i => .dropResident i
  | none => .gone

/-- `enable` or `disable` is called. -/
def call (s : Vdd) : Vdd := { s with returned := none }

/-- `enable` or `disable` returns. -/
def ret (s : Vdd) (r : Except VddError Unit) : Vdd :=
  { s with returned := some r, place := if s.dropping then s.dropFields else .idle }

/-- The end of `enable` and of `disable`: the flag is set, and the call returns. -/
def finish (s : Vdd) (enabled : Bool) : Vdd := { s with enabled := enabled }.ret (.ok ())

/-- The events are created behind the look for the executable and in front of the launch. -/
def spawnResult (events : CreateEvents) (launch : Launch) : Except VddError Unit :=
  match launch with
  | .noExe _ => launch.result
  | _ => do
    events.result
    launch.result

def spawnResidentHelper (s : Vdd) (events : CreateEvents) (launch : Launch) : Vdd :=
  match spawnResult events launch with
  | .error e => s.ret (.error e)
  | .ok () =>
    { s with
      helpers := s.helpers ++ [HelperProcess.new]
      place := .spawnWait s.helpers.length }

def runHelperElevated (s : Vdd) (action : DevconAction) (launch : Launch) : Vdd :=
  match launch.result with
  | .error e => s.ret (.error e)
  | .ok () =>
    { s with
      oneShots := s.oneShots ++ [⟨action, .ahead⟩]
      place := .oneShotWait s.oneShots.length action }

/-- `devcon_action`, with a `verify` behind it -/
def runDevcon (s : Vdd) (action : DevconAction) (run : DevconRun) (verify : ParentPlace) : Vdd :=
  match devconAction action s.instance_id run with
  | .ok () => { s.devcon action run with place := verify }
  | .error e => (s.devcon action run).ret (.error e)

theorem runDevcon_ok {s : Vdd} {action : DevconAction} {run : DevconRun} (verify : ParentPlace)
    (h : devconAction action s.instance_id run = .ok ()) :
    s.runDevcon action run verify = { s with device := some action, place := verify } := by
  simp only [runDevcon, h, devcon_ok h]

theorem runDevcon_error {s : Vdd} {action : DevconAction} {run : DevconRun} {e : VddError}
    (verify : ParentPlace) (h : devconAction action s.instance_id run = .error e) :
    s.runDevcon action run verify =
      { s with disable_failed := s.disable_failed || action == DevconAction.disable }.ret
        (.error e) := by
  simp only [runDevcon, h, devcon_error h]

def enable (s : Vdd) (elevated : Bool) (run : DevconRun) (events : CreateEvents) (launch : Launch) :
    Vdd :=
  match s.place with
  | .idle =>
    if elevated then s.call.runDevcon .enable run .verifyStarted
    else if s.resident.isNone then s.call.spawnResidentHelper events launch
    else s.call.runHelperElevated .enable launch
  | _ => s

def verifyStarted (s : Vdd) (a : DevnodeAnswer) : Vdd :=
  match s.place with
  | .verifyStarted =>
    match verifyDevnodeStarted s.instance_id a with
    | .ok () => s.finish true
    | .error e => s.ret (.error e)
  | _ => s

/-- A wait for the done event and the process prefers the event. -/
def waitGives (h : HelperProcess) : WaitResult → Bool
  | .object0 => h.done_event
  | .object1 => !h.done_event && h.place.exitStatus.isSome
  | .timeout => !h.done_event && h.place.exitStatus.isNone
  | .failed => true

/-- The parent closes its handles. -/
def close (s : Vdd) (i : ℕ) : Vdd :=
  { s with helpers := s.helpers.modify i fun h => { h with handles := false } }

def spawnWaitOver (s : Vdd) (r : WaitResult) (read : Bool) : Vdd :=
  match s.place with
  | .spawnWait i =>
    match s.helpers[i]? with
    | some h =>
      if waitGives h r then
        match r with
        | .object0 => { s with resident := some i }.finish true
        | _ => (s.close i).ret (.error (.shellExecute (s!"resident helper did not signal " ++
            s!"enable-done within 30s (exit code: {readExitCode read h.place.exitStatus})")))
      else s
    | none => s
  | _ => s

def oneShotWaitOver (s : Vdd) (object0 read : Bool) : Vdd :=
  match s.place with
  | .oneShotWait k action =>
    match s.oneShots[k]? with
    | some o =>
      if object0 = true → o.place.exitStatus.isSome then
        if readExitCode read o.place.exitStatus = 0 then s.finish (action == .enable)
        else
          s.ret (.error (.helperExitedNonZero (some (readExitCode read o.place.exitStatus).toInt32)))
      else s
    | none => s
  | _ => s

/-- `SetEvent(stop_event)`, which may fail -/
def setStop (s : Vdd) (i : ℕ) (set : Bool) : Vdd :=
  { s with helpers := s.helpers.modify i fun h => { h with stop_event := h.stop_event || set } }

/-- `disable` up to the wait of `shutdown`, or up to the fallback -/
def beginDisable (s : Vdd) (set : Bool) : Vdd :=
  match s.resident with
  | some i => { s.call.setStop i set with resident := none, place := .shutdown i }
  | none => { s.call with place := .fallback }

def disable (s : Vdd) (set : Bool) : Vdd :=
  match s.place with
  | .idle => s.beginDisable set
  | _ => s

def drop (s : Vdd) (set : Bool) : Vdd :=
  match s.place with
  | .idle =>
    if s.enabled then { s with dropping := true }.beginDisable set
    else { s with dropping := true, place := s.dropFields }
  | _ => s

def shutdownOutcome (object0 read : Bool) (exited : Option UInt32) : ShutdownOutcome :=
  if object0 then
    if read then
      if readExitCode read exited = 0 then .clean else .nonZero (readExitCode read exited)
    else .nonZero 0
  else .timeout

def shutdownOver (s : Vdd) (object0 read : Bool) : Vdd :=
  match s.place with
  | .shutdown i =>
    match s.helpers[i]? with
    | some h =>
      if object0 = true → h.place.exitStatus.isSome then
        { s with place :=
            .dropHelper i (shutdownOutcome object0 read h.place.exitStatus != .clean) }
      else s
    | none => s
  | _ => s

/-- `ResidentHelper::drop`: `shutdown` once more, and the handles are closed. -/
def helperDropped (s : Vdd) (set : Bool) : Vdd :=
  match s.place with
  | .dropHelper i needs_fallback =>
    if needs_fallback then { (s.setStop i set).close i with place := .fallback }
    else ((s.setStop i set).close i).finish false
  | .dropResident i => { (s.setStop i set).close i with resident := none, place := .gone }
  | _ => s

def fallback (s : Vdd) (elevated : Bool) (run : DevconRun) (launch : Launch) : Vdd :=
  match s.place with
  | .fallback =>
    if elevated then s.runDevcon .disable run .verifyDisabled
    else s.runHelperElevated .disable launch
  | _ => s

def verifyDisabled (s : Vdd) (polls : DevnodePolls) : Vdd :=
  match s.place with
  | .verifyDisabled =>
    match verifyDevnodeDisabled s.instance_id polls with
    | .ok () => s.finish false
    | .error e => s.ret (.error e)
  | _ => s

/-! ### The resident helper -/

def setHelper (s : Vdd) (i : ℕ) (h : HelperProcess) : Vdd := { s with helpers := s.helpers.set i h }

/-- A step of a helper, if there is one. -/
def onHelper (s : Vdd) (i : ℕ) (f : HelperProcess → Vdd) : Vdd :=
  match s.helpers[i]? with
  | some h => f h
  | none => s

/-- The event of a name is there only as long as someone has a handle to it. -/
def helperOpens (s : Vdd) (i : ℕ) (h : HelperProcess) (ok : Bool) : Vdd :=
  match h.place with
  | .launched => s.setHelper i { h with place := if ok && h.handles then .doneOpened else .exiting 2 }
  | .doneOpened => s.setHelper i { h with place := if ok && h.handles then .opened else .exiting 2 }
  | _ => s

def helperEnables (s : Vdd) (i : ℕ) (h : HelperProcess) (run : DevconRun) : Vdd :=
  match h.place with
  | .opened =>
    match devconAction .enable s.instance_id run with
    | .ok () =>
      (s.devcon .enable run).setHelper i { h with place := .started, enable_ok := some true }
    | .error _ =>
      (s.devcon .enable run).setHelper i { h with place := .failed, enable_ok := some false }
  | _ => s

/-- `SetEvent(done)`.  What `verify_devnode_started` says before it is only logged. -/
def helperSignals (s : Vdd) (i : ℕ) (h : HelperProcess) (set : Bool) : Vdd :=
  match h.place with
  | .started => s.setHelper i { h with place := .watching, done_event := h.done_event || set }
  | .failed => s.setHelper i { h with place := .exiting 1, done_event := h.done_event || set }
  | _ => s

def helperWakes (s : Vdd) (i : ℕ) (h : HelperProcess) (signaled : Bool) : Vdd :=
  match h.place with
  | .watching =>
    if signaled = true → h.stop_event = true then s.setHelper i { h with place := .leaving } else s
  | _ => s

def helperDisables (s : Vdd) (i : ℕ) (h : HelperProcess) (run : DevconRun) : Vdd :=
  match h.place with
  | .leaving =>
    match devconAction .disable s.instance_id run with
    | .ok () => (s.devcon .disable run).setHelper i { h with place := .verifying }
    | .error _ => (s.devcon .disable run).setHelper i { h with place := .exiting 1 }
  | _ => s

def helperVerifies (s : Vdd) (i : ℕ) (h : HelperProcess) (polls : DevnodePolls) : Vdd :=
  match h.place with
  | .verifying =>
    match verifyDevnodeDisabled s.instance_id polls with
    | .ok () => s.setHelper i { h with place := .exiting 0 }
    | .error _ => s.setHelper i { h with place := .exiting 1 }
  | _ => s

def helperExits (s : Vdd) (i : ℕ) (h : HelperProcess) : Vdd :=
  match h.place with
  | .exiting code => s.setHelper i { h with place := .exited code }
  | _ => s

/-! ### The helper for one command -/

def setOneShot (s : Vdd) (k : ℕ) (o : OneShot) : Vdd := { s with oneShots := s.oneShots.set k o }

def onOneShot (s : Vdd) (k : ℕ) (f : OneShot → Vdd) : Vdd :=
  match s.oneShots[k]? with
  | some o => f o
  | none => s

def oneShotRuns (s : Vdd) (k : ℕ) (o : OneShot) (run : DevconRun) : Vdd :=
  match o.place with
  | .ahead =>
    match devconAction o.action s.instance_id run with
    | .ok () => (s.devcon o.action run).setOneShot k { o with place := .verifying }
    | .error _ => (s.devcon o.action run).setOneShot k { o with place := .exiting 1 }
  | _ => s

def OneShot.verify (o : OneShot) (instance_id : String) (a : DevnodeAnswer) (polls : DevnodePolls) :
    Except VddError Unit :=
  match o.action with
  | .enable => verifyDevnodeStarted instance_id a
  | .disable => verifyDevnodeDisabled instance_id polls

def oneShotVerifies (s : Vdd) (k : ℕ) (o : OneShot) (a : DevnodeAnswer) (polls : DevnodePolls) : Vdd :=
  match o.place with
  | .verifying =>
    match OneShot.verify o s.instance_id a polls with
    | .ok () => s.setOneShot k { o with place := .exiting 0 }
    | .error _ => s.setOneShot k { o with place := .exiting 1 }
  | _ => s

def oneShotExits (s : Vdd) (k : ℕ) (o : OneShot) : Vdd :=
  match o.place with
  | .exiting code => s.setOneShot k { o with place := .exited code }
  | _ => s

def step (s : Vdd) : VddLabel → Vdd
  | .enable elevated run events launch => s.enable elevated run events launch
  | .verifyStarted a => s.verifyStarted a
  | .spawnWaitOver r read => s.spawnWaitOver r read
  | .oneShotWaitOver object0 read => s.oneShotWaitOver object0 read
  | .disable set => s.disable set
  | .drop set => s.drop set
  | .shutdownOver object0 read => s.shutdownOver object0 read
  | .helperDropped set => s.helperDropped set
  | .fallback elevated run launch => s.fallback elevated run launch
  | .verifyDisabled polls => s.verifyDisabled polls
  | .helperOpens i ok => s.onHelper i fun h => s.helperOpens i h ok
  | .helperEnables i run => s.onHelper i fun h => s.helperEnables i h run
  | .helperSignals i set => s.onHelper i fun h => s.helperSignals i h set
  | .helperWakes i signaled => s.onHelper i fun h => s.helperWakes i h signaled
  | .helperDisables i run => s.onHelper i fun h => s.helperDisables i h run
  | .helperVerifies i polls => s.onHelper i fun h => s.helperVerifies i h polls
  | .helperExits i => s.onHelper i fun h => s.helperExits i h
  | .oneShotRuns k run => s.onOneShot k fun o => s.oneShotRuns k o run
  | .oneShotVerifies k a polls => s.onOneShot k fun o => s.oneShotVerifies k o a polls
  | .oneShotExits k => s.onOneShot k fun o => s.oneShotExits k o

end Vdd

end Penflow
