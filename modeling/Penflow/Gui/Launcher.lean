import Mathlib.Logic.Function.Basic
import Penflow.Gui.Settings
import Penflow.Lib.Run

/-!
# What starts Penflow at logon

Two things can start the program: the value under the `Run` key of the registry, and a scheduled task, which
starts it elevated and without a prompt.  `save_settings` sets both from the two settings `run_as_admin` and
`autostart`; every launch of the program sets the `Run` value once more, from `autostart` alone.

`schtasks.exe` belongs to Windows: what its calls leave of the tasks is a parameter.
-/

namespace Penflow

def valueName : String := "Penflow"

def adminTaskName : String := "Penflow"

/-- A task of the scheduler: the program it runs, its schedule and its run level. -/
structure ScheduledTask where
  tr : String
  sc : String
  rl : String
  deriving DecidableEq, Repr

/-- What the operating system keeps of the launchers. -/
structure LauncherOs where
  /-- the values under `RUN_KEY` -/
  run : String → Option String
  /-- the tasks of the scheduler -/
  tasks : String → Option ScheduledTask

/-- The machine the GUI runs on. -/
structure Desktop where
  os : LauncherOs
  /-- `settings.json`, when it is there and can be parsed -/
  settingsFile : Option Settings
  /-- the resolution in the settings file of the installed driver -/
  vddFile : Option DisplayResolution

/-! ### The calls to the operating system -/

/-- How the calls of a command end: each fails with the text given for it. -/
structure OsFaults where
  save : Option String
  setAutostart : Option String
  /-- `schtasks.exe /Query` could not be run -/
  query : Bool
  schtasks : Option String
  writeVdd : Option String
  /-- `settings.json` could not be read -/
  load : Bool
  runTask : Option String
  relaunch : Option String
  deriving DecidableEq, Repr

/-- Every call succeeds. -/
def OsFaults.none : OsFaults := ⟨.none, .none, false, .none, .none, false, .none, .none⟩

/-- `"\"{}\""` -/
def quoted (exe : String) : String := "\"" ++ exe ++ "\""

def setAutostart (faults : OsFaults) (exe : String) (enabled : Bool) (os : LauncherOs) :
    Except String Unit × LauncherOs :=
  match faults.setAutostart with
  | some e => (.error e, os)
  | none =>
      let value := if enabled then some (quoted exe) else none
      (.ok (), { os with run := Function.update os.run valueName value })

/-- `schtasks.exe` -/
class Schtasks where
  /-- the tasks a call with these arguments leaves, when it ends with exit code 0 -/
  call : List String → (String → Option ScheduledTask) → String → Option ScheduledTask
  /-- `/Query /TN` with this name ends with exit code 0 -/
  query : String → (String → Option ScheduledTask) → Bool

/-- What is documented of the calls the program makes.  With `/F` a task that is there already is replaced. -/
structure Schtasks.Documented [Schtasks] : Prop where
  createOnLogon : ∀ name tr tasks,
    call ["/Create", "/TN", name, "/TR", tr, "/SC", "ONLOGON", "/RL", "HIGHEST", "/F"] tasks =
      Function.update tasks name (some ⟨tr, "ONLOGON", "HIGHEST"⟩)
  createOnce : ∀ name tr tasks,
    call ["/Create", "/TN", name, "/TR", tr, "/SC", "ONCE", "/ST", "00:00", "/SD", "01/01/2099",
        "/RL", "HIGHEST", "/F"] tasks =
      Function.update tasks name (some ⟨tr, "ONCE", "HIGHEST"⟩)
  delete : ∀ name tasks, call ["/Delete", "/TN", name, "/F"] tasks = Function.update tasks name none
  query : ∀ name tasks, Schtasks.query name tasks = (tasks name).isSome

/-- The argument behind a switch. -/
def argOf (switch : String) : List String → Option String
  | a :: b :: args => if a = switch then some b else argOf switch (b :: args)
  | _ => none

/-- One that knows these calls alone. -/
abbrev Schtasks.reference : Schtasks where
  call args tasks :=
    match args with
    | "/Create" :: "/TN" :: name :: "/TR" :: tr :: args =>
        match argOf "/SC" args, argOf "/RL" args with
        | some sc, some rl => Function.update tasks name (some ⟨tr, sc, rl⟩)
        | _, _ => tasks
    | ["/Delete", "/TN", name, "/F"] => Function.update tasks name none
    | _ => tasks
  query name tasks := (tasks name).isSome

theorem Schtasks.reference_documented : @Documented reference := by
  refine @Documented.mk reference ?_ ?_ ?_ ?_
  · intro name tr tasks
    rfl
  · intro name tr tasks
    rfl
  · intro name tasks
    rfl
  · intro name tasks
    rfl

variable [Schtasks]

def runSchtasks (faults : OsFaults) (args : List String) (os : LauncherOs) :
    Except String Unit × LauncherOs :=
  match faults.schtasks with
  | some e => (.error e, os)
  | none => (.ok (), { os with tasks := Schtasks.call args os.tasks })

def hasAdminTask (faults : OsFaults) (os : LauncherOs) : Bool :=
  !faults.query && Schtasks.query adminTaskName os.tasks

/-- The arguments of `create_admin_task`. -/
def createArgs (exe : String) (withLogonTrigger : Bool) : List String :=
  if withLogonTrigger then
    ["/Create", "/TN", adminTaskName, "/TR", quoted exe, "/SC", "ONLOGON", "/RL", "HIGHEST", "/F"]
  else
    ["/Create", "/TN", adminTaskName, "/TR", quoted exe, "/SC", "ONCE", "/ST", "00:00", "/SD",
      "01/01/2099", "/RL", "HIGHEST", "/F"]

def createAdminTask (faults : OsFaults) (exe : String) (withLogonTrigger : Bool) (os : LauncherOs) :
    Except String Unit × LauncherOs :=
  runSchtasks faults (createArgs exe withLogonTrigger) os

def deleteAdminTask (faults : OsFaults) (os : LauncherOs) : Except String Unit × LauncherOs :=
  if hasAdminTask faults os then runSchtasks faults ["/Delete", "/TN", adminTaskName, "/F"] os
  else (.ok (), os)

/-! ### The commands -/

/-- `if let Err(e) = … { return Err(format!("{context}: {e}")) }` -/
def orReturn (context : String) (call : Except String Unit × LauncherOs)
    (next : LauncherOs → Except String Unit × LauncherOs) : Except String Unit × LauncherOs :=
  match call with
  | (.error e, os) => (.error s!"{context}: {e}", os)
  | (.ok (), os) => next os

/-- The part of `save_settings` that sets the launchers. -/
def applyLaunchers (faults : OsFaults) (exe : String) (new : Settings) (os : LauncherOs) :
    Except String Unit × LauncherOs :=
  if new.run_as_admin then
    orReturn "autostart cleanup failed" (setAutostart faults exe false os) fun os =>
      orReturn "admin task create failed" (createAdminTask faults exe new.autostart os) fun os =>
        (.ok (), os)
  else
    orReturn "admin task delete failed" (deleteAdminTask faults os) fun os =>
      orReturn "autostart toggle failed" (setAutostart faults exe new.autostart os) fun os =>
        (.ok (), os)

def saveSettings (faults : OsFaults) (exe : String) (vddInstalled : Bool) (new : Settings) (d : Desktop) :
    Except String Unit × Desktop :=
  match new.validate with
  | .error e => (.error e, d)
  | .ok () =>
      match faults.save with
      | some e => (.error e, d)
      | none =>
          let launchers := applyLaunchers faults exe new d.os
          let d := { d with settingsFile := some new, os := launchers.2 }
          match launchers.1 with
          | .error e => (.error e, d)
          | .ok () =>
              if vddInstalled then
                match faults.writeVdd with
                | some e => (.error s!"VDD settings write failed: {e}", d)
                | none => (.ok (), { d with vddFile := some new.vdd_resolution })
              else (.ok (), d)

/-- `settings::load` -/
def loadSettings (faults : OsFaults) (d : Desktop) : Settings :=
  if faults.load then .default else d.settingsFile.getD .default

/-- How a launch ends. -/
inductive Launched where
  /-- in `helper_main`, with these arguments -/
  | helper (args : List String)
  /-- an elevated copy was started in its place -/
  | handedOff
  /-- with the window, under these settings -/
  | window (settings : Settings)
  deriving DecidableEq, Repr

/-- An elevated copy could be started, by the task or else by `runas`. -/
def handOff (faults : OsFaults) (os : LauncherOs) : Bool :=
  (hasAdminTask faults os && faults.runTask.isNone) || faults.relaunch.isNone

/-- `main` up to the window -/
def guiMain (faults : OsFaults) (exe : String) (argv : List String) (elevated : Bool) (d : Desktop) :
    Launched × Desktop :=
  if argv[1]? = some "--vdd-helper" then (.helper argv.tail, d)
  else
    let initial := loadSettings faults d
    -- a failed sync is only logged
    let d := { d with os := (setAutostart faults exe initial.autostart d.os).2 }
    if initial.run_as_admin && !elevated && handOff faults d.os then (.handedOff, d)
    else (.window initial, d)

inductive GuiEvent where
  | save (faults : OsFaults) (vddInstalled : Bool) (new : Settings)
  | launch (faults : OsFaults) (argv : List String) (elevated : Bool)
  deriving DecidableEq, Repr

/-- What an event leaves on the machine. -/
def Desktop.step (exe : String) (d : Desktop) : GuiEvent → Desktop
  | .save faults vddInstalled new => (saveSettings faults exe vddInstalled new d).2
  | .launch faults argv elevated => (guiMain faults exe argv elevated d).2

namespace GuiEvent

/-- The command returns `Ok`, and no call to the operating system fails in it. -/
def Succeeds : GuiEvent → Prop
  | save faults _ new => new.validate = .ok () ∧ faults = .none
  | launch faults _ _ => faults = .none

def IsSave : GuiEvent → Prop
  | save _ _ _ => True
  | launch _ _ _ => False

/-- The program was started as the GUI. -/
def IsGuiLaunch : GuiEvent → Prop
  | save _ _ _ => False
  | launch _ argv _ => argv[1]? ≠ some "--vdd-helper"

end GuiEvent

/-! ### What the commands do when no call fails -/

variable {exe : String} {new : Settings} {d : Desktop} {os : LauncherOs}

omit [Schtasks] in
theorem setAutostart_none (exe : String) (enabled : Bool) (os : LauncherOs) :
    setAutostart .none exe enabled os = (.ok (), { os with
      run := Function.update os.run valueName (if enabled then some (quoted exe) else none) }) := rfl

theorem createAdminTask_none (hs : Schtasks.Documented) (exe : String) (withLogonTrigger : Bool) (os : LauncherOs) :
    createAdminTask .none exe withLogonTrigger os = (.ok (), { os with
      tasks := Function.update os.tasks adminTaskName
        (some ⟨quoted exe, if withLogonTrigger then "ONLOGON" else "ONCE", "HIGHEST"⟩) }) := by
  cases withLogonTrigger with
  | false =>
      refine congrArg (Prod.mk _) ?_
      exact congrArg (LauncherOs.mk os.run) (hs.createOnce adminTaskName (quoted exe) os.tasks)
  | true =>
      refine congrArg (Prod.mk _) ?_
      exact congrArg (LauncherOs.mk os.run) (hs.createOnLogon adminTaskName (quoted exe) os.tasks)

/-- Without a task there is nothing to delete, and nothing is. -/
theorem deleteAdminTask_none (hs : Schtasks.Documented) (os : LauncherOs) :
    deleteAdminTask .none os = (.ok (), { os with tasks := Function.update os.tasks adminTaskName none }) := by
  unfold deleteAdminTask
  by_cases h : os.tasks adminTaskName = none
  · have hno : hasAdminTask .none os = false := by simp [hasAdminTask, hs.query, h]
    rw [hno, ← h, Function.update_eq_self]
    rfl
  · have hyes : hasAdminTask .none os = true := by
      simp [hasAdminTask, OsFaults.none, hs.query, Option.isSome_iff_ne_none, h]
    rw [hyes, if_pos rfl]
    exact congrArg (fun tasks => (_, LauncherOs.mk os.run tasks)) (hs.delete adminTaskName os.tasks)

/-- **What a save leaves.**  One value and one task, each as the two settings say. -/
theorem applyLaunchers_none (hs : Schtasks.Documented) (exe : String) (new : Settings) (os : LauncherOs) :
    applyLaunchers .none exe new os = (.ok (),
      { run := Function.update os.run valueName
          (if new.autostart && !new.run_as_admin then some (quoted exe) else none)
        tasks := Function.update os.tasks adminTaskName (if new.run_as_admin then
          some ⟨quoted exe, if new.autostart then "ONLOGON" else "ONCE", "HIGHEST"⟩ else none) }) := by
  unfold applyLaunchers
  cases h : new.run_as_admin with
  | false =>
      rw [deleteAdminTask_none hs]
      simp [orReturn, setAutostart_none]
  | true =>
      rw [setAutostart_none]
      simp [orReturn, createAdminTask_none hs]

theorem saveSettings_none (hs : Schtasks.Documented) (exe : String) (d : Desktop) (hvalid : new.validate = .ok ())
    (vddInstalled : Bool) :
    (saveSettings .none exe vddInstalled new d).1 = .ok () ∧
      (saveSettings .none exe vddInstalled new d).2.settingsFile = some new ∧
      (saveSettings .none exe vddInstalled new d).2.os = (applyLaunchers .none exe new d.os).2 := by
  have hsave : OsFaults.none.save = .none := rfl
  have hwrite : OsFaults.none.writeVdd = .none := rfl
  have hlaunchers : (applyLaunchers .none exe new d.os).1 = .ok () := by rw [applyLaunchers_none hs]
  unfold saveSettings
  rw [hvalid, hsave, hwrite]
  simp only [hlaunchers]
  cases vddInstalled with
  | false => exact ⟨rfl, rfl, rfl⟩
  | true => exact ⟨rfl, rfl, rfl⟩

/-- **What a launch leaves.**  The `Run` value as `autostart` says, and the tasks as they were. -/
theorem guiMain_none {argv : List String} (hgui : argv[1]? ≠ some "--vdd-helper") (elevated : Bool) :
    (guiMain .none exe argv elevated d).2 = { d with os := { d.os with
      run := Function.update d.os.run valueName
        (if (d.settingsFile.getD .default).autostart then some (quoted exe) else none) } } := by
  unfold guiMain
  rw [if_neg hgui]
  have hload : loadSettings .none d = d.settingsFile.getD .default := rfl
  -- both ways on leave the machine alone
  simp only [hload, setAutostart_none, apply_ite Prod.snd, ite_self]

theorem guiMain_helper {faults : OsFaults} {argv : List String} (h : argv[1]? = some "--vdd-helper")
    (elevated : Bool) : (guiMain faults exe argv elevated d).2 = d := by
  unfold guiMain
  rw [if_pos h]

/-! ### The matrix -/

/-- The launchers are the ones the table in `save_settings` gives for the settings. -/
structure MatchesMatrix (s : Settings) (os : LauncherOs) : Prop where
  run : (os.run valueName).isSome ↔ s.autostart ∧ ¬ s.run_as_admin
  task : (os.tasks adminTaskName).isSome ↔ s.run_as_admin
  trigger : (os.tasks adminTaskName).any (·.sc = "ONLOGON") ↔ s.run_as_admin ∧ s.autostart

/-- The launchers are the ones of the saved settings. -/
def Desktop.InMatrix (d : Desktop) : Prop := MatchesMatrix (d.settingsFile.getD .default) d.os

theorem applyLaunchers_matches (hs : Schtasks.Documented) (exe : String) (new : Settings) (os : LauncherOs) :
    MatchesMatrix new (applyLaunchers .none exe new os).2 := by
  rw [applyLaunchers_none hs]
  cases hadmin : new.run_as_admin with
  | false =>
      cases hauto : new.autostart with
      | false => constructor <;> simp [hadmin, hauto]
      | true => constructor <;> simp [hadmin, hauto]
  | true =>
      cases hauto : new.autostart with
      | false => constructor <;> simp [hadmin, hauto]
      | true => constructor <;> simp [hadmin, hauto]

/-- A save that succeeds puts the launchers right, whatever they were. -/
theorem inMatrix_of_save (hs : Schtasks.Documented) {e : GuiEvent} (hok : e.Succeeds) (hsave : e.IsSave) (d : Desktop) :
    (d.step exe e).InMatrix := by
  cases e with
  | launch faults argv elevated => cases hsave
  | save faults vddInstalled new =>
      obtain ⟨hvalid, rfl⟩ := hok
      obtain ⟨-, hfile, hos⟩ := saveSettings_none hs exe d hvalid vddInstalled
      show MatchesMatrix _ _
      rw [Desktop.step, hfile, hos]
      exact applyLaunchers_matches hs exe new d.os

/-- **The step of a launch.**  It leaves the launchers right just when the settings do not ask for both. -/
theorem inMatrix_launch_iff (h : d.InMatrix) {argv : List String} (elevated : Bool) :
    (d.step exe (.launch .none argv elevated)).InMatrix ↔
      (argv[1]? ≠ some "--vdd-helper" →
        ¬ ((d.settingsFile.getD .default).run_as_admin ∧ (d.settingsFile.getD .default).autostart)) := by
  show (guiMain .none exe argv elevated d).2.InMatrix ↔ _
  by_cases hgui : argv[1]? = some "--vdd-helper"
  · rw [guiMain_helper hgui]
    exact ⟨fun _ hne => absurd hgui hne, fun _ => h⟩
  · rw [guiMain_none hgui]
    unfold Desktop.InMatrix at h ⊢
    generalize d.settingsFile.getD .default = s at h ⊢
    constructor
    · rintro ⟨hrun, -, -⟩ - ⟨hadmin, hauto⟩
      rw [hauto, hadmin] at hrun
      simp at hrun
    · intro hnot
      refine ⟨?_, h.task, h.trigger⟩
      have hnot := hnot hgui
      cases hauto : s.autostart with
      | false => simp
      | true =>
          rw [hauto] at hnot
          simpa using hnot

/-- **The matrix along a history.**  When no call fails, the launchers are the ones of the saved settings after
every step from the first save on just when none of the later launches finds both `run_as_admin` and
`autostart` saved. -/
theorem launcherMatrix_iff (hs : Schtasks.Documented) (exe : String) (d : Desktop) (events : List GuiEvent)
    (hok : ∀ e ∈ events, e.Succeeds) :
    (∀ pre, pre <+: events → (∃ e ∈ pre, e.IsSave) → (pre.foldl (Desktop.step exe) d).InMatrix) ↔
      ∀ pre e, pre ++ [e] <+: events → (∃ e' ∈ pre, e'.IsSave) → e.IsGuiLaunch →
        ¬ (((pre.foldl (Desktop.step exe) d).settingsFile.getD .default).run_as_admin ∧
          ((pre.foldl (Desktop.step exe) d).settingsFile.getD .default).autostart) := by
  apply Run.after_iff (I := Desktop.InMatrix) (P := fun (d : Desktop) (e : GuiEvent) => e.IsGuiLaunch →
    ¬ ((d.settingsFile.getD .default).run_as_admin ∧ (d.settingsFile.getD .default).autostart))
  · exact fun d e he hsave => inMatrix_of_save hs (hok e he) hsave d
  · intro d e he hd
    cases e with
    | save faults vddInstalled new =>
        exact iff_of_true (inMatrix_of_save hs (hok _ he) trivial d) (fun h => h.elim)
    | launch faults argv elevated =>
        have hfaults : faults = .none := hok _ he
        rw [hfaults]
        exact inMatrix_launch_iff hd elevated

omit [Schtasks] in
/-- Two saves and two launches, of which neither finds both settings saved: the task stays the one launcher. -/
theorem launcherMatrix_iff_admin :
    letI := Schtasks.reference
    let events : List GuiEvent :=
      [.save .none true { Settings.default with run_as_admin := true, autostart := true },
        .save .none true { Settings.default with run_as_admin := true },
        .launch .none ["penflow-gui.exe"] false, .launch .none ["penflow-gui.exe"] true]
    let d : Desktop := ⟨⟨fun _ => none, fun _ => none⟩, none, none⟩
    ∀ pre, pre <+: events → (∃ e ∈ pre, e.IsSave) → (pre.foldl (Desktop.step "penflow-gui.exe") d).InMatrix := by
  let _ := Schtasks.reference
  intro events d
  have hok : ∀ e ∈ events, e.Succeeds := by
    intro e he
    simp only [events, List.mem_cons, List.not_mem_nil, or_false] at he
    rcases he with rfl | rfl | rfl | rfl
    · exact ⟨rfl, rfl⟩
    · exact ⟨rfl, rfl⟩
    · exact rfl
    · exact rfl
  refine (launcherMatrix_iff Schtasks.reference_documented "penflow-gui.exe" d events hok).2 ?_
  intro pre e hpre _ hlaunch hboth
  match pre with
  | [] =>
      rw [List.nil_append, List.cons_prefix_cons] at hpre
      rw [hpre.1] at hlaunch
      exact hlaunch
  | [a] =>
      simp only [events, List.cons_append, List.nil_append, List.cons_prefix_cons] at hpre
      rw [hpre.2.1] at hlaunch
      exact hlaunch
  | [a, b] =>
      simp only [events, List.cons_append, List.nil_append, List.cons_prefix_cons] at hpre
      rw [hpre.1, hpre.2.1] at hboth
      exact Bool.false_ne_true hboth.2
  | [a, b, c] =>
      simp only [events, List.cons_append, List.nil_append, List.cons_prefix_cons] at hpre
      rw [hpre.1, hpre.2.1, hpre.2.2.1] at hboth
      exact Bool.false_ne_true hboth.2
  | a :: b :: c :: f :: pre =>
      have hlong : (a :: b :: c :: f :: pre ++ [e]).length ≤ 4 := hpre.length_le
      simp only [List.length_append, List.length_cons] at hlong
      omega

omit [Schtasks] in
/-- **The duplicate launcher.**  With both settings saved the save leaves the task alone; the next launch puts
the `Run` value beside it. -/
theorem launch_adds_run_value :
    letI := Schtasks.reference
    let events : List GuiEvent :=
      [.save .none false { Settings.default with run_as_admin := true, autostart := true },
        .launch .none ["penflow-gui.exe"] false]
    let d : Desktop := ⟨⟨fun _ => none, fun _ => none⟩, none, none⟩
    (∀ e ∈ events, e.Succeeds) ∧
      ¬ (events.foldl (Desktop.step "penflow-gui.exe") d).InMatrix := by
  let _ := Schtasks.reference
  intro events d
  constructor
  · intro e he
    simp only [events, List.mem_cons, List.not_mem_nil, or_false] at he
    rcases he with rfl | rfl
    · exact ⟨rfl, rfl⟩
    · exact rfl
  · intro h
    have hrun := h.run.1 (by decide +kernel)
    exact hrun.2 (by decide +kernel)

/-! ### When calls fail -/

/-- A save that is rejected, or cannot write the file, leaves everything as it was. -/
theorem saveSettings_rejected {faults : OsFaults} (vddInstalled : Bool)
    (h : new.validate ≠ .ok () ∨ faults.save ≠ none) :
    (saveSettings faults exe vddInstalled new d).2 = d := by
  unfold saveSettings
  cases hvalid : new.validate with
  | error e => rfl
  | ok u =>
      cases hsave : faults.save with
      | some e => rfl
      | none =>
          rw [hvalid, hsave] at h
          simp at h

/-- With `run_as_admin` the `Run` value goes first: whatever fails behind it, there is no second launcher. -/
theorem applyLaunchers_run_absent {faults : OsFaults} (hadmin : new.run_as_admin = true)
    (hauto : faults.setAutostart = none) : (applyLaunchers faults exe new os).2.run valueName = none := by
  unfold applyLaunchers
  rw [if_pos hadmin]
  unfold setAutostart
  rw [hauto]
  simp only [orReturn, createAdminTask, runSchtasks]
  cases faults.schtasks with
  | some e => simp
  | none => simp

end Penflow
