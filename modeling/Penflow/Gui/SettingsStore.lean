import Penflow.Gui.Launcher
import Penflow.Lib.AtomicFile

/-!
# The settings across saves, crashes and launches

`settings::save` replaces `settings.json` through `settings.json.tmp`, and `save_settings` keeps the saved
settings in memory once it is through.  The commands of the window come one at a time; the process may be
killed, and the power cut, between any two steps.  What `serde_json` makes of the settings and of the bytes of a
file are the parameters `toVecPretty` and `fromSlice`.
-/

namespace Penflow

/-- Where `save_settings` is with the file. -/
inductive SaveCommand where
  | none
  /-- in `settings::save` -/
  | saving (new : Settings)
  /-- behind it, in front of the write to the memory -/
  | saved (new : Settings)
  deriving DecidableEq, Repr

/-- The settings that are on the disk and not yet in the memory. -/
def SaveCommand.saved? : SaveCommand → Option Settings
  | .saved new => some new
  | _ => Option.none

/-- The GUI and the file of its settings. -/
structure SettingsApp where
  store : AtomicFile.Store UInt8
  command : SaveCommand
  /-- the `SharedSettings` of the process, if it is running -/
  shared : Option Settings
  deriving DecidableEq, Repr

inductive SettingsEvent where
  /-- `main` up to its window; the file may be there and yet not readable -/
  | launch (readFails : Bool)
  | saveSettings (new : Settings)
  /-- a step of `settings::save`, or of the disk -/
  | file (e : AtomicFile.Event UInt8)
  /-- `*state.settings.write() = new` -/
  | write
  | killed
  | powerCut (left : AtomicFile.Disk UInt8)
  deriving DecidableEq, Repr

section Serde

variable (toVecPretty : Settings → List UInt8) (fromSlice : List UInt8 → Option Settings)

namespace SettingsApp

/-- There is no file yet. -/
def fresh : SettingsApp := ⟨.start none, .none, none⟩

/-- What `settings.json` says, if it is there and can be parsed. -/
def settingsFile (a : SettingsApp) : Option Settings := a.store.found.bind fromSlice

/-- `settings::load` -/
def load (readFails : Bool) (a : SettingsApp) : Settings :=
  if readFails then .default else (a.settingsFile fromSlice).getD .default

def launch (a : SettingsApp) (readFails : Bool) : SettingsApp :=
  match a.shared with
  | none => { a with shared := some (a.load fromSlice readFails) }
  | some _ => a

def saveSettings (a : SettingsApp) (new : Settings) : SettingsApp :=
  match a.shared, a.command, new.validate with
  | some _, .none, .ok () => { a with command := .saving new, store := a.store.step (.begins (toVecPretty new)) }
  | _, _, _ => a

/-- The command goes along with the file: it returns where a step fails. -/
def file (a : SettingsApp) (e : AtomicFile.Event UInt8) : SettingsApp :=
  if e.isInner then
    match a.command with
    | .saving new =>
      { a with
        store := a.store.step e
        command :=
          if (a.store.step e).saver = .idle then (if e = .renames true then .saved new else .none)
          else .saving new }
    | _ => { a with store := a.store.step e }
  else a

def write (a : SettingsApp) : SettingsApp :=
  match a.command with
  | .saved new => { a with command := .none, shared := some new }
  | _ => a

def step (a : SettingsApp) : SettingsEvent → SettingsApp
  | .launch readFails => a.launch fromSlice readFails
  | .saveSettings new => a.saveSettings toVecPretty new
  | .file e => a.file e
  | .write => a.write
  | .killed => ⟨a.store.step .killed, .none, none⟩
  | .powerCut left => ⟨a.store.step (.powerCut left), .none, none⟩

def after (es : List SettingsEvent) : SettingsApp := es.foldl (step toVecPretty fromSlice) fresh

/-- A power cut leaves what one can leave, and what is saved can be read again. -/
def Possible (a : SettingsApp) : SettingsEvent → Prop
  | .powerCut left => a.store.disk.CutTo left
  | .saveSettings new => fromSlice (toVecPretty new) = some new
  | _ => True

end SettingsApp

/-! ### What is in the file -/

namespace SettingsApp

variable {toVecPretty fromSlice} {asked : Settings → Prop} {a : SettingsApp}

/-- The settings were asked for, are good ones, and can be read again. -/
structure Saved (fromSlice : List UInt8 → Option Settings) (toVecPretty : Settings → List UInt8)
    (asked : Settings → Prop) (new : Settings) : Prop where
  asked : asked new
  valid : new.validate = .ok ()
  readable : fromSlice (toVecPretty new) = some new

/-- The content that the command puts in place. -/
def content? (toVecPretty : Settings → List UInt8) : SaveCommand → Option (List UInt8)
  | .saving new => some (toVecPretty new)
  | _ => none

/-- **The invariant.** -/
structure Inv (fromSlice : List UInt8 → Option Settings) (toVecPretty : Settings → List UInt8)
    (asked : Settings → Prop) (a : SettingsApp) : Prop where
  whole : a.store.Whole
  follows : a.store.saver.new? = content? toVecPretty a.command
  replaced : ∀ data ∈ a.store.replaced, ∃ new, data = toVecPretty new ∧ Saved fromSlice toVecPretty asked new
  saving : ∀ new, a.command = .saving new ∨ a.command = .saved new → Saved fromSlice toVecPretty asked new
  stopped : a.shared = none → a.command = .none
  valid : ∀ s, a.shared = some s → s.validate = .ok ()

theorem default_valid : Settings.default.validate = .ok () := by decide

theorem Inv.load_cases (h : a.Inv fromSlice toVecPretty asked) (readFails : Bool) :
    a.load fromSlice readFails = .default ∨
      ∃ new, a.store.found = some (toVecPretty new) ∧ a.load fromSlice readFails = new ∧
        Saved fromSlice toVecPretty asked new := by
  cases readFails with
  | true => exact Or.inl rfl
  | false =>
      cases hfound : a.store.found with
      | none =>
          left
          rw [load, settingsFile, hfound]
          rfl
      | some data =>
          obtain ⟨new, rfl, hsaved⟩ := h.replaced data (h.whole.found_mem hfound)
          refine Or.inr ⟨new, rfl, ?_, hsaved⟩
          rw [load, settingsFile, hfound, Option.bind_some, hsaved.readable]
          rfl

/-- Whatever is loaded is good. -/
theorem Inv.load_valid (h : a.Inv fromSlice toVecPretty asked) (readFails : Bool) :
    (a.load fromSlice readFails).validate = .ok () := by
  rcases h.load_cases readFails with hdefault | ⟨new, -, hload, hsaved⟩
  · rw [hdefault]
    exact default_valid
  · rw [hload]
    exact hsaved.valid

theorem fresh_inv : fresh.Inv fromSlice toVecPretty asked where
  whole := AtomicFile.Store.start_whole none
  follows := rfl
  replaced := by
    intro data hdata
    cases hdata
  saving := by
    intro new hnew
    rcases hnew with hnew | hnew
    · cases hnew
    · cases hnew
  stopped := fun _ => rfl
  valid := by
    intro s hs
    cases hs

theorem launch_inv (h : a.Inv fromSlice toVecPretty asked) (readFails : Bool) :
    (a.launch fromSlice readFails).Inv fromSlice toVecPretty asked := by
  unfold launch
  split
  case h_1 =>
    refine ⟨h.whole, h.follows, h.replaced, h.saving, ?_, ?_⟩
    · intro hnone
      cases hnone
    · intro s hs
      cases hs
      exact h.load_valid readFails
  case h_2 => exact h

/-- The process is gone, and with it the command. -/
theorem stopped_inv {store : AtomicFile.Store UInt8} (h : a.Inv fromSlice toVecPretty asked) (hwhole : store.Whole)
    (hsaver : store.saver = .idle) (hreplaced : store.replaced = a.store.replaced) :
    (⟨store, .none, none⟩ : SettingsApp).Inv fromSlice toVecPretty asked where
  whole := hwhole
  follows := by
    show store.saver.new? = none
    rw [hsaver]
    rfl
  replaced := by
    show ∀ data ∈ store.replaced, _
    rw [hreplaced]
    exact h.replaced
  saving := by
    intro new hnew
    rcases hnew with hnew | hnew
    · cases hnew
    · cases hnew
  stopped := fun _ => rfl
  valid := by
    intro s hs
    cases hs

/-- `save_settings` begins, or refuses. -/
theorem saveSettings_cases (toVecPretty : Settings → List UInt8) (a : SettingsApp) (new : Settings) :
    a.saveSettings toVecPretty new = a ∨ a.command = .none ∧ new.validate = .ok () ∧ (∃ s, a.shared = some s) ∧
      a.saveSettings toVecPretty new =
        { a with command := .saving new, store := a.store.step (.begins (toVecPretty new)) } := by
  unfold saveSettings
  split
  case h_1 s hshared hcommand hvalid => exact Or.inr ⟨hcommand, hvalid, ⟨s, hshared⟩, rfl⟩
  case h_2 => exact Or.inl rfl

theorem Inv.begins (h : a.Inv fromSlice toVecPretty asked) (hcommand : a.command = .none) (new : List UInt8) :
    a.store.step (.begins new) = { a.store with saver := .creating new } := by
  have hidle : a.store.saver = .idle := by
    rw [← AtomicFile.Saver.new?_eq_none, h.follows, hcommand]
    rfl
  simp only [AtomicFile.Store.step, AtomicFile.Store.begins, hidle]

theorem saveSettings_inv (h : a.Inv fromSlice toVecPretty asked) {new : Settings}
    (hasked : asked new) (hreadable : fromSlice (toVecPretty new) = some new) :
    (a.saveSettings toVecPretty new).Inv fromSlice toVecPretty asked := by
  rcases saveSettings_cases toVecPretty a new with hsame | ⟨hcommand, hvalid, ⟨s, hshared⟩, hbegun⟩
  · rw [hsame]
    exact h
  · rw [hbegun, h.begins hcommand]
    refine ⟨h.whole.aside rfl rfl rfl trivial, rfl, h.replaced, ?_, ?_, h.valid⟩
    · intro new' hnew'
      rcases hnew' with hnew' | hnew'
      · cases hnew'
        exact ⟨hasked, hvalid, hreadable⟩
      · cases hnew'
    · intro hnone
      have hnone : a.shared = none := hnone
      rw [hshared] at hnone
      cases hnone

/-- What a step of the file does: it goes on, ends the save without a change, or puts the settings in place. -/
theorem file_cases (h : a.Inv fromSlice toVecPretty asked) {e : AtomicFile.Event UInt8} (hinner : e.isInner = true) :
    (a.file e = { a with store := a.store.step e } ∧ (a.store.step e).saver.new? = a.store.saver.new? ∧
        (a.store.step e).found = a.store.found ∧ (a.store.step e).replaced = a.store.replaced) ∨
      ∃ new, a.command = .saving new ∧ (a.store.step e).saver = .idle ∧
        ((a.file e = { a with store := a.store.step e, command := .none } ∧
            (a.store.step e).found = a.store.found ∧ (a.store.step e).replaced = a.store.replaced) ∨
          (a.file e = { a with store := a.store.step e, command := .saved new } ∧
            (a.store.step e).found = some (toVecPretty new) ∧
            (a.store.step e).replaced = a.store.replaced ++ [toVecPretty new])) := by
  have hcut : ∀ left, e ≠ .powerCut left := by
    intro left he
    rw [he] at hinner
    cases hinner
  have hfollows := h.follows
  have hsaver := AtomicFile.Store.saver_step a.store hinner
  have hfound := AtomicFile.Store.found_step h.whole hcut
  cases hcommand : a.command with
  | saving new =>
      have hfile : a.file e = { a with
          store := a.store.step e
          command :=
            if (a.store.step e).saver = .idle then (if e = .renames true then .saved new else .none)
            else .saving new } := by
        simp only [file, hinner, if_true, hcommand]
      rw [hcommand] at hfollows
      have hfollows : a.store.saver.new? = some (toVecPretty new) := hfollows
      by_cases hidle : (a.store.step e).saver = .idle
      · right
        refine ⟨new, rfl, hidle, ?_⟩
        rw [if_pos hidle] at hfile
        rcases hfound with ⟨hsame, hreplaced⟩ | ⟨data, hswap, he, hfound, hreplaced, -⟩
        · left
          have hne : e ≠ .renames true := by
            intro he
            -- a rename that is reached puts something in place
            rw [he] at hsaver hidle hreplaced
            cases hswap : a.store.saver with
            | swapping data =>
                simp [AtomicFile.Store.step, AtomicFile.Store.renames, hswap] at hreplaced
            | idle =>
                rw [hswap] at hfollows
                cases hfollows
            | _ => simp [AtomicFile.Store.step, AtomicFile.Store.renames, hswap] at hidle
          rw [if_neg hne] at hfile
          exact ⟨hfile, hsame, hreplaced⟩
        · right
          rw [if_pos he] at hfile
          rw [hswap] at hfollows
          have hdata : data = toVecPretty new := Option.some.inj hfollows
          rw [← hdata]
          exact ⟨hfile, hfound, hreplaced⟩
      · left
        rw [if_neg hidle] at hfile
        have hgoes : (a.store.step e).saver.new? = a.store.saver.new? := by
          apply hsaver.resolve_left
          rw [AtomicFile.Saver.new?_eq_none]
          exact hidle
        rcases hfound with ⟨hsame, hreplaced⟩ | ⟨data, -, -, -, -, hnext⟩
        · rw [hfile, ← hcommand]
          exact ⟨rfl, hgoes, hsame, hreplaced⟩
        · exact absurd hnext hidle
  | _ =>
      left
      have hnone : a.store.saver.new? = none := by
        rw [hfollows, hcommand]
        rfl
      have hfile : a.file e = { a with store := a.store.step e } := by
        simp only [file, hinner, if_true, hcommand]
      rcases hfound with ⟨hsame, hreplaced⟩ | ⟨data, hswap, -⟩
      · refine ⟨by rw [hfile, hcommand], ?_, hsame, hreplaced⟩
        rcases hsaver with hgone | hgoes
        · rw [hgone, hnone]
        · exact hgoes
      · rw [hswap] at hnone
        cases hnone

theorem file_of_outer {e : AtomicFile.Event UInt8} (houter : e.isInner = false) : a.file e = a := by
  rw [file, houter]
  rfl

theorem file_inv (h : a.Inv fromSlice toVecPretty asked) (e : AtomicFile.Event UInt8) :
    (a.file e).Inv fromSlice toVecPretty asked := by
  cases hinner : e.isInner with
  | false =>
      rw [file_of_outer hinner]
      exact h
  | true =>
      have hpossible : a.store.Possible e := by
        cases e with
        | powerCut left => cases hinner
        | _ => trivial
      have hwhole := AtomicFile.Store.step_whole e h.whole hpossible
      rcases file_cases h hinner with ⟨hfile, hsaver, -, hreplaced⟩ |
        ⟨new, hcommand, hidle, ⟨hfile, -, hreplaced⟩ | ⟨hfile, -, hreplaced⟩⟩
      · rw [hfile]
        refine ⟨hwhole, hsaver.trans h.follows, ?_, h.saving, h.stopped, h.valid⟩
        rw [hreplaced]
        exact h.replaced
      · rw [hfile]
        refine ⟨hwhole, AtomicFile.Saver.new?_eq_none.2 hidle, ?_, ?_, fun _ => rfl, h.valid⟩
        · rw [hreplaced]
          exact h.replaced
        · intro new' hnew'
          rcases hnew' with hnew' | hnew'
          · cases hnew'
          · cases hnew'
      · have hsaved := h.saving new (Or.inl hcommand)
        rw [hfile]
        refine ⟨hwhole, AtomicFile.Saver.new?_eq_none.2 hidle, ?_, ?_, ?_, h.valid⟩
        · rw [hreplaced]
          intro data hdata
          rcases List.mem_append.1 hdata with hold | hnew
          · exact h.replaced data hold
          · exact ⟨new, List.mem_singleton.1 hnew, hsaved⟩
        · intro new' hnew'
          rcases hnew' with hnew' | hnew'
          · cases hnew'
          · cases hnew'
            exact hsaved
        · intro hnone
          have hnothing := h.stopped hnone
          rw [hcommand] at hnothing
          cases hnothing

theorem write_inv (h : a.Inv fromSlice toVecPretty asked) : a.write.Inv fromSlice toVecPretty asked := by
  unfold write
  split
  case h_1 new hcommand =>
    refine ⟨h.whole, ?_, h.replaced, ?_, fun _ => rfl, ?_⟩
    · rw [h.follows, hcommand]
      rfl
    · intro new' hnew'
      rcases hnew' with hnew' | hnew'
      · cases hnew'
      · cases hnew'
    · intro s hs
      cases hs
      exact (h.saving new (Or.inr hcommand)).valid
  case h_2 => exact h

theorem step_inv (a : SettingsApp) (e : SettingsEvent) (h : a.Inv fromSlice toVecPretty asked)
    (hpossible : a.Possible toVecPretty fromSlice e) (hasked : ∀ new, e = .saveSettings new → asked new) :
    (a.step toVecPretty fromSlice e).Inv fromSlice toVecPretty asked := by
  cases e with
  | launch readFails => exact launch_inv h readFails
  | saveSettings new => exact saveSettings_inv h (hasked new rfl) hpossible
  | file e => exact file_inv h e
  | write => exact write_inv h
  | killed => exact stopped_inv h (AtomicFile.Store.step_whole .killed h.whole trivial) rfl rfl
  | powerCut left => exact stopped_inv h (AtomicFile.Store.step_whole (.powerCut left) h.whole hpossible) rfl rfl

/-! ### What is in the memory -/

/-- The memory holds what a launch would load, but for the moment between the rename and the write. -/
def InStep (fromSlice : List UInt8 → Option Settings) (a : SettingsApp) : Prop :=
  ∀ s, a.shared = some s → a.load fromSlice false = a.command.saved?.getD s

theorem load_of_found {b : SettingsApp} (hfound : b.store.found = a.store.found) :
    b.load fromSlice false = a.load fromSlice false := by
  rw [load, load, settingsFile, settingsFile, hfound]

theorem file_inStep (h : a.Inv fromSlice toVecPretty asked) (hinStep : a.InStep fromSlice)
    (e : AtomicFile.Event UInt8) : (a.file e).InStep fromSlice := by
  cases hinner : e.isInner with
  | false =>
      rw [file_of_outer hinner]
      exact hinStep
  | true =>
      rcases file_cases h hinner with ⟨hfile, -, hfound, -⟩ |
        ⟨new, hcommand, -, ⟨hfile, hfound, -⟩ | ⟨hfile, hfound, -⟩⟩
      · rw [hfile]
        intro s hs
        rw [load_of_found (a := a) hfound]
        exact hinStep s hs
      · rw [hfile]
        intro s hs
        have hbefore := hinStep s hs
        rw [hcommand] at hbefore
        rw [load_of_found (a := a) hfound]
        exact hbefore
      · rw [hfile]
        intro s hs
        show (Option.bind (a.store.step e).found fromSlice).getD .default = new
        rw [hfound, Option.bind_some, (h.saving new (Or.inl hcommand)).readable]
        rfl

theorem step_inStep (h : a.Inv fromSlice toVecPretty asked) (hinStep : a.InStep fromSlice) {e : SettingsEvent}
    (hread : e ≠ .launch true) : (a.step toVecPretty fromSlice e).InStep fromSlice := by
  cases e with
  | launch readFails =>
      cases readFails with
      | true => exact absurd rfl hread
      | false =>
          show (a.launch fromSlice false).InStep fromSlice
          unfold launch
          split
          case h_1 hnone =>
            intro s hs
            have hload : a.load fromSlice false = s := Option.some.inj hs
            show a.load fromSlice false = a.command.saved?.getD s
            rw [h.stopped hnone]
            exact hload
          case h_2 => exact hinStep
  | saveSettings new =>
      show (a.saveSettings toVecPretty new).InStep fromSlice
      rcases saveSettings_cases toVecPretty a new with hsame | ⟨hcommand, -, -, hbegun⟩
      · rw [hsame]
        exact hinStep
      · rw [hbegun, h.begins hcommand]
        intro s hs
        have hbefore := hinStep s hs
        rw [hcommand] at hbefore
        exact hbefore
  | file e => exact file_inStep h hinStep e
  | write =>
      show a.write.InStep fromSlice
      unfold write
      split
      case h_1 new hcommand =>
        intro s hs
        have hnew : new = s := Option.some.inj hs
        cases hshared : a.shared with
        | none =>
            rw [h.stopped hshared] at hcommand
            cases hcommand
        | some old =>
            have hbefore := hinStep old hshared
            rw [hcommand] at hbefore
            rw [← hnew]
            exact hbefore
      case h_2 => exact hinStep
  | killed =>
      intro s hs
      cases hs
  | powerCut left =>
      intro s hs
      cases hs

/-- Without a power cut the file holds what was put there last. -/
theorem step_last (h : a.Inv fromSlice toVecPretty asked) (hlast : a.store.found = a.store.replaced.getLast?)
    {e : SettingsEvent} (hcut : ∀ left, e ≠ .powerCut left) :
    (a.step toVecPretty fromSlice e).store.found = (a.step toVecPretty fromSlice e).store.replaced.getLast? := by
  cases e with
  | launch readFails =>
      show (a.launch fromSlice readFails).store.found = (a.launch fromSlice readFails).store.replaced.getLast?
      unfold launch
      split
      · exact hlast
      · exact hlast
  | saveSettings new =>
      show (a.saveSettings toVecPretty new).store.found = (a.saveSettings toVecPretty new).store.replaced.getLast?
      rcases saveSettings_cases toVecPretty a new with hsame | ⟨hcommand, -, -, hbegun⟩
      · rw [hsame]
        exact hlast
      · rw [hbegun, h.begins hcommand]
        exact hlast
  | file e =>
      show (a.file e).store.found = (a.file e).store.replaced.getLast?
      cases hinner : e.isInner with
      | false =>
          rw [file_of_outer hinner]
          exact hlast
      | true =>
          rcases file_cases h hinner with ⟨hfile, -, hfound, hreplaced⟩ |
            ⟨new, -, -, ⟨hfile, hfound, hreplaced⟩ | ⟨hfile, hfound, hreplaced⟩⟩
          · rw [hfile, hfound, hreplaced]
            exact hlast
          · rw [hfile, hfound, hreplaced]
            exact hlast
          · rw [hfile, hfound, hreplaced, List.getLast?_concat]
  | write =>
      show a.write.store.found = a.write.store.replaced.getLast?
      unfold write
      split
      · exact hlast
      · exact hlast
  | killed => exact hlast
  | powerCut left => exact absurd rfl (hcut left)

/-! ### The save of the launchers' model -/

/-- Under way or failed, a save leaves the file as it was; through, it has put the settings there. -/
def Underway (fromSlice : List UInt8 → Option Settings) (before : Option Settings) (new : Settings)
    (b : SettingsApp) : Prop :=
  (b.command = .saving new ∨ b.command = .none) ∧ b.settingsFile fromSlice = before ∨
    b.command = .saved new ∧ b.settingsFile fromSlice = some new

theorem file_underway {before : Option Settings} {new : Settings} (h : a.Inv fromSlice toVecPretty asked)
    (hunder : Underway fromSlice before new a) (e : AtomicFile.Event UInt8) :
    Underway fromSlice before new (a.file e) := by
  cases hinner : e.isInner with
  | false =>
      rw [file_of_outer hinner]
      exact hunder
  | true =>
      rcases file_cases h hinner with ⟨hfile, -, hfound, -⟩ |
        ⟨new', hcommand, -, ⟨hfile, hfound, -⟩ | ⟨hfile, hfound, -⟩⟩
      · rw [hfile, Underway, settingsFile, hfound]
        exact hunder
      · rcases hunder with ⟨-, hbefore⟩ | ⟨hsaved, -⟩
        · rw [hfile, Underway, settingsFile, hfound]
          exact Or.inl ⟨Or.inr rfl, hbefore⟩
        · rw [hcommand] at hsaved
          cases hsaved
      · rcases hunder with ⟨hsaving | hnone, -⟩ | ⟨hsaved, -⟩
        · rw [hcommand] at hsaving
          cases hsaving
          rw [hfile, Underway, settingsFile, hfound, Option.bind_some, (h.saving new (Or.inl hcommand)).readable]
          exact Or.inr ⟨rfl, rfl⟩
        · rw [hcommand] at hnone
          cases hnone
        · rw [hcommand] at hsaved
          cases hsaved

/-- **A save, step by step, is the save of the launchers' model**, which fails where a step of the file does. -/
theorem save_refines [Schtasks] (h : a.Inv fromSlice toVecPretty asked) {old new : Settings}
    (hshared : a.shared = some old) (hcommand : a.command = .none) (hvalid : new.validate = .ok ()) (hasked : asked new)
    (hreadable : fromSlice (toVecPretty new) = some new) (fs : List (AtomicFile.Event UInt8))
    {faults : OsFaults} (hfaults : faults.save = none ↔
      (fs.foldl file (a.saveSettings toVecPretty new)).command = .saved new)
    (hover : (fs.foldl file (a.saveSettings toVecPretty new)).command ≠ .saving new)
    (exe : String) (vddInstalled : Bool) {d : Desktop} (hd : d.settingsFile = a.settingsFile fromSlice) :
    (Penflow.saveSettings faults exe vddInstalled new d).2.settingsFile =
      (fs.foldl file (a.saveSettings toVecPretty new)).settingsFile fromSlice := by
  have hbegun : a.saveSettings toVecPretty new =
      { a with command := .saving new, store := { a.store with saver := .creating (toVecPretty new) } } := by
    simp only [saveSettings, hshared, hcommand, hvalid]
    rw [h.begins hcommand]
  have hinv : (a.saveSettings toVecPretty new).Inv fromSlice toVecPretty asked := saveSettings_inv h hasked hreadable
  have hunder : Underway fromSlice (a.settingsFile fromSlice) new (a.saveSettings toVecPretty new) := by
    rw [hbegun]
    exact Or.inl ⟨Or.inl rfl, rfl⟩
  have hrun : Underway fromSlice (a.settingsFile fromSlice) new (fs.foldl file (a.saveSettings toVecPretty new)) :=
    (Run.invariant
      (I := fun b => b.Inv fromSlice toVecPretty asked ∧ Underway fromSlice (a.settingsFile fromSlice) new b)
      (fun b e hb => ⟨file_inv hb.1 e, file_underway hb.1 hb.2 e⟩) fs ⟨hinv, hunder⟩).2
  generalize fs.foldl file (a.saveSettings toVecPretty new) = b at hfaults hover hrun
  rcases hrun with ⟨hsaving | hnone, hbefore⟩ | ⟨hsaved, hafter⟩
  · exact absurd hsaving hover
  · -- a step of the file has failed
    cases hsave : faults.save with
    | none =>
        rw [hfaults.1 hsave] at hnone
        cases hnone
    | some e =>
        rw [hbefore, ← hd]
        simp only [Penflow.saveSettings, hvalid, hsave]
  · have hsave := hfaults.2 hsaved
    rw [hafter]
    simp only [Penflow.saveSettings, hvalid, hsave]
    split
    · rfl
    · split
      · split
        · rfl
        · rfl
      · rfl

/-! ### The runs -/

/-- The settings that were put in the place of `settings.json`, as a launch would read them. -/
def placed (fromSlice : List UInt8 → Option Settings) (a : SettingsApp) : List Settings :=
  a.store.replaced.filterMap fromSlice

theorem Inv.settingsFile_of_last (h : a.Inv fromSlice toVecPretty asked)
    (hlast : a.store.found = a.store.replaced.getLast?) : a.settingsFile fromSlice = (a.placed fromSlice).getLast? := by
  rw [settingsFile, hlast, placed]
  cases hdata : a.store.replaced.getLast? with
  | none =>
      rw [List.getLast?_eq_none_iff] at hdata
      rw [hdata]
      rfl
  | some data =>
      obtain ⟨new, hnew, hsaved⟩ := h.replaced data (List.mem_of_getLast? hdata)
      obtain ⟨front, hfront⟩ := List.getLast?_eq_some_iff.1 hdata
      have hone : [data].filterMap fromSlice = [new] := by
        rw [List.filterMap_cons, hnew, hsaved.readable]
        rfl
      rw [hfront, List.filterMap_append, hone, List.getLast?_concat, Option.bind_some, hnew, hsaved.readable]

/-- **The settings survive**, with one process at a time.  In every run of launches, saves, failures, kills and power
cuts, a launch loads the defaults or settings that a save had asked for, and they pass the check of a save.  Without a
power cut they are the last ones put in place, and where no launch failed to read the file, the memory of the running
process holds the same, but for the moment between a rename and the write behind it. -/
theorem settings_survive (toVecPretty : Settings → List UInt8) (fromSlice : List UInt8 → Option Settings)
    (es : List SettingsEvent) (h : Run.Steps (step toVecPretty fromSlice) (Possible toVecPretty fromSlice) fresh es) :
    let a := after toVecPretty fromSlice es
    (∀ readFails, (a.load fromSlice readFails).validate = .ok () ∧ (a.load fromSlice readFails = .default ∨
      SettingsEvent.saveSettings (a.load fromSlice readFails) ∈ es)) ∧
    (∀ s, a.shared = some s → s.validate = .ok ()) ∧
    ((∀ left, .powerCut left ∉ es) → a.load fromSlice false = (a.placed fromSlice).getLastD .default) ∧
    (.launch true ∉ es → ∀ s, a.shared = some s → (∀ new, a.command ≠ .saved new) →
      s = a.load fromSlice false) := by
  intro a
  have hasked : ∀ i ∈ es, ∀ new, i = SettingsEvent.saveSettings new → SettingsEvent.saveSettings new ∈ es := by
    intro i hi new he
    rw [← he]
    exact hi
  have hinv : a.Inv fromSlice toVecPretty fun new => SettingsEvent.saveSettings new ∈ es :=
    Run.Steps.invariant (fun a e hinv hstep => step_inv a e hinv hstep.1 hstep.2) fresh_inv (h.and_mem hasked)
  refine ⟨?_, hinv.valid, ?_, ?_⟩
  · intro readFails
    refine ⟨hinv.load_valid readFails, ?_⟩
    rcases hinv.load_cases readFails with hdefault | ⟨new, -, hload, hsaved⟩
    · exact Or.inl hdefault
    · right
      rw [hload]
      exact hsaved.asked
  · intro hcut
    have hno : ∀ i ∈ es, ∀ left, i ≠ SettingsEvent.powerCut left := by
      intro i hi left he
      rw [he] at hi
      exact hcut left hi
    have hlast := Run.Steps.invariant
      (I := fun a => a.Inv fromSlice toVecPretty (fun _ => True) ∧ a.store.found = a.store.replaced.getLast?)
      (fun a e hinv hstep => ⟨step_inv a e hinv.1 hstep.1 fun _ _ => trivial, step_last hinv.1 hinv.2 hstep.2⟩)
      ⟨fresh_inv, rfl⟩ (h.and_mem hno)
    show (a.settingsFile fromSlice).getD .default = _
    rw [hinv.settingsFile_of_last hlast.2, List.getLastD_eq_getLast?]
  · intro hread s hs hcommand
    have hno : ∀ i ∈ es, i ≠ SettingsEvent.launch true := by
      intro i hi he
      rw [he] at hi
      exact hread hi
    have hinStep := Run.Steps.invariant
      (I := fun a => a.Inv fromSlice toVecPretty (fun _ => True) ∧ a.InStep fromSlice)
      (fun a e hinv hstep => ⟨step_inv a e hinv.1 hstep.1 fun _ _ => trivial, step_inStep hinv.1 hinv.2 hstep.2⟩)
      ⟨fresh_inv, fun s hs => by cases hs⟩ (h.and_mem hno)
    have hload : a.load fromSlice false = a.command.saved?.getD s := hinStep.2 s hs
    cases hnow : a.command with
    | saved new => exact absurd hnow (hcommand new)
    | _ =>
        rw [hnow] at hload
        exact hload.symm

/-- The bytes of a text of ASCII characters. -/
def asciiBytes (text : String) : List UInt8 := text.toList.map fun c => UInt8.ofNat c.toNat

/-- What `serde_json::to_vec_pretty` makes of the defaults. -/
def defaultJson : List UInt8 := asciiBytes "\x7b
  \"vdd_resolution\": \x7b
    \"width\": 2880,
    \"height\": 1800
  \x7d,
  \"bitrate_bps\": 50000000,
  \"fps\": 120,
  \"codec\": \"hevc\",
  \"bindings\": \x7b
    \"button_0\": \x7b
      \"kind\": \"key_hold\",
      \"key\": \"Ctrl\"
    \x7d,
    \"button_1\": \x7b
      \"kind\": \"key_hold\",
      \"key\": \"Shift\"
    \x7d,
    \"button_2\": \x7b
      \"kind\": \"key_tap\",
      \"key\": \"E\"
    \x7d
  \x7d,
  \"autostart\": false,
  \"run_as_admin\": false,
  \"hud_enabled\": true,
  \"topology\": \"extend\",
  \"screen_off\": false,
  \"disable_touch\": false
\x7d"

/-- The defaults are the only settings that are written and read. -/
def parseDefault (bytes : List UInt8) : Option Settings := if bytes = defaultJson then some .default else none

/-- The defaults are saved, and saved again up to ten bytes. -/
def savedTwice (json : List UInt8) : List SettingsEvent :=
  [.launch false, .saveSettings .default, .file (.creates true), .file (.writes json.length), .file (.syncs true),
    .file (.renames true), .write, .saveSettings .default, .file (.creates true), .file (.writes 10)]

/-- Then the power is cut. -/
def cutInWrite (json : List UInt8) : List SettingsEvent :=
  savedTwice json ++ [.powerCut ⟨some ⟨json, true⟩, some ⟨[0x20], true⟩, []⟩, .launch false]

theorem savedTwice_target (json : List UInt8) :
    ((savedTwice json).foldl (step (fun _ => json) fromSlice) fresh).store.disk.target = some ⟨json, true⟩ := by
  simp [savedTwice, step, fresh, launch, saveSettings, default_valid, file, write, AtomicFile.Event.isInner,
    AtomicFile.Store.start, AtomicFile.Store.step, AtomicFile.Store.begins, AtomicFile.Store.creates,
    AtomicFile.Store.writes, AtomicFile.Store.syncs, AtomicFile.Store.renames, AtomicFile.Disk.create,
    AtomicFile.Disk.write, AtomicFile.Disk.sync, AtomicFile.Disk.rename]

theorem cutInWrite_possible {json : List UInt8} (hread : fromSlice json = some .default) :
    Run.Steps (step (fun _ => json) fromSlice) (Possible (fun _ => json) fromSlice) fresh (cutInWrite json) := by
  rw [cutInWrite, Run.steps_append]
  refine ⟨⟨trivial, hread, trivial, trivial, trivial, trivial, trivial, hread, trivial, trivial, trivial⟩, ?_, trivial,
    trivial⟩
  refine ⟨⟨some ⟨json, true⟩, ?_, AtomicFile.survives_synced json⟩, rfl⟩
  rw [savedTwice_target json]
  exact List.mem_cons_self

theorem settings_survive_cut :
    let a := after (fun _ => defaultJson) parseDefault (cutInWrite defaultJson)
    (∀ readFails, (a.load parseDefault readFails).validate = .ok () ∧ (a.load parseDefault readFails = .default ∨
      SettingsEvent.saveSettings (a.load parseDefault readFails) ∈ cutInWrite defaultJson)) ∧
    (∀ s, a.shared = some s → s.validate = .ok ()) :=
  have h := settings_survive (fun _ => defaultJson) parseDefault (cutInWrite defaultJson)
    (cutInWrite_possible (if_pos rfl))
  ⟨h.1, h.2.1⟩

end SettingsApp

end Serde

end Penflow
