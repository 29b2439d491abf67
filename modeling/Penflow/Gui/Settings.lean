import Mathlib.Data.List.Basic

/-!
# The settings of the GUI

What `settings.json` keeps, with the defaults of a missing file and the check a save makes first.  A key
name is the list of its characters.
-/

namespace Penflow

/-- A string as its characters. -/
abbrev Text := List Char

structure DisplayResolution where
  width : UInt32
  height : UInt32
  deriving DecidableEq, Repr

def minVddWidth : UInt32 := 640
def minVddHeight : UInt32 := 480
def maxVddWidth : UInt32 := 7680
def maxVddHeight : UInt32 := 4320

namespace DisplayResolution

/-- `DisplayResolution::default` -/
def default : DisplayResolution := ⟨2880, 1800⟩

def validate (r : DisplayResolution) : Except String Unit :=
  if ¬ (minVddWidth ≤ r.width ∧ r.width ≤ maxVddWidth) then
    .error s!"VDD width must be between {minVddWidth} and {maxVddWidth}"
  else if ¬ (minVddHeight ≤ r.height ∧ r.height ≤ maxVddHeight) then
    .error s!"VDD height must be between {minVddHeight} and {maxVddHeight}"
  else if r.width % 2 ≠ 0 ∨ r.height % 2 ≠ 0 then
    .error "VDD width and height must be even numbers"
  else .ok ()

end DisplayResolution

inductive TopologyMode where
  | extend
  | duplicate
  deriving DecidableEq, Repr

inductive SettingsCodec where
  | h264
  | hevc
  deriving DecidableEq, Repr

/-- `settings::MouseButton` -/
inductive SettingsMouseButton where
  | left
  | right
  | middle
  deriving DecidableEq, Repr

/-- `settings::Binding` -/
inductive SettingsBinding where
  | none
  | keyTap (key : Text)
  | keyHold (key : Text)
  | keyChord (keys : List Text)
  | mouseButton (button : SettingsMouseButton)
  | eraserToggle
  deriving DecidableEq, Repr

structure PenBindings where
  button_0 : SettingsBinding
  button_1 : SettingsBinding
  button_2 : SettingsBinding
  deriving DecidableEq, Repr

/-- `PenBindings::default` -/
def PenBindings.default : PenBindings :=
  ⟨.keyHold "Ctrl".toList, .keyHold "Shift".toList, .keyTap "E".toList⟩

structure Settings where
  vdd_resolution : DisplayResolution
  bitrate_bps : UInt32
  fps : UInt32
  codec : SettingsCodec
  bindings : PenBindings
  autostart : Bool
  run_as_admin : Bool
  hud_enabled : Bool
  topology : TopologyMode
  screen_off : Bool
  disable_touch : Bool
  deriving DecidableEq, Repr

namespace Settings

/-- `Settings::default` -/
def default : Settings where
  vdd_resolution := .default
  bitrate_bps := 50000000
  fps := 120
  codec := .hevc
  bindings := .default
  autostart := false
  run_as_admin := false
  hud_enabled := true
  topology := .extend
  screen_off := false
  disable_touch := false

/-- `settings::validate` -/
def validate (s : Settings) : Except String Unit := s.vdd_resolution.validate

end Settings

end Penflow
