import Mathlib.Data.List.Basic

/-!
# Pen-button bindings

What a pen button does when it changes state, and the profile of one pen's three buttons.  The bottom
half reads a binding as what it does to the keyboard and the mouse: which keys and buttons it holds for
the length of a press, and which it only strikes.
-/

namespace Penflow

abbrev VirtualKey := UInt16

def vkShift : VirtualKey := 0x10
def vkControl : VirtualKey := 0x11
def vkE : VirtualKey := 0x45

inductive MouseButtonKind where
  | left
  | right
  | middle
  deriving DecidableEq, Repr

inductive Binding where
  | none
  | keyTap (vk : VirtualKey)
  | keyHold (keys : List VirtualKey)
  | keyChord (keys : List VirtualKey)
  | mouseButton (kind : MouseButtonKind)
  | eraserToggle
  deriving DecidableEq, Repr

structure PenButtonProfile where
  barrel_1 : Binding
  barrel_2 : Binding
  tertiary : Binding
  deriving DecidableEq, Repr

/-- `PenButtonProfile::default` -/
def PenButtonProfile.default : PenButtonProfile :=
  ⟨.keyHold [vkControl], .keyHold [vkShift], .keyTap vkE⟩

/-- `0u8..3` -/
def slots : List UInt8 := [0, 1, 2]

/-- The binding of a slot. -/
def PenButtonProfile.binding (profile : PenButtonProfile) (slot : UInt8) : Binding :=
  if slot = 0 then profile.barrel_1 else if slot = 1 then profile.barrel_2 else profile.tertiary

/-- `bits & (1 << slot) != 0` -/
def isSet (bits slot : UInt8) : Bool := bits &&& (1 <<< slot) != 0

theorem isSet_eq_getLsbD {bits slot : UInt8} (h : slot ∈ slots) :
    isSet bits slot = bits.toBitVec.getLsbD slot.toNat := by
  have hall : ∀ b : BitVec 8, ∀ s ∈ slots, isSet ⟨b⟩ s = b.getLsbD s.toNat := by decide +kernel
  exact hall bits.toBitVec slot h

/-- `!prev & now` has the bits that rose. -/
theorem isSet_rose {prev now slot : UInt8} (h : slot ∈ slots) :
    isSet (~~~prev &&& now) slot = (!isSet prev slot && isSet now slot) := by
  have hlt : slot.toNat < 8 := by
    revert slot
    decide +kernel
  rw [isSet_eq_getLsbD h, isSet_eq_getLsbD h, isSet_eq_getLsbD h]
  simp [hlt]

/-- `prev & !now` has the bits that fell. -/
theorem isSet_fell {prev now slot : UInt8} (h : slot ∈ slots) :
    isSet (prev &&& ~~~now) slot = (isSet prev slot && !isSet now slot) := by
  rw [UInt8.and_comm, isSet_rose h, Bool.and_comm]

/-! ### What a binding does -/

/-- A key of the keyboard or a button of the mouse. -/
inductive Button where
  | key (vk : VirtualKey)
  | mouse (kind : MouseButtonKind)
  deriving DecidableEq, Repr

namespace Binding

/-- The buttons that are down for the length of a press. -/
def held : Binding → List Button
  | keyHold keys => keys.map .key
  | mouseButton kind => [.mouse kind]
  | _ => []

/-- The buttons that go down and up again at the press. -/
def struck : Binding → List Button
  | keyTap vk => [.key vk]
  | keyChord keys => keys.map .key
  | _ => []

end Binding

end Penflow
