import Mathlib.Algebra.Ring.Nat
import Mathlib.Data.List.Basic
import Penflow.Gui.Settings
import Penflow.Inject.Binding
import Penflow.Lib.Tokens

/-!
# The key names of a saved binding

The service reads the key names of `settings.json` as virtual keys: a name alone with `parse_key_token`, a
combination with `parse_key_combo`, and a whole binding with `convert_binding`.
-/

namespace Penflow

/-- `char::is_whitespace` -/
def isWhitespace (c : Char) : Bool :=
  (0x9 ≤ c.toNat && c.toNat ≤ 0xD) || c.toNat == 0x20 || c.toNat == 0x85 || c.toNat == 0xA0 ||
    c.toNat == 0x1680 || (0x2000 ≤ c.toNat && c.toNat ≤ 0x200A) || c.toNat == 0x2028 ||
    c.toNat == 0x2029 || c.toNat == 0x202F || c.toNat == 0x205F || c.toNat == 0x3000

/-- `str::trim` -/
def trim (t : Text) : Text := Tokens.trim isWhitespace t

/-- `str::len`, in bytes -/
def utf8Length (t : Text) : ℕ := t.foldr (fun c n => c.utf8Size + n) 0

/-- Decimal digits on `u16`. -/
def parseDigits (t : Text) : Option ℕ :=
  t.foldlM (fun n c =>
    if c.isDigit && n * 10 + (c.toNat - 48) < 2 ^ 16 then some (n * 10 + (c.toNat - 48)) else none) 0

/-- `str::parse::<u16>` -/
def parseU16 : Text → Option ℕ
  | [] => none
  | ['+'] => none
  | '+' :: t => parseDigits t
  | t => parseDigits t

/-- The names that stand for one key each. -/
def keyNames : List (List String × VirtualKey) :=
  [(["CTRL", "CONTROL"], vkControl), (["SHIFT"], vkShift), (["ALT", "MENU", "OPTION"], 0x12),
    (["WIN", "META", "LWIN", "CMD", "COMMAND", "SUPER"], 0x5B),
    (["SPACE", " "], 0x20), (["TAB"], 0x09), (["ENTER", "RETURN"], 0x0D), (["ESC", "ESCAPE"], 0x1B),
    (["BACKSPACE", "BACK"], 0x08), (["DEL", "DELETE"], 0x2E), (["INS", "INSERT"], 0x2D),
    (["HOME"], 0x24), (["END"], 0x23), (["PAGEUP", "PRIOR"], 0x21), (["PAGEDOWN", "NEXT"], 0x22),
    (["UP", "ARROWUP"], 0x26), (["DOWN", "ARROWDOWN"], 0x28), (["LEFT", "ARROWLEFT"], 0x25),
    (["RIGHT", "ARROWRIGHT"], 0x27)]

/-- A function key, a letter or a digit. -/
def parseKeyPattern (upper : Text) : Option VirtualKey :=
  if upper.head? = some 'F' ∧ utf8Length upper ≤ 3 then
    (parseU16 upper.tail).bind fun n => if 1 ≤ n ∧ n ≤ 24 then some (UInt16.ofNat (0x6F + n)) else none
  else
    match upper with
    | [c] => if c.isAlpha || c.isDigit then some (UInt16.ofNat c.toNat) else none
    | _ => none

def parseKeyToken (name : Text) : Option VirtualKey :=
  let upper := name.map Char.toUpper
  match keyNames.find? fun k => k.1.any fun s => s.toList = upper with
  | some k => some k.2
  | none => parseKeyPattern upper

def parseKeyCombo (spec : Text) : Option (List VirtualKey) :=
  let trimmed := trim spec
  if trimmed = [] then some []
  else (Tokens.tokens isWhitespace '+' trimmed).mapM parseKeyToken

def convertBinding : SettingsBinding → Binding
  | .none => .none
  | .eraserToggle => .eraserToggle
  | .mouseButton .left => .mouseButton .left
  | .mouseButton .right => .mouseButton .right
  | .mouseButton .middle => .mouseButton .middle
  | .keyTap key =>
      match parseKeyCombo key with
      | some [vk] => .keyTap vk
      | some (vk :: vk' :: vks) => .keyChord (vk :: vk' :: vks)
      | _ => .none
  | .keyHold key =>
      match parseKeyCombo key with
      | some (vk :: vks) => .keyHold (vk :: vks)
      | _ => .none
  | .keyChord keys =>
      match keys.filterMap parseKeyToken with
      | [] => .none
      | vk :: vks => .keyChord (vk :: vks)

def buildPenProfile (b : PenBindings) : PenButtonProfile :=
  ⟨convertBinding b.button_0, convertBinding b.button_1, convertBinding b.button_2⟩

/-! ### Reading a combination -/

/-- Trimming the combination first makes no difference to its tokens. -/
theorem parseKeyCombo_eq (spec : Text) :
    parseKeyCombo spec = (Tokens.tokens isWhitespace '+' spec).mapM parseKeyToken := by
  have htokens : Tokens.tokens isWhitespace '+' (trim spec) = Tokens.tokens isWhitespace '+' spec :=
    Tokens.tokens_trim (by decide)
  rw [← htokens]
  unfold parseKeyCombo
  by_cases h : trim spec = []
  · simp only [h, if_pos]
    rfl
  · simp only [h, if_false]

theorem parseDigits_of_not_digit {t : Text} {c : Char} (hc : c ∈ t) (hdigit : c.isDigit = false) :
    parseDigits t = none := by
  unfold parseDigits
  generalize 0 = n
  induction t generalizing n with
  | nil => cases hc
  | cons d t ih =>
      rw [List.foldlM_cons]
      rcases List.mem_cons.1 hc with rfl | hc
      · rw [hdigit]
        rfl
      · split
        · exact ih hc _
        · rfl

theorem parseU16_of_not_digit {t : Text} {c : Char} (hc : c ∈ t) (hdigit : c.isDigit = false)
    (hplus : c ≠ '+') : parseU16 t = none := by
  unfold parseU16
  split
  · rfl
  · rfl
  · rcases List.mem_cons.1 hc with h | hc
    · exact absurd h hplus
    · exact parseDigits_of_not_digit hc hdigit
  · exact parseDigits_of_not_digit hc hdigit

/-! ### Other characters -/

section NonAscii

variable {c : Char} (hbig : 128 ≤ c.toNat)

include hbig

theorem toUpper_of_nonAscii : c.toUpper = c := by
  unfold Char.toUpper
  rw [dif_neg]
  rintro ⟨-, hle⟩
  have : c.toNat ≤ 122 := UInt32.le_iff_toNat_le.1 hle
  omega

theorem isDigit_of_nonAscii : c.isDigit = false := by
  rw [← Bool.not_eq_true, Char.isDigit_iff_toNat]
  rintro ⟨-, hle⟩
  have : c.toNat ≤ 57 := hle
  omega

theorem isAlpha_of_nonAscii : c.isAlpha = false := by
  have hval : 128 ≤ c.val.toNat := hbig
  have hbeyond : ∀ {last : Char}, last.toNat ≤ 122 → ¬ c.val ≤ last.val := by
    intro last hlast hle
    have hle' : c.val.toNat ≤ last.val.toNat := hle
    have hlast' : last.val.toNat ≤ 122 := hlast
    omega
  show (c.isUpper || c.isLower) = false
  rw [Bool.or_eq_false_iff]
  constructor
  · exact decide_eq_false fun h => @hbeyond 'Z' (by decide) h.2
  · exact Bool.and_eq_false_iff.2 (.inr (decide_eq_false (@hbeyond 'z' (by decide))))

/-- The names of the table are ASCII. -/
theorem keyNames_of_nonAscii {upper : Text} (hmem : c ∈ upper) :
    keyNames.find? (fun k => k.1.any fun s => s.toList = upper) = none := by
  rw [List.find?_eq_none]
  intro k hk hany
  obtain ⟨s, hs, heq⟩ := List.any_eq_true.1 hany
  have hascii : ∀ k ∈ keyNames, ∀ s ∈ k.1, s.toList.all (fun c => c.toNat < 128) := by decide +kernel
  have hc : c ∈ s.toList := by
    rw [of_decide_eq_true heq]
    exact hmem
  have : c.toNat < 128 := of_decide_eq_true (List.all_eq_true.1 (hascii k hk s hs) c hc)
  omega

/-- `F` and its number, a letter and a digit are ASCII too. -/
theorem parseKeyPattern_of_nonAscii {upper : Text} (hmem : c ∈ upper) : parseKeyPattern upper = none := by
  unfold parseKeyPattern
  split
  · rename_i hF
    obtain ⟨t, rfl⟩ := List.head?_eq_some_iff.1 hF.1
    have htail : c ∈ t := by
      rcases List.mem_cons.1 hmem with rfl | h
      · exact absurd hbig (by decide)
      · exact h
    have hplus : c ≠ '+' := by
      rintro rfl
      exact absurd hbig (by decide)
    rw [List.tail_cons, parseU16_of_not_digit htail (isDigit_of_nonAscii hbig) hplus]
    rfl
  · split
    · rename_i d _
      rw [← List.mem_singleton.1 hmem, isDigit_of_nonAscii hbig, isAlpha_of_nonAscii hbig]
      rfl
    · rfl

/-- A key name with another character names no key. -/
theorem parseKeyToken_of_nonAscii {name : Text} (hc : c ∈ name) : parseKeyToken name = none := by
  have hmem : c ∈ name.map Char.toUpper := List.mem_map.2 ⟨c, hc, toUpper_of_nonAscii hbig⟩
  unfold parseKeyToken
  simp only [keyNames_of_nonAscii hbig hmem]
  exact parseKeyPattern_of_nonAscii hbig hmem

end NonAscii

/-- The defaults of the settings are those of the engine. -/
theorem buildPenProfile_default : buildPenProfile .default = .default := by decide +kernel

end Penflow
