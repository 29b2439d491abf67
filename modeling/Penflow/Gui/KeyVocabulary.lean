import Penflow.Gui.KeyNames

/-!
# The documented key names

The vocabulary of a key combination: modifiers with their aliases, edit, navigation and arrow keys, F1 to
F24, the letters and the digits, in any letter case.  `parse_key_token` reads it through a cascade of arms in
which the one for the function keys stands before the one for the letters, and reads what follows the `F` as
a number.  Ten names come out differently: the letter F alone is no key, and F01 to F09 are.
-/

namespace Penflow

/-! ### The vocabulary -/

def modifierNames : List (String × VirtualKey) :=
  [("CTRL", 0x11), ("CONTROL", 0x11), ("SHIFT", 0x10), ("ALT", 0x12), ("MENU", 0x12), ("OPTION", 0x12),
    ("WIN", 0x5B), ("META", 0x5B), ("LWIN", 0x5B), ("CMD", 0x5B), ("COMMAND", 0x5B), ("SUPER", 0x5B)]

def editNames : List (String × VirtualKey) :=
  [("SPACE", 0x20), ("TAB", 0x09), ("ENTER", 0x0D), ("RETURN", 0x0D), ("ESC", 0x1B), ("ESCAPE", 0x1B),
    ("BACKSPACE", 0x08), ("BACK", 0x08), ("DEL", 0x2E), ("DELETE", 0x2E), ("INS", 0x2D), ("INSERT", 0x2D)]

def navigationNames : List (String × VirtualKey) :=
  [("HOME", 0x24), ("END", 0x23), ("PAGEUP", 0x21), ("PRIOR", 0x21), ("PAGEDOWN", 0x22), ("NEXT", 0x22),
    ("UP", 0x26), ("ARROWUP", 0x26), ("DOWN", 0x28), ("ARROWDOWN", 0x28), ("LEFT", 0x25),
    ("ARROWLEFT", 0x25), ("RIGHT", 0x27), ("ARROWRIGHT", 0x27)]

/-- F1 to F24. -/
def functionNames : List (Text × VirtualKey) :=
  (List.range 24).map fun i => ('F' :: Nat.toDigits 10 (i + 1), UInt16.ofNat (0x70 + i))

/-- The `n` characters from `first` on, as the key of their own code. -/
def charNames (first n : ℕ) : List (Text × VirtualKey) :=
  (List.range n).map fun i => ([Char.ofNat (first + i)], UInt16.ofNat (first + i))

/-- The documented names, in upper case, with their keys. -/
def vocabulary : List (Text × VirtualKey) :=
  (modifierNames ++ editNames ++ navigationNames).map (fun e => (e.1.toList, e.2)) ++ functionNames ++
    charNames 65 26 ++ charNames 48 10

/-- The key that a name stands for, in any letter case. -/
def documentedKey (name : Text) : Option VirtualKey :=
  (vocabulary.find? fun e => e.1 = name.map Char.toUpper).map Prod.snd

/-- The letter F alone. -/
def IsLetterF (name : Text) : Prop := name.map Char.toUpper = ['F']

/-- F01 to F09. -/
def zeroPadded : List Text := (List.range 9).map fun i => ['F', '0', Char.ofNat (49 + i)]

def IsZeroPadded (name : Text) : Prop := name.map Char.toUpper ∈ zeroPadded

instance (name : Text) : Decidable (IsLetterF name) := inferInstanceAs (Decidable (_ = _))

instance (name : Text) : Decidable (IsZeroPadded name) := inferInstanceAs (Decidable (_ ∈ _))

/-! ### One name -/

/-- The cascade of `parse_key_token`, on the name in upper case. -/
def parseUpper (upper : Text) : Option VirtualKey :=
  match keyNames.find? fun k => k.1.any fun s => s.toList = upper with
  | some k => some k.2
  | none => parseKeyPattern upper

theorem parseKeyToken_eq_parseUpper (name : Text) :
    parseKeyToken name = parseUpper (name.map Char.toUpper) := rfl

/-- The names that the cascade or the vocabulary knows. -/
def knownNames : List Text := vocabulary.map Prod.fst ++ zeroPadded

theorem parseUpper_vocabulary : ∀ u ∈ vocabulary.map Prod.fst, u ≠ ['F'] →
    parseUpper u = (vocabulary.find? fun e => e.1 = u).map Prod.snd := by
  decide +kernel

theorem parseUpper_zeroPadded : ∀ u ∈ zeroPadded,
    (parseUpper u).isSome ∧ (vocabulary.find? fun e => e.1 = u) = none := by
  decide +kernel

/-! ### Nothing else is read -/

/-- What holds of the ASCII characters by their codes. -/
theorem ascii_cases {P : Char → Prop} (h : ∀ n < 128, P (Char.ofNat n)) {c : Char}
    (hc : c.toNat < 128) : P c := by
  have hp := h c.toNat hc
  rwa [Char.ofNat_toNat] at hp

theorem toUpper_of_not_isAlpha {c : Char} (h : c.toUpper.isAlpha = false) : c.toUpper = c := by
  rcases Nat.lt_or_ge c.toNat 128 with hascii | hbig
  · have hall : ∀ n < 128, (Char.ofNat n).toUpper.isAlpha = false →
        (Char.ofNat n).toUpper = Char.ofNat n := by decide +kernel
    exact ascii_cases (P := fun c => c.toUpper.isAlpha = false → c.toUpper = c) hall hascii h
  · exact toUpper_of_nonAscii hbig

/-- A letter or a digit is a known name. -/
theorem toUpper_mem_knownNames {c : Char} (h : (c.toUpper.isAlpha || c.toUpper.isDigit) = true) :
    [c.toUpper] ∈ knownNames := by
  rcases Nat.lt_or_ge c.toNat 128 with hascii | hbig
  · have hall : ∀ n < 128, ((Char.ofNat n).toUpper.isAlpha || (Char.ofNat n).toUpper.isDigit) = true →
        [(Char.ofNat n).toUpper] ∈ knownNames := by decide +kernel
    exact ascii_cases (P := fun c => (c.toUpper.isAlpha || c.toUpper.isDigit) = true →
      [c.toUpper] ∈ knownNames) hall hascii h
  · rw [toUpper_of_nonAscii hbig, isAlpha_of_nonAscii hbig, isDigit_of_nonAscii hbig] at h
    cases h

theorem mem_charNames {first n : ℕ} {c : Char} (hlo : first ≤ c.toNat) (hhi : c.toNat < first + n) :
    [c] ∈ (charNames first n).map Prod.fst := by
  rw [charNames, List.map_map, List.mem_map]
  refine ⟨c.toNat - first, List.mem_range.2 (by omega), ?_⟩
  show [Char.ofNat (first + (c.toNat - first))] = [c]
  rw [show first + (c.toNat - first) = c.toNat from by omega, Char.ofNat_toNat]

theorem length_le_utf8Length (t : Text) : t.length ≤ utf8Length t := by
  induction t with
  | nil => exact Nat.le_refl 0
  | cons c t ih =>
      have hc := c.utf8Size_pos
      show t.length + 1 ≤ c.utf8Size + utf8Length t
      omega

/-- A number of one or two digits behind an `F` is a known name, if it is read at all. -/
theorem parseKeyPattern_digits : ∀ c ∈ (charNames 48 10).map Prod.fst,
    ((parseKeyPattern ('F' :: c)).isSome → 'F' :: c ∈ knownNames) ∧
      ∀ d ∈ (charNames 48 10).map Prod.fst,
        (parseKeyPattern ('F' :: (c ++ d))).isSome → 'F' :: (c ++ d) ∈ knownNames := by
  decide +kernel

theorem mem_knownNames_of_function {v : Text} (hplus : '+' ∉ v) (hlen : utf8Length ('F' :: v) ≤ 3)
    (hsome : (parseKeyPattern ('F' :: v)).isSome) : 'F' :: v ∈ knownNames := by
  have hbind : (parseKeyPattern ('F' :: v)) =
      (parseU16 v).bind fun n => if 1 ≤ n ∧ n ≤ 24 then some (UInt16.ofNat (0x6F + n)) else none := by
    unfold parseKeyPattern
    rw [if_pos ⟨rfl, hlen⟩, List.tail_cons]
  have hdigits : ∀ c ∈ v, c.isDigit = true := by
    intro c hc
    by_contra hdigit
    have hnone := parseU16_of_not_digit hc (Bool.eq_false_iff.2 hdigit) fun h => hplus (h ▸ hc)
    rw [hbind, hnone] at hsome
    cases hsome
  have hchar : ∀ c ∈ v, [c] ∈ (charNames 48 10).map Prod.fst := by
    intro c hc
    have hd := Char.isDigit_iff_toNat.1 (hdigits c hc)
    exact mem_charNames hd.1 (Nat.lt_succ_of_le hd.2)
  have hshort : v.length ≤ 2 := by
    have hlength := length_le_utf8Length ('F' :: v)
    rw [List.length_cons] at hlength
    omega
  rcases v with _ | ⟨c, _ | ⟨d, _ | ⟨e, v⟩⟩⟩
  · exact absurd hsome (by decide)
  · exact (parseKeyPattern_digits [c] (hchar c List.mem_cons_self)).1 hsome
  · exact (parseKeyPattern_digits [c] (hchar c List.mem_cons_self)).2 [d]
      (hchar d (List.mem_cons_of_mem c List.mem_cons_self)) hsome
  · simp at hshort

/-- A name that is read is known. -/
theorem mem_knownNames {name : Text} (hplus : '+' ∉ name) (hspace : name ≠ [' '])
    (hsome : (parseKeyToken name).isSome) : name.map Char.toUpper ∈ knownNames := by
  have hback : ∀ {c : Char}, c.isAlpha = false → c ∈ name.map Char.toUpper → c ∈ name := by
    intro c hc hmem
    obtain ⟨d, hd, rfl⟩ := List.mem_map.1 hmem
    rwa [toUpper_of_not_isAlpha hc]
  rw [parseKeyToken_eq_parseUpper, parseUpper] at hsome
  cases hfind : keyNames.find? fun k => k.1.any fun s => s.toList = name.map Char.toUpper with
  | some k =>
      have hnames : ∀ k ∈ keyNames, ∀ s ∈ k.1, s.toList = [' '] ∨ s.toList ∈ knownNames := by
        decide +kernel
      have hany : (k.1.any fun s => decide (s.toList = name.map Char.toUpper)) = true :=
        List.find?_some (p := fun k : List String × VirtualKey =>
          k.1.any fun s => decide (s.toList = name.map Char.toUpper)) hfind
      obtain ⟨s, hs, heq⟩ := List.any_eq_true.1 hany
      have heq : s.toList = name.map Char.toUpper := of_decide_eq_true heq
      rw [← heq]
      refine (hnames k (List.mem_of_find?_eq_some hfind) s hs).resolve_left fun h => ?_
      rw [heq, List.map_eq_singleton_iff] at h
      obtain ⟨c, rfl, hc⟩ := h
      rw [toUpper_of_not_isAlpha (by rw [hc]; decide)] at hc
      exact hspace (by rw [hc])
  | none =>
      simp only [hfind] at hsome
      by_cases hF : (name.map Char.toUpper).head? = some 'F' ∧ utf8Length (name.map Char.toUpper) ≤ 3
      · obtain ⟨v, hv⟩ := List.head?_eq_some_iff.1 hF.1
        rw [hv] at hsome hback hF ⊢
        refine mem_knownNames_of_function (fun h => hplus ?_) hF.2 hsome
        exact hback (by decide) (List.mem_cons_of_mem _ h)
      · unfold parseKeyPattern at hsome
        rw [if_neg hF] at hsome
        rcases name with _ | ⟨c, _ | ⟨d, name⟩⟩
        · cases hsome
        · refine toUpper_mem_knownNames ?_
          by_contra hneither
          have hnone : (if (c.toUpper.isAlpha || c.toUpper.isDigit) = true then
              some (UInt16.ofNat c.toUpper.toNat) else none) = none := if_neg hneither
          simp only [List.map_cons, List.map_nil, hnone] at hsome
          cases hsome
        · cases hsome

/-- **One name.**  `parse_key_token` reads the documented names, but for the letter F alone, and F01 to F09
on top. -/
theorem parseKeyToken_eq {name : Text} (hplus : '+' ∉ name) (hspace : name ≠ [' ']) :
    (IsLetterF name → parseKeyToken name = none ∧ documentedKey name = some 0x46) ∧
      (IsZeroPadded name → (parseKeyToken name).isSome ∧ documentedKey name = none) ∧
      (¬ IsLetterF name → ¬ IsZeroPadded name → parseKeyToken name = documentedKey name) := by
  refine ⟨?_, ?_, ?_⟩
  · intro hletter
    rw [parseKeyToken_eq_parseUpper, documentedKey, hletter]
    decide +kernel
  · intro hzero
    obtain ⟨hsome, hnone⟩ := parseUpper_zeroPadded _ hzero
    rw [parseKeyToken_eq_parseUpper, documentedKey, hnone]
    exact ⟨hsome, rfl⟩
  · intro hletter hzero
    by_cases hvocabulary : name.map Char.toUpper ∈ vocabulary.map Prod.fst
    · rw [parseKeyToken_eq_parseUpper, documentedKey]
      exact parseUpper_vocabulary _ hvocabulary hletter
    · have hnone : parseKeyToken name = none := by
        rw [← Option.not_isSome_iff_eq_none]
        intro hsome
        rcases List.mem_append.1 (mem_knownNames hplus hspace hsome) with h | h
        · exact hvocabulary h
        · exact hzero h
      have hfind : (vocabulary.find? fun e => e.1 = name.map Char.toUpper) = none := by
        rw [List.find?_eq_none]
        intro e he heq
        refine hvocabulary ?_
        rw [← of_decide_eq_true heq]
        exact List.mem_map_of_mem he
      rw [hnone, documentedKey, hfind]
      rfl

/-! ### A combination -/

/-- A documented name between blanks, with its key. -/
structure SpacedName where
  before : Text
  name : Text
  after : Text
  key : VirtualKey
  documented : documentedKey name = some key
  blank_before : ∀ c ∈ before, isWhitespace c = true
  blank_after : ∀ c ∈ after, isWhitespace c = true

def SpacedName.text (n : SpacedName) : Text := n.before ++ n.name ++ n.after

theorem documented_mem {name : Text} {key : VirtualKey} (h : documentedKey name = some key) :
    name.map Char.toUpper ∈ vocabulary.map Prod.fst := by
  rw [documentedKey, Option.map_eq_some_iff] at h
  obtain ⟨e, he, -⟩ := h
  have heq : e.1 = name.map Char.toUpper := of_decide_eq_true (List.find?_some
    (p := fun e : Text × VirtualKey => decide (e.1 = name.map Char.toUpper)) he)
  rw [← heq]
  exact List.mem_map_of_mem (List.mem_of_find?_eq_some he)

/-- A letter or a digit is neither a blank nor the separator. -/
theorem clean_of_toUpper {c : Char} (h : (c.toUpper.isAlpha || c.toUpper.isDigit) = true) :
    isWhitespace c = false ∧ c ≠ '+' := by
  rcases Nat.lt_or_ge c.toNat 128 with hascii | hbig
  · have hall : ∀ n < 128, ((Char.ofNat n).toUpper.isAlpha || (Char.ofNat n).toUpper.isDigit) = true →
        isWhitespace (Char.ofNat n) = false ∧ Char.ofNat n ≠ '+' := by decide +kernel
    exact ascii_cases (P := fun c => (c.toUpper.isAlpha || c.toUpper.isDigit) = true →
      isWhitespace c = false ∧ c ≠ '+') hall hascii h
  · rw [toUpper_of_nonAscii hbig, isAlpha_of_nonAscii hbig, isDigit_of_nonAscii hbig] at h
    cases h

theorem documented_clean {name : Text} {key : VirtualKey} (h : documentedKey name = some key) :
    name ≠ [] ∧ ∀ c ∈ name, isWhitespace c = false ∧ c ≠ '+' := by
  have hnames : ∀ u ∈ vocabulary.map Prod.fst,
      u.isEmpty = false ∧ (u.all fun c => c.isAlpha || c.isDigit) = true := by decide +kernel
  obtain ⟨hne, hchars⟩ := hnames _ (documented_mem h)
  constructor
  · rintro rfl
    cases hne
  · intro c hc
    exact clean_of_toUpper (List.all_eq_true.1 hchars _ (List.mem_map_of_mem hc))

namespace SpacedName

variable (n : SpacedName)

theorem name_clean : n.name ≠ [] ∧ ∀ c ∈ n.name, isWhitespace c = false ∧ c ≠ '+' :=
  documented_clean n.documented

theorem trim_text : Tokens.trim isWhitespace n.text = n.name :=
  Tokens.trim_append n.blank_before n.blank_after fun c hc => (n.name_clean.2 c hc).1

theorem plus_not_mem_text : '+' ∉ n.text := by
  intro hmem
  rcases List.mem_append.1 hmem with hmem | hmem
  · rcases List.mem_append.1 hmem with hmem | hmem
    · exact absurd (n.blank_before _ hmem) (by decide)
    · exact (n.name_clean.2 _ hmem).2 rfl
  · exact absurd (n.blank_after _ hmem) (by decide)

/-- The combination of some names. -/
def combo (ns : List SpacedName) : Text := ['+'].intercalate (ns.map text)

theorem tokens_combo (ns : List SpacedName) :
    Tokens.tokens isWhitespace '+' (combo ns) = ns.map name := by
  have hsep : ∀ t ∈ ns.map text, '+' ∉ t := by
    intro t ht
    obtain ⟨n, -, rfl⟩ := List.mem_map.1 ht
    exact n.plus_not_mem_text
  have htrim : Tokens.trim isWhitespace ∘ text = name := funext trim_text
  rw [combo, Tokens.tokens_intercalate hsep, List.map_map, htrim, List.filter_eq_self]
  intro t ht
  obtain ⟨n, -, rfl⟩ := List.mem_map.1 ht
  exact decide_eq_true n.name_clean.1

/-- A documented name is read as its key, unless it is the letter F. -/
theorem parseKeyToken_name (hletter : ¬ IsLetterF n.name) : parseKeyToken n.name = some n.key := by
  have hplus : '+' ∉ n.name := fun h => (n.name_clean.2 _ h).2 rfl
  have hspace : n.name ≠ [' '] := by
    intro h
    have hblank := (n.name_clean.2 ' ' (by rw [h]; exact List.mem_cons_self)).1
    exact absurd hblank (by decide)
  obtain ⟨-, hzero, hrest⟩ := parseKeyToken_eq hplus hspace
  rw [hrest hletter, n.documented]
  intro hpadded
  have hnone := (hzero hpadded).2
  rw [n.documented] at hnone
  cases hnone

theorem parseKeyToken_letterF (hletter : IsLetterF n.name) : parseKeyToken n.name = none := by
  rw [parseKeyToken_eq_parseUpper, hletter]
  decide +kernel

end SpacedName

/-- A list is read when all its names are. -/
theorem mapM_eq_none_iff {α β : Type} {f : α → Option β} {l : List α} :
    l.mapM f = none ↔ ∃ x ∈ l, f x = none := by
  induction l with
  | nil => simp
  | cons x l ih =>
      rw [List.mapM_cons, List.exists_mem_cons_iff, ← ih]
      cases f x with
      | none => simp
      | some y =>
          cases l.mapM f with
          | none => simp
          | some ys => simp

theorem mapM_eq_some_map {α β : Type} {f : α → Option β} {g : α → β} {l : List α}
    (h : ∀ x ∈ l, f x = some (g x)) : l.mapM f = some (l.map g) := by
  induction l with
  | nil => rfl
  | cons x l ih =>
      rw [List.mapM_cons, h x List.mem_cons_self, ih fun y hy => h y (List.mem_cons_of_mem x hy)]
      rfl

/-- A token of a combination is read unless it is the letter F, or undocumented and none of F01 to F09. -/
theorem parseKeyToken_eq_none_iff {spec t : Text} (ht : t ∈ Tokens.tokens isWhitespace '+' spec) :
    parseKeyToken t = none ↔ IsLetterF t ∨ (documentedKey t = none ∧ ¬ IsZeroPadded t) := by
  obtain ⟨hplus, htrim, hne⟩ := Tokens.mem_tokens ht
  have hspace : t ≠ [' '] := by
    rintro rfl
    exact absurd htrim (by decide)
  obtain ⟨hletter, hzero, hrest⟩ := parseKeyToken_eq hplus hspace
  by_cases hF : IsLetterF t
  · exact iff_of_true (hletter hF).1 (.inl hF)
  · by_cases hpadded : IsZeroPadded t
    · refine iff_of_false ?_ ?_
      · intro hnone
        have hsome := (hzero hpadded).1
        rw [hnone] at hsome
        cases hsome
      · rintro (h | h)
        · exact hF h
        · exact h.2 hpadded
    · rw [hrest hF hpadded]
      constructor
      · intro hnone
        exact .inr ⟨hnone, hpadded⟩
      · rintro (h | h)
        · exact absurd h hF
        · exact h.1

/-- **Key combinations against their vocabulary.**  Documented names, in any letter case and with any blanks
around the separators, are read as their keys in order exactly when none is the letter F alone; and any
text is refused exactly when it has the letter F alone, or a token that is neither documented nor one of F01
to F09. -/
theorem parseKeyCombo_vocabulary_iff (ns : List SpacedName) (spec : Text) :
    (parseKeyCombo (SpacedName.combo ns) = some (ns.map SpacedName.key) ↔
      ∀ n ∈ ns, ¬ IsLetterF n.name) ∧
    (parseKeyCombo spec = none ↔ ∃ t ∈ Tokens.tokens isWhitespace '+' spec,
      IsLetterF t ∨ (documentedKey t = none ∧ ¬ IsZeroPadded t)) := by
  constructor
  · rw [parseKeyCombo_eq, SpacedName.tokens_combo, List.mapM_map]
    constructor
    · intro hread n hn hletter
      have hnone : (ns.mapM fun n => parseKeyToken n.name) = none :=
        mapM_eq_none_iff.2 ⟨n, hn, n.parseKeyToken_letterF hletter⟩
      have hread : (ns.mapM fun n => parseKeyToken n.name) = some (ns.map SpacedName.key) := hread
      rw [hnone] at hread
      cases hread
    · intro hletters
      exact mapM_eq_some_map fun n hn => n.parseKeyToken_name (hletters n hn)
  · rw [parseKeyCombo_eq, mapM_eq_none_iff]
    refine exists_congr fun t => ?_
    exact and_congr_right fun ht => parseKeyToken_eq_none_iff ht

/-- Blanks around the names, and letters of either case. -/
theorem parseKeyCombo_vocabulary_iff_spaced :
    parseKeyCombo " cTRL +sHift+\tpageDown\n".toList = some [0x11, 0x10, 0x22] ∧
      parseKeyCombo " cTRL +Shfit".toList = none := by
  have hblank : ∀ c : Char, isWhitespace c = true → ∀ d ∈ [c], isWhitespace d = true :=
    fun c hc d hd => (List.mem_singleton.1 hd).symm ▸ hc
  let ns : List SpacedName :=
    [⟨[' '], "cTRL".toList, [' '], 0x11, by decide +kernel, hblank ' ' (by decide), hblank ' ' (by decide)⟩,
      ⟨[], "sHift".toList, [], 0x10, by decide +kernel, List.forall_mem_nil _, List.forall_mem_nil _⟩,
      ⟨['\t'], "pageDown".toList, ['\n'], 0x22, by decide +kernel, hblank '\t' (by decide), hblank '\n' (by decide)⟩]
  constructor
  · refine (parseKeyCombo_vocabulary_iff ns []).1.2 ?_
    intro n hn
    simp only [ns, List.mem_cons, List.not_mem_nil, or_false] at hn
    rcases hn with rfl | rfl | rfl
    · show ¬ IsLetterF "cTRL".toList
      decide
    · show ¬ IsLetterF "sHift".toList
      decide
    · show ¬ IsLetterF "pageDown".toList
      decide
  · refine (parseKeyCombo_vocabulary_iff ns " cTRL +Shfit".toList).2.2 ⟨"Shfit".toList, ?_, .inr ?_⟩
    · decide +kernel
    · decide +kernel

/-- Ctrl+F is refused, and F05 is read as F5. -/
theorem ctrlF_refused :
    (documentedKey "Ctrl".toList = some 0x11 ∧ documentedKey "F".toList = some 0x46 ∧
      parseKeyCombo "Ctrl+F".toList = none) ∧
    (documentedKey "F05".toList = none ∧ parseKeyCombo "F05".toList = some [0x74]) := by
  decide +kernel

end Penflow
