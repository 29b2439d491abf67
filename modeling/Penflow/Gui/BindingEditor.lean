import Penflow.Gui.KeyNames
import Penflow.Lib.Run

/-!
# The binding editor

A row of the editor holds a binding as the modifiers and the key it shows.  It reads them from the saved
binding, whose key names are joined by `+`, and the page saves them joined again; the service then reads the
saved names with its own tokenizer.
-/

namespace Penflow

def modOrder : List Text := ["Ctrl".toList, "Alt".toList, "Shift".toList, "Win".toList]

/-- What `String.prototype.trim` removes. -/
def isJsSpace (c : Char) : Bool := (isWhitespace c && c.toNat != 0x85) || c.toNat == 0xFEFF

/-- `String.prototype.trim` -/
def jsTrim (t : Text) : Text := Tokens.trim isJsSpace t

/-- `String.prototype.length`, in UTF-16 units -/
def jsLength (t : Text) : ℕ := t.foldr (fun c n => (if c.toNat < 0x10000 then 1 else 2) + n) 0

def splitKeySpec (spec : Text) : List Text × Text :=
  (Tokens.tokens isJsSpace '+' spec).foldl
    (fun (s : List Text × Text) p => if p ∈ modOrder then (s.1 ++ [p], s.2) else (s.1, p)) ([], [])

/-- `[...mods, key].filter(Boolean)` -/
def keyList (mods : List Text) (key : Text) : List Text := (mods ++ [key]).filter (· ≠ [])

def joinKeySpec (mods : List Text) (key : Text) : Text := ['+'].intercalate (keyList mods key)

inductive BindingKind where
  | none
  | keyTap
  | keyHold
  | keyChord
  | mouseButton
  | eraserToggle
  deriving DecidableEq, Repr

def BindingKind.isKey : BindingKind → Bool
  | keyTap | keyHold | keyChord => true
  | none | mouseButton | eraserToggle => false

/-- The editor state of a binding. -/
structure Slot where
  kind : BindingKind
  mods : List Text
  key : Text
  mouse : SettingsMouseButton
  deriving DecidableEq, Repr

def bindingToState : SettingsBinding → Slot
  | .none => ⟨.none, [], [], .left⟩
  | .eraserToggle => ⟨.eraserToggle, [], [], .left⟩
  | .keyTap key => ⟨.keyTap, (splitKeySpec key).1, (splitKeySpec key).2, .left⟩
  | .keyHold key => ⟨.keyHold, (splitKeySpec key).1, (splitKeySpec key).2, .left⟩
  | .keyChord keys =>
      let spec := ['+'].intercalate keys
      ⟨.keyChord, (splitKeySpec spec).1, (splitKeySpec spec).2, .left⟩
  | .mouseButton button => ⟨.mouseButton, [], [], button⟩

def stateToBinding (s : Slot) : SettingsBinding :=
  match s.kind with
  | .none => .none
  | .eraserToggle => .eraserToggle
  | .keyTap => .keyTap (joinKeySpec s.mods s.key)
  | .keyHold => .keyHold (joinKeySpec s.mods s.key)
  | .keyChord => .keyChord (keyList s.mods s.key)
  | .mouseButton => .mouseButton s.mouse

/-! ### The row -/

structure KeyboardEvent where
  key : Text
  ctrlKey : Bool
  altKey : Bool
  shiftKey : Bool
  metaKey : Bool
  deriving DecidableEq, Repr

def KeyboardEvent.isModifier (e : KeyboardEvent) : Bool :=
  e.key = "Control".toList || e.key = "Shift".toList || e.key = "Alt".toList || e.key = "Meta".toList

/-- The modifiers held with the key. -/
def KeyboardEvent.mods (e : KeyboardEvent) : List Text :=
  (if e.ctrlKey then ["Ctrl".toList] else []) ++ (if e.altKey then ["Alt".toList] else []) ++
    (if e.shiftKey then ["Shift".toList] else []) ++ (if e.metaKey then ["Win".toList] else [])

/-- The name a captured key gets. -/
def KeyboardEvent.name (toUpperCase : Text → Text) (e : KeyboardEvent) : Text :=
  if e.key = " ".toList then "Space".toList
  else if jsLength e.key = 1 then toUpperCase e.key
  else e.key

namespace Slot

def toggleMod (s : Slot) (m : Text) : Slot :=
  if m ∈ s.mods then { s with mods := s.mods.filter (· ≠ m) } else { s with mods := s.mods ++ [m] }

def onKeyDown (toUpperCase : Text → Text) (s : Slot) (e : KeyboardEvent) : Slot :=
  if e.isModifier then
    if s.kind = .keyHold then
      { s with mods := [if e.key = "Meta".toList then "Win".toList else e.key], key := [] }
    else s
  else { s with mods := e.mods, key := e.name toUpperCase }

end Slot

/-- The options of the dropdown. -/
def kindOptions : List BindingKind := [.none, .keyTap, .keyHold, .mouseButton, .eraserToggle]

inductive RowEvent where
  | setKind (kind : BindingKind)
  | toggleMod (m : Text)
  | clear
  | setMouse (button : SettingsMouseButton)
  | keyDown (e : KeyboardEvent)
  deriving DecidableEq, Repr

/-- An event of the row; the details of a kind take events only while they are rendered. -/
def Slot.step (toUpperCase : Text → Text) (s : Slot) : RowEvent → Slot
  | .setKind kind => if kind ∈ kindOptions then { s with kind := kind } else s
  | .toggleMod m => if s.kind.isKey ∧ m ∈ modOrder then s.toggleMod m else s
  | .clear => if s.kind.isKey then { s with mods := [], key := [] } else s
  | .setMouse button => if s.kind = .mouseButton then { s with mouse := button } else s
  | .keyDown e => if s.kind.isKey then s.onKeyDown toUpperCase e else s

/-- The keys of a binding, in order. -/
def Binding.keys : Binding → List VirtualKey
  | keyTap vk => [vk]
  | keyHold keys => keys
  | keyChord keys => keys
  | none | mouseButton _ | eraserToggle => []

/-- **The three views agree.**  Saved and loaded again, the row shows the same modifiers and key, and the
service makes of the saved binding the keys that are shown, or nothing. -/
def Slot.Agrees (s : Slot) : Prop :=
  s.kind.isKey → ((bindingToState (stateToBinding s)).mods = s.mods ∧
      (bindingToState (stateToBinding s)).key = s.key) ∧
    (convertBinding (stateToBinding s) = .none ∨
      (keyList s.mods s.key).mapM parseKeyToken = some (convertBinding (stateToBinding s)).keys)

/-! ### The page reads its own names -/

/-- A key name that the page reads as one. -/
structure PlainKey (key : Text) : Prop where
  plus : '+' ∉ key
  trimmed : jsTrim key = key
  notMod : key ∉ modOrder

theorem PlainKey.nil : PlainKey [] := ⟨List.not_mem_nil, rfl, by decide⟩

theorem mod_plain {m : Text} (hm : m ∈ modOrder) : '+' ∉ m ∧ jsTrim m = m ∧ trim m = m ∧ m ≠ [] := by
  have hall : ∀ m ∈ modOrder, '+' ∉ m ∧ jsTrim m = m ∧ trim m = m ∧ m ≠ [] := by decide +kernel
  exact hall m hm

/-- The modifiers in their order, and the last of the other tokens. -/
theorem splitKeySpec_eq (spec : Text) : splitKeySpec spec =
    ((Tokens.tokens isJsSpace '+' spec).filter (· ∈ modOrder),
      ((Tokens.tokens isJsSpace '+' spec).filter (· ∉ modOrder)).getLastD []) := by
  unfold splitKeySpec
  suffices h : ∀ (ts mods : List Text) (key : Text), ts.foldl
      (fun (s : List Text × Text) p => if p ∈ modOrder then (s.1 ++ [p], s.2) else (s.1, p)) (mods, key) =
        (mods ++ ts.filter (· ∈ modOrder), (ts.filter (· ∉ modOrder)).getLastD key) from h _ [] []
  intro ts
  induction ts with
  | nil =>
      intro mods key
      simp
  | cons t ts ih =>
      intro mods key
      rw [List.foldl_cons]
      by_cases ht : t ∈ modOrder
      · rw [if_pos ht, ih]
        simp [ht]
      · rw [if_neg ht, ih]
        simp only [List.filter_cons, ht, decide_false, Bool.false_eq_true, if_false, not_false_eq_true,
          decide_true, if_true, List.getLastD_cons]

/-- Whatever the text was, the page shows known modifiers and a plain key. -/
theorem splitKeySpec_plain (spec : Text) :
    (∀ m ∈ (splitKeySpec spec).1, m ∈ modOrder) ∧ PlainKey (splitKeySpec spec).2 := by
  rw [splitKeySpec_eq]
  refine ⟨fun m hm => by simpa using (List.mem_filter.1 hm).2, ?_⟩
  cases hlast : (Tokens.tokens isJsSpace '+' spec).filter (· ∉ modOrder) with
  | nil => exact PlainKey.nil
  | cons t ts =>
      have hmem : (t :: ts).getLastD [] ∈ (Tokens.tokens isJsSpace '+' spec).filter (· ∉ modOrder) := by
        rw [hlast, List.getLastD_cons]
        exact List.getLastD_mem_cons
      obtain ⟨htoken, hnot⟩ := List.mem_filter.1 hmem
      obtain ⟨hplus, htrim, -⟩ := Tokens.mem_tokens htoken
      exact ⟨hplus, htrim, by simpa using hnot⟩

variable {mods : List Text} {key : Text}

theorem keyList_eq (hmods : ∀ m ∈ mods, m ∈ modOrder) : keyList mods key = mods ++ [key].filter (· ≠ []) := by
  unfold keyList
  rw [List.filter_append, List.filter_eq_self.2 fun m hm => by simpa using (mod_plain (hmods m hm)).2.2.2]

theorem plus_not_mem_keyList (hmods : ∀ m ∈ mods, m ∈ modOrder) (hkey : '+' ∉ key) {t : Text}
    (ht : t ∈ keyList mods key) : '+' ∉ t := by
  rcases List.mem_append.1 (List.mem_filter.1 ht).1 with ht | ht
  · exact (mod_plain (hmods t ht)).1
  · rw [List.mem_singleton.1 ht]
    exact hkey

/-- **Joined and split again**, known modifiers and a plain key come back. -/
theorem splitKeySpec_joinKeySpec (hmods : ∀ m ∈ mods, m ∈ modOrder) (hkey : PlainKey key) :
    splitKeySpec (joinKeySpec mods key) = (mods, key) := by
  have htokens : Tokens.tokens isJsSpace '+' (joinKeySpec mods key) = mods ++ [key].filter (· ≠ []) := by
    unfold joinKeySpec
    rw [Tokens.tokens_intercalate fun t ht => plus_not_mem_keyList hmods hkey.plus ht, keyList_eq hmods]
    have hmap : (mods ++ [key].filter (· ≠ [])).map (Tokens.trim isJsSpace) =
        mods ++ [key].filter (· ≠ []) := by
      conv_rhs => rw [← List.map_id (mods ++ [key].filter (· ≠ []))]
      refine List.map_congr_left fun t ht => ?_
      rcases List.mem_append.1 ht with ht | ht
      · exact (mod_plain (hmods t ht)).2.1
      · rw [List.mem_singleton.1 (List.mem_filter.1 ht).1]
        exact hkey.trimmed
    rw [hmap, List.filter_append, List.filter_filter, List.filter_eq_self.2 fun m hm => by
      simpa using (mod_plain (hmods m hm)).2.2.2]
    simp
  have hin : mods.filter (· ∈ modOrder) = mods := List.filter_eq_self.2 fun m hm => by simpa using hmods m hm
  have hout : mods.filter (· ∉ modOrder) = [] := by
    rw [List.filter_eq_nil_iff]
    intro m hm
    simpa using hmods m hm
  rw [splitKeySpec_eq, htokens, List.filter_append, List.filter_append, hin, hout]
  by_cases hnil : key = []
  · simp [hnil]
  · simp [hnil, hkey.notMod]

/-- **The round trip of the page, exactly.** -/
theorem splitKeySpec_joinKeySpec_iff : splitKeySpec (joinKeySpec mods key) = (mods, key) ↔
    (∀ m ∈ mods, m ∈ modOrder) ∧ PlainKey key := by
  constructor
  · intro h
    have hplain := splitKeySpec_plain (joinKeySpec mods key)
    rw [h] at hplain
    exact hplain
  · rintro ⟨hmods, hkey⟩
    exact splitKeySpec_joinKeySpec hmods hkey

/-- The row shows after a save and a load what the joined names split into. -/
theorem bindingToState_stateToBinding {s : Slot} (hkind : s.kind.isKey) :
    (bindingToState (stateToBinding s)).mods = (splitKeySpec (joinKeySpec s.mods s.key)).1 ∧
      (bindingToState (stateToBinding s)).key = (splitKeySpec (joinKeySpec s.mods s.key)).2 := by
  unfold stateToBinding
  cases hk : s.kind with
  | keyTap => exact ⟨rfl, rfl⟩
  | keyHold => exact ⟨rfl, rfl⟩
  | keyChord => exact ⟨rfl, rfl⟩
  | none | mouseButton | eraserToggle =>
      rw [hk] at hkind
      cases hkind

/-! ### The service reads the names of the page -/

/-- The name of a key whose two readings differ: the page keeps a blank that the service trims. -/
theorem parseKeyToken_of_trim_ne (hjs : jsTrim key = key) (hne : trim key ≠ key) :
    parseKeyToken key = none := by
  by_cases h : ∃ c ∈ key, 128 ≤ c.toNat
  · obtain ⟨c, hc, hbig⟩ := h
    exact parseKeyToken_of_nonAscii hbig hc
  · exfalso
    apply hne
    conv_rhs => rw [← hjs]
    refine Tokens.trim_congr fun c hc => ?_
    have hsmall : c.toNat < 128 := by
      by_contra hbig
      exact h ⟨c, hc, by omega⟩
    have hnel : (c.toNat != 0x85) = true := by
      rw [bne_iff_ne]
      omega
    have hbom : (c.toNat == 0xFEFF) = false := by
      rw [beq_eq_false_iff_ne]
      omega
    unfold isJsSpace
    rw [hnel, hbom, Bool.and_true, Bool.or_false]

theorem isSome_parseKeyToken_mod {m : Text} (hm : m ∈ modOrder) : (parseKeyToken m).isSome := by
  have hall : ∀ m ∈ modOrder, (parseKeyToken m).isSome := by decide +kernel
  exact hall m hm

/-- The modifiers are all known to the service. -/
theorem mapM_mods (hmods : ∀ m ∈ mods, m ∈ modOrder) :
    ∃ vks, mods.mapM parseKeyToken = some vks ∧ mods.filterMap parseKeyToken = vks ∧ (vks = [] ↔ mods = []) := by
  induction mods with
  | nil => exact ⟨[], rfl, rfl, by simp⟩
  | cons m mods ih =>
      obtain ⟨vks, hmap, hfilter, -⟩ := ih fun m' hm' => hmods m' (List.mem_cons_of_mem m hm')
      obtain ⟨vk, hvk⟩ := Option.isSome_iff_exists.1 (isSome_parseKeyToken_mod (hmods m List.mem_cons_self))
      refine ⟨vk :: vks, ?_, ?_, by simp⟩
      · rw [List.mapM_cons, hvk, hmap]
        rfl
      · rw [List.filterMap_cons_some hvk, hfilter]

theorem mapM_mods_append {vks : List VirtualKey} (h : mods.mapM parseKeyToken = some vks) (k : Text) :
    (mods ++ [k]).mapM parseKeyToken = (parseKeyToken k).map fun vk => vks ++ [vk] := by
  rw [List.mapM_append, h, List.mapM_cons, List.mapM_nil]
  cases parseKeyToken k with
  | none => rfl
  | some vk => rfl

/-- The names of a joined combination, as the service reads them. -/
theorem parseKeyCombo_joinKeySpec (hmods : ∀ m ∈ mods, m ∈ modOrder) (hkey : '+' ∉ key) :
    parseKeyCombo (joinKeySpec mods key) = (keyList mods (trim key)).mapM parseKeyToken := by
  rw [parseKeyCombo_eq]
  unfold joinKeySpec
  rw [Tokens.tokens_intercalate fun t ht => plus_not_mem_keyList hmods hkey ht, keyList_eq hmods,
    keyList_eq hmods, List.map_append, List.filter_append]
  congr 1
  have hmap : mods.map (Tokens.trim isWhitespace) = mods := by
    conv_rhs => rw [← List.map_id mods]
    exact List.map_congr_left fun m hm => (mod_plain (hmods m hm)).2.2.1
  rw [hmap, List.filter_eq_self.2 fun m hm => by simpa using (mod_plain (hmods m hm)).2.2.2]
  congr 1
  by_cases hnil : key = []
  · rw [hnil]
    rfl
  · have hone : [key].filter (· ≠ []) = [key] := by simp [hnil]
    rw [hone]
    rfl

/-- What a binding of one combination becomes. -/
theorem convertBinding_combo {b : SettingsBinding} {spec : Text} (hb : b = .keyTap spec ∨ b = .keyHold spec) :
    (convertBinding b = .none ↔ parseKeyCombo spec = none ∨ parseKeyCombo spec = some []) ∧
      ∀ vks, parseKeyCombo spec = some vks → (convertBinding b).keys = vks := by
  rcases hb with rfl | rfl
  · simp only [convertBinding]
    generalize parseKeyCombo spec = combo
    rcases combo with _ | _ | ⟨vk, _ | ⟨vk', vks⟩⟩
    · simp
    · simp [Binding.keys]
    · simp [Binding.keys]
    · simp [Binding.keys]
  · simp only [convertBinding]
    generalize parseKeyCombo spec = combo
    rcases combo with _ | _ | ⟨vk, vks⟩
    · simp
    · simp [Binding.keys]
    · simp [Binding.keys]

theorem convertBinding_keyChord (keys : List Text) : convertBinding (.keyChord keys) =
    if keys.filterMap parseKeyToken = [] then .none else .keyChord (keys.filterMap parseKeyToken) := by
  simp only [convertBinding]
  cases keys.filterMap parseKeyToken with
  | nil => rfl
  | cons vk vks => rfl

/-- **What the service can read.**  A combination loses a key that it trims to nothing, and takes one that it
trims to a known name; a chord loses a key without a known name.  Alone, a lost key leaves nothing. -/
def Readable (kind : BindingKind) (mods : List Text) (key : Text) : Prop :=
  match kind with
  | .keyTap | .keyHold =>
      trim key = key ∨ (trim key = [] ∧ mods = []) ∨ (trim key ≠ [] ∧ parseKeyToken (trim key) = none)
  | .keyChord => key = [] ∨ (parseKeyToken key).isSome ∨ mods = []
  | .none | .mouseButton | .eraserToggle => True

/-- The engine gets the keys that are shown, or nothing. -/
def EngineAgrees (b : SettingsBinding) (mods : List Text) (key : Text) : Prop :=
  convertBinding b = .none ∨ (keyList mods key).mapM parseKeyToken = some (convertBinding b).keys

theorem engineAgrees_combo_iff {b : SettingsBinding}
    (hb : b = .keyTap (joinKeySpec mods key) ∨ b = .keyHold (joinKeySpec mods key))
    (hmods : ∀ m ∈ mods, m ∈ modOrder) (hkey : PlainKey key) :
    EngineAgrees b mods key ↔
      trim key = key ∨ (trim key = [] ∧ mods = []) ∨ (trim key ≠ [] ∧ parseKeyToken (trim key) = none) := by
  obtain ⟨hnone, hkeys⟩ := convertBinding_combo hb
  have hcombo := parseKeyCombo_joinKeySpec hmods hkey.plus
  unfold EngineAgrees
  rw [hnone]
  by_cases htrim : trim key = key
  · rw [htrim] at hcombo
    refine iff_of_true ?_ (Or.inl htrim)
    cases hc : parseKeyCombo (joinKeySpec mods key) with
    | none => exact Or.inl (Or.inl rfl)
    | some vks =>
        rw [← hcombo, hc, hkeys vks hc]
        exact Or.inr rfl
  · obtain ⟨vks, hmap, -, hvks⟩ := mapM_mods hmods
    have hkeyne : key ≠ [] := by
      rintro rfl
      exact htrim rfl
    have hshown : (keyList mods key).mapM parseKeyToken = none := by
      have hone : [key].filter (· ≠ []) = [key] := by simp [hkeyne]
      rw [keyList_eq hmods, hone, mapM_mods_append hmap, parseKeyToken_of_trim_ne hkey.trimmed htrim]
      rfl
    rw [hshown]
    rw [keyList_eq hmods] at hcombo
    by_cases hblank : trim key = []
    · rw [hblank] at hcombo ⊢
      simp only [ne_eq, not_true_eq_false, decide_false, List.filter_cons, List.filter_nil, List.append_nil,
        Bool.false_eq_true, if_false] at hcombo
      rw [hcombo, hmap]
      simp [hvks, Ne.symm hkeyne]
    · have hone : [trim key].filter (· ≠ []) = [trim key] := by simp [hblank]
      rw [hone, mapM_mods_append hmap] at hcombo
      rw [hcombo]
      simp [htrim, hblank]

theorem engineAgrees_chord_iff (hmods : ∀ m ∈ mods, m ∈ modOrder) :
    EngineAgrees (.keyChord (keyList mods key)) mods key ↔
      key = [] ∨ (parseKeyToken key).isSome ∨ mods = [] := by
  obtain ⟨vks, hmap, hfilter, hvks⟩ := mapM_mods hmods
  unfold EngineAgrees
  rw [convertBinding_keyChord, keyList_eq hmods]
  by_cases hnil : key = []
  · refine iff_of_true ?_ (Or.inl hnil)
    have hone : [key].filter (· ≠ []) = [] := by simp [hnil]
    rw [hone, List.append_nil, hmap, hfilter]
    cases vks with
    | nil => exact Or.inl rfl
    | cons vk vks => exact Or.inr rfl
  · have hone : [key].filter (· ≠ []) = [key] := by simp [hnil]
    rw [hone, mapM_mods_append hmap, List.filterMap_append, hfilter]
    cases hparse : parseKeyToken key with
    | some vk =>
        refine iff_of_true (Or.inr ?_) (Or.inr (Or.inl rfl))
        rw [List.filterMap_cons_some hparse, List.filterMap_nil, if_neg (by simp)]
        rfl
    | none =>
        rw [List.filterMap_cons_none hparse, List.filterMap_nil, List.append_nil]
        by_cases hvks' : vks = []
        · exact iff_of_true (Or.inl (if_pos hvks')) (Or.inr (Or.inr (hvks.1 hvks')))
        · rw [if_neg hvks']
          have : mods ≠ [] := fun h => hvks' (hvks.2 h)
          simp [hnil, this]

/-! ### The row, event by event -/

/-- A row that shows what it saves, and whose keys the service reads. -/
structure Slot.Fits (s : Slot) : Prop where
  mods : ∀ m ∈ s.mods, m ∈ modOrder
  key : PlainKey s.key
  readable : Readable s.kind s.mods s.key

variable {s : Slot} {toUpperCase : Text → Text}

theorem engineAgrees_iff (hkind : s.kind.isKey) (hmods : ∀ m ∈ s.mods, m ∈ modOrder) (hkey : PlainKey s.key) :
    EngineAgrees (stateToBinding s) s.mods s.key ↔ Readable s.kind s.mods s.key := by
  unfold stateToBinding Readable
  cases hk : s.kind with
  | keyTap => exact engineAgrees_combo_iff (Or.inl rfl) hmods hkey
  | keyHold => exact engineAgrees_combo_iff (Or.inr rfl) hmods hkey
  | keyChord => exact engineAgrees_chord_iff hmods
  | none | mouseButton | eraserToggle =>
      rw [hk] at hkind
      cases hkind

/-- **One row, exactly.**  The three views of a key binding agree just when it fits. -/
theorem Slot.agrees_iff (hkind : s.kind.isKey) : s.Agrees ↔ s.Fits := by
  unfold Slot.Agrees
  rw [forall_prop_of_true hkind, (bindingToState_stateToBinding hkind).1,
    (bindingToState_stateToBinding hkind).2, ← Prod.mk.injEq]
  change (splitKeySpec (joinKeySpec s.mods s.key) = (s.mods, s.key) ∧
    EngineAgrees (stateToBinding s) s.mods s.key) ↔ _
  rw [splitKeySpec_joinKeySpec_iff]
  constructor
  · rintro ⟨⟨hmods, hkey⟩, hengine⟩
    exact ⟨hmods, hkey, (engineAgrees_iff hkind hmods hkey).1 hengine⟩
  · rintro ⟨hmods, hkey, hreadable⟩
    exact ⟨⟨hmods, hkey⟩, (engineAgrees_iff hkind hmods hkey).2 hreadable⟩

theorem Slot.Fits.agrees (h : s.Fits) : s.Agrees := fun hkind => (Slot.agrees_iff hkind).2 h hkind

/-- A row without key names fits. -/
theorem Slot.fits_nil (hmods : s.mods = []) (hkey : s.key = []) : s.Fits := by
  refine ⟨by simp [hmods], by rw [hkey]; exact PlainKey.nil, ?_⟩
  rw [hmods, hkey]
  unfold Readable
  cases s.kind with
  | keyTap | keyHold => exact Or.inl rfl
  | keyChord => exact Or.inl rfl
  | none | mouseButton | eraserToggle => trivial

/-- A loaded row fits as far as the service reads it. -/
theorem bindingToState_fits_iff (saved : SettingsBinding) : (bindingToState saved).Fits ↔
    Readable (bindingToState saved).kind (bindingToState saved).mods (bindingToState saved).key := by
  refine ⟨fun h => h.readable, fun h => ?_⟩
  cases saved with
  | keyTap key => exact ⟨(splitKeySpec_plain key).1, (splitKeySpec_plain key).2, h⟩
  | keyHold key => exact ⟨(splitKeySpec_plain key).1, (splitKeySpec_plain key).2, h⟩
  | keyChord keys => exact ⟨(splitKeySpec_plain _).1, (splitKeySpec_plain _).2, h⟩
  | none | eraserToggle | mouseButton button => exact Slot.fits_nil rfl rfl

/-- **The events that keep the views together.**  In a key kind no key is captured whose name the page does not
read as one key, and in `key_hold` not Control alone; and the service can read what a capture, a toggle
or a change of the kind leaves. -/
def Slot.Takes (toUpperCase : Text → Text) (s : Slot) : RowEvent → Prop
  | .setKind kind => kind ∈ kindOptions → Readable kind s.mods s.key
  | .toggleMod m => s.kind.isKey → m ∈ modOrder → Readable s.kind (s.toggleMod m).mods s.key
  | .clear => True
  | .setMouse _ => True
  | .keyDown e => s.kind.isKey →
      if e.isModifier then s.kind = .keyHold → e.key ≠ "Control".toList
      else PlainKey (e.name toUpperCase) ∧ Readable s.kind e.mods (e.name toUpperCase)

theorem Slot.toggleMod_mods {m : Text} (hm : m ∈ modOrder) (hmods : ∀ m ∈ s.mods, m ∈ modOrder) :
    ∀ m' ∈ (s.toggleMod m).mods, m' ∈ modOrder := by
  unfold Slot.toggleMod
  intro m' hm'
  split at hm'
  · exact hmods m' (List.mem_filter.1 hm').1
  · rcases List.mem_append.1 hm' with hm' | hm'
    · exact hmods m' hm'
    · rw [List.mem_singleton.1 hm']
      exact hm

theorem Slot.toggleMod_rest (s : Slot) (m : Text) :
    (s.toggleMod m).kind = s.kind ∧ (s.toggleMod m).key = s.key := by
  unfold Slot.toggleMod
  split
  · exact ⟨rfl, rfl⟩
  · exact ⟨rfl, rfl⟩

theorem mem_modOrder_of_mem_ite {held : Bool} {m m' : Text} (h : m ∈ if held then [m'] else [])
    (hm' : m' ∈ modOrder) : m ∈ modOrder := by
  cases held with
  | false => cases h
  | true =>
      rw [List.mem_singleton.1 h]
      exact hm'

/-- The modifiers of a captured key are known. -/
theorem KeyboardEvent.mods_mem (e : KeyboardEvent) : ∀ m ∈ e.mods, m ∈ modOrder := by
  intro m hm
  unfold KeyboardEvent.mods at hm
  rw [List.mem_append, List.mem_append, List.mem_append] at hm
  rcases hm with ((h | h) | h) | h
  · exact mem_modOrder_of_mem_ite h (by decide)
  · exact mem_modOrder_of_mem_ite h (by decide)
  · exact mem_modOrder_of_mem_ite h (by decide)
  · exact mem_modOrder_of_mem_ite h (by decide)

/-- A lone modifier is held under its own name, which is a known one except for Control. -/
theorem modifier_mem_iff {e : KeyboardEvent} (h : e.isModifier) :
    (if e.key = "Meta".toList then "Win".toList else e.key) ∈ modOrder ↔ e.key ≠ "Control".toList := by
  have hkeys : e.key = "Control".toList ∨ e.key = "Shift".toList ∨ e.key = "Alt".toList ∨
      e.key = "Meta".toList := by
    simpa only [KeyboardEvent.isModifier, Bool.or_eq_true, decide_eq_true_eq, or_assoc] using h
  rcases hkeys with hk | hk | hk | hk <;> rw [hk] <;> decide +kernel

theorem Slot.onKeyDown_fits_iff (h : s.Fits) (e : KeyboardEvent) :
    (s.onKeyDown toUpperCase e).Fits ↔
      if e.isModifier then s.kind = .keyHold → e.key ≠ "Control".toList
      else PlainKey (e.name toUpperCase) ∧ Readable s.kind e.mods (e.name toUpperCase) := by
  unfold Slot.onKeyDown
  by_cases hmod : e.isModifier = true
  · rw [if_pos hmod, if_pos hmod]
    by_cases hhold : s.kind = .keyHold
    · rw [if_pos hhold, forall_prop_of_true hhold, ← modifier_mem_iff hmod]
      constructor
      · intro hfits
        exact hfits.mods _ List.mem_cons_self
      · intro hmem
        refine ⟨fun m hm => ?_, PlainKey.nil, ?_⟩
        · rw [List.mem_singleton.1 hm]
          exact hmem
        · show Readable s.kind _ []
          rw [hhold]
          exact Or.inl rfl
    · rw [if_neg hhold]
      exact iff_of_true h fun hk => absurd hk hhold
  · rw [if_neg hmod, if_neg hmod]
    constructor
    · intro hfits
      exact ⟨hfits.key, hfits.readable⟩
    · rintro ⟨hkey, hreadable⟩
      exact ⟨e.mods_mem, hkey, hreadable⟩

/-- **The step lemma.** -/
theorem Slot.Fits.step_iff (h : s.Fits) (e : RowEvent) :
    (s.step toUpperCase e).Fits ↔ s.Takes toUpperCase e := by
  cases e with
  | setKind kind =>
      unfold Slot.step Slot.Takes
      dsimp only
      by_cases hk : kind ∈ kindOptions
      · rw [if_pos hk, forall_prop_of_true hk]
        exact ⟨fun hfits => hfits.readable, fun hreadable => ⟨h.mods, h.key, hreadable⟩⟩
      · rw [if_neg hk]
        exact iff_of_true h fun hk' => absurd hk' hk
  | toggleMod m =>
      unfold Slot.step Slot.Takes
      dsimp only
      by_cases hm : s.kind.isKey ∧ m ∈ modOrder
      · obtain ⟨hkind, hkey⟩ := s.toggleMod_rest m
        rw [if_pos hm, forall_prop_of_true hm.1, forall_prop_of_true hm.2]
        constructor
        · intro hfits
          rw [← hkind, ← hkey]
          exact hfits.readable
        · intro hreadable
          refine ⟨Slot.toggleMod_mods hm.2 h.mods, hkey ▸ h.key, ?_⟩
          rw [hkind, hkey]
          exact hreadable
      · rw [if_neg hm]
        exact iff_of_true h fun hkind hmem => absurd ⟨hkind, hmem⟩ hm
  | clear =>
      refine iff_of_true ?_ trivial
      unfold Slot.step
      dsimp only
      split
      · exact Slot.fits_nil rfl rfl
      · exact h
  | setMouse button =>
      refine iff_of_true ?_ trivial
      unfold Slot.step
      dsimp only
      split
      · exact ⟨h.mods, h.key, h.readable⟩
      · exact h
  | keyDown e =>
      unfold Slot.step Slot.Takes
      dsimp only
      by_cases hkind : s.kind.isKey = true
      · rw [if_pos hkind, forall_prop_of_true hkind]
        exact Slot.onKeyDown_fits_iff h e
      · rw [if_neg hkind]
        exact iff_of_true h fun hk => absurd hk hkind

/-- Only a change of the kind leads to a row without key names, and it leaves the names. -/
theorem Slot.Fits.step_of_not_key (h : s.Fits) (e : RowEvent)
    (hnot : ¬ (s.step toUpperCase e).kind.isKey) : (s.step toUpperCase e).Fits := by
  rw [h.step_iff]
  cases e with
  | setKind kind =>
      intro hk
      unfold Slot.step at hnot
      dsimp only at hnot
      rw [if_pos hk] at hnot
      unfold Readable
      cases kind with
      | keyTap | keyHold | keyChord => exact absurd rfl hnot
      | none | mouseButton | eraserToggle => trivial
  | toggleMod m =>
      intro hkind hm
      unfold Slot.step at hnot
      dsimp only at hnot
      rw [if_pos ⟨hkind, hm⟩, (s.toggleMod_rest m).1] at hnot
      exact absurd hkind hnot
  | clear => trivial
  | setMouse button => trivial
  | keyDown e =>
      intro hkind
      unfold Slot.step at hnot
      dsimp only at hnot
      rw [if_pos hkind] at hnot
      have hsame : (s.onKeyDown toUpperCase e).kind = s.kind := by
        unfold Slot.onKeyDown
        split
        · split <;> rfl
        · rfl
      rw [hsame] at hnot
      exact absurd hkind hnot

/-- **The editor, the saved settings and the engine.**  From any saved binding, the three views agree after
every event just when the service can read the loaded row and every event keeps them together. -/
theorem bindingEditor_agrees_iff (toUpperCase : Text → Text) (saved : SettingsBinding)
    (events : List RowEvent) :
    (∀ pre, pre <+: events → (pre.foldl (Slot.step toUpperCase) (bindingToState saved)).Agrees) ↔
      Readable (bindingToState saved).kind (bindingToState saved).mods (bindingToState saved).key ∧
        Run.Steps (Slot.step toUpperCase) (Slot.Takes toUpperCase) (bindingToState saved) events := by
  have hloaded := bindingToState_fits_iff saved
  by_cases hreadable : Readable (bindingToState saved).kind (bindingToState saved).mods
      (bindingToState saved).key
  · rw [and_iff_right hreadable]
    have hfits := hloaded.2 hreadable
    rw [Run.always_congr (I := Slot.Agrees) (J := Slot.Fits) (fun s hs => hs.agrees) (fun s e hs hagrees => ?_)
      hfits]
    · exact Run.always_iff (I := Slot.Fits) (fun s e hs => hs.step_iff e) hfits
    · by_cases hkind : (s.step toUpperCase e).kind.isKey = true
      · exact (Slot.agrees_iff hkind).1 hagrees
      · exact hs.step_of_not_key e hkind
  · refine iff_of_false (fun h => hreadable ?_) fun h => hreadable h.1
    have hagrees := h [] List.nil_prefix
    by_cases hkind : (bindingToState saved).kind.isKey = true
    · exact ((Slot.agrees_iff hkind).1 hagrees).readable
    · unfold Readable
      cases hk : (bindingToState saved).kind with
      | keyTap | keyHold | keyChord =>
          rw [hk] at hkind
          exact absurd rfl hkind
      | none | mouseButton | eraserToggle => trivial

/-- **Ctrl and `+`.**  The key is lost between the two `+`: the page shows no key, and the engine taps Ctrl. -/
theorem ctrl_plus_lost :
    ¬ ((bindingToState (.keyTap "E".toList)).step (fun t => t.map Char.toUpper)
      (.keyDown ⟨"+".toList, true, false, false, false⟩)).Agrees := by
  intro h
  have hkey := (h (by decide +kernel)).1.2
  exact absurd hkey (by decide +kernel)

end Penflow
