import Penflow.Gui.KeyNames
import Penflow.Gui.Launcher
import Penflow.Lib.Argv

/-!
# The elevated `schtasks` call

Without elevation `run_schtasks` cannot hand its arguments over one by one: `ShellExecuteExW` takes one
text, which `serialize_args` writes and the started program splits again by the rules of
`CommandLineToArgvW`.
-/

namespace Penflow

/-- The rules of `CommandLineToArgvW` for what follows the program name. -/
def argvRules : Argv.Rules Char where
  slash := '\\'
  quote := '"'
  blank c := c = ' ' || c = '\t'
  slash_ne_quote := by decide
  blank_slash := by decide
  blank_quote := by decide

/-- `str::replace` of one character -/
def replaceChar (pat : Char) (with_ : Text) (t : Text) : Text :=
  t.flatMap fun c => if c = pat then with_ else [c]

def needsQuote (a : Text) : Bool := a.isEmpty || a.any fun c => isWhitespace c || c = '"'

/-- One argument of `serialize_args`. -/
def serializeArg (a : Text) : Text :=
  if needsQuote a then
    let escaped := replaceChar '"' ['\\', '"'] (replaceChar '\\' ['\\', '\\'] a)
    ['"'] ++ escaped ++ ['"']
  else a

def serializeArgs (args : List Text) : Text := [' '].intercalate (args.map serializeArg)

/-! ### What the started program reads -/

/-- The two replacements, one after the other, escape the argument. -/
theorem replaceChar_escape (a : Text) :
    replaceChar '"' ['\\', '"'] (replaceChar '\\' ['\\', '\\'] a) = argvRules.escape a := by
  induction a with
  | nil => rfl
  | cons c a ih =>
      by_cases hslash : c = '\\'
      · have hstep : argvRules.escape ('\\' :: a) = '\\' :: '\\' :: argvRules.escape a :=
          Argv.Rules.escape_cons_slash (R := argvRules) a
        rw [hslash, hstep, ← ih]
        rfl
      · by_cases hquote : c = '"'
        · have hstep : argvRules.escape ('"' :: a) = '\\' :: '"' :: argvRules.escape a :=
            Argv.Rules.escape_cons_quote (R := argvRules) a
          rw [hquote, hstep, ← ih]
          rfl
        · have hstep : argvRules.escape (c :: a) = c :: argvRules.escape a :=
            Argv.Rules.escape_cons_plain (R := argvRules) hslash hquote a
          rw [hstep, ← ih]
          unfold replaceChar
          rw [List.flatMap_cons, if_neg hslash, List.singleton_append, List.flatMap_cons,
            if_neg hquote, List.singleton_append]

/-- What the started program makes of an argument. -/
def received (a : Text) : Text := if needsQuote a then argvRules.reread 0 a else a

theorem blank_isWhitespace {c : Char} (h : argvRules.blank c = true) : isWhitespace c = true := by
  have hc : c = ' ' ∨ c = '\t' := by simpa [argvRules] using h
  rcases hc with rfl | rfl
  · decide
  · decide

theorem denotes_serializeArg (a : Text) : argvRules.Denotes (serializeArg a) (received a) := by
  unfold serializeArg received
  by_cases h : needsQuote a
  · rw [if_pos h, if_pos h, replaceChar_escape]
    exact Argv.Rules.denotes_quoted
  · rw [if_neg h, if_neg h]
    obtain ⟨hne, hall⟩ : a ≠ [] ∧ ∀ c ∈ a, isWhitespace c = false ∧ c ≠ '"' := by
      simpa [needsQuote] using h
    refine Argv.Rules.denotes_word hne ?_ ?_
    · intro hquote
      exact (hall _ hquote).2 rfl
    · intro c hc
      cases hblank : argvRules.blank c with
      | false => rfl
      | true =>
          have hspace := (hall c hc).1
          rw [blank_isWhitespace hblank] at hspace
          cases hspace

theorem split_serializeArgs (args : List Text) :
    argvRules.split (serializeArgs args) = args.map received :=
  Argv.Rules.split_intercalate (by decide) fun a _ => denotes_serializeArg a

theorem received_eq_iff (a : Text) : received a = a ↔ (needsQuote a → argvRules.Guarded a) := by
  unfold received
  by_cases h : needsQuote a
  · rw [if_pos h]
    exact (Argv.Rules.reread_eq_iff 0 a).trans ⟨fun hg _ => hg, fun hg => hg h⟩
  · rw [if_neg h]
    exact iff_of_true rfl fun hq => absurd hq h

/-- A list of arguments is received unchanged. -/
theorem map_received_eq_iff (args : List Text) :
    args.map received = args ↔ ∀ a ∈ args, needsQuote a → argvRules.Guarded a := by
  have hid : args.map received = args ↔ args.map received = args.map id := by rw [List.map_id]
  rw [hid, List.map_inj_left]
  simp only [id_eq, received_eq_iff]

/-- **`serialize_args` against `CommandLineToArgvW`.**  The started program receives the arguments as
they were exactly when, in each argument that is quoted, every backslash is followed by another one,
by a quote, or by nothing. -/
theorem serializeArgs_split_iff (args : List Text) :
    argvRules.split (serializeArgs args) = args ↔
      ∀ a ∈ args, needsQuote a → argvRules.Guarded a := by
  rw [split_serializeArgs, map_received_eq_iff]

/-- A path in quotes, as in the `/TR` value: the backslash before the file name comes back twice. -/
theorem serializeArgs_programFiles :
    argvRules.split (serializeArgs ["\"C:\\Program Files\\x.exe\"".toList]) ≠
      ["\"C:\\Program Files\\x.exe\"".toList] := by
  decide

/-! ### The task's command -/

theorem guarded_quoted (exe : Text) :
    argvRules.Guarded (['"'] ++ exe ++ ['"']) ↔ argvRules.Guarded exe := by
  have hopen : argvRules.Guarded (['"'] ++ exe ++ ['"']) ↔ argvRules.Guarded (exe ++ ['"']) :=
    (Argv.Rules.guarded_replicate_cons (R := argvRules) (k := 0) (c := '"') (by decide)
      (exe ++ ['"'])).trans ⟨fun h => h.2, fun h => ⟨.inl rfl, h⟩⟩
  rw [hopen]
  unfold Argv.Rules.Guarded
  rw [List.isChain_append]
  constructor
  · intro h
    exact h.1
  · intro h
    refine ⟨h, List.isChain_singleton '"', ?_⟩
    intro x _ y hy _
    cases hy
    exact .inr rfl

theorem quoted_toList (exe : String) : (quoted exe).toList = ['"'] ++ exe.toList ++ ['"'] := by
  rw [quoted, String.toList_append, String.toList_append]
  rfl

/-- Before and behind the `/TR` value every argument is a plain word. -/
theorem createArgs_eq (exe : String) (withLogonTrigger : Bool) : ∃ pre post,
    (createArgs exe withLogonTrigger).map String.toList =
        pre ++ (['"'] ++ exe.toList ++ ['"']) :: post ∧
      ∀ a ∈ pre ++ post, needsQuote a = false := by
  rw [← quoted_toList]
  cases withLogonTrigger with
  | true =>
      exact ⟨["/Create", "/TN", adminTaskName, "/TR"].map String.toList,
        ["/SC", "ONLOGON", "/RL", "HIGHEST", "/F"].map String.toList, rfl, by decide⟩
  | false =>
      exact ⟨["/Create", "/TN", adminTaskName, "/TR"].map String.toList,
        ["/SC", "ONCE", "/ST", "00:00", "/SD", "01/01/2099", "/RL", "HIGHEST", "/F"].map String.toList,
        rfl, by decide⟩

/-- **The registered command.**  Whatever the trigger, `schtasks` receives the arguments that were
meant exactly when no backslash of the path stands before an ordinary character. -/
theorem split_createArgs_iff (exe : String) (withLogonTrigger : Bool) :
    argvRules.split (serializeArgs ((createArgs exe withLogonTrigger).map String.toList)) =
      (createArgs exe withLogonTrigger).map String.toList ↔ argvRules.Guarded exe.toList := by
  have htr : needsQuote (['"'] ++ exe.toList ++ ['"']) = true := rfl
  obtain ⟨pre, post, heq, hwords⟩ := createArgs_eq exe withLogonTrigger
  rw [split_serializeArgs, map_received_eq_iff, heq, ← guarded_quoted]
  constructor
  · intro h
    exact h _ (List.mem_append_right pre List.mem_cons_self) htr
  · intro h a ha hq
    rcases List.mem_append.1 ha with ha | ha
    · rw [hwords a (List.mem_append_left post ha)] at hq
      cases hq
    · rcases List.mem_cons.1 ha with rfl | ha
      · exact h
      · rw [hwords a (List.mem_append_right pre ha)] at hq
        cases hq

end Penflow
