import Mathlib.Data.List.Chain

/-!
# Splitting a command line

A command line is one text; the program it starts splits it into arguments.  Blanks separate, except
between quotes.  A backslash stands for itself unless a quote follows its run: `2n` backslashes and a
quote are `n` backslashes and a delimiter, `2n + 1` are `n` backslashes and a quote that is part of
the argument.

`split` is that reading.  `escape` is the usual way to write an argument between quotes, every
backslash doubled and every quote behind a backslash; `reread` is what the reading makes of it, which
is not always the argument: a run of backslashes comes back doubled where no quote follows.
-/

namespace Argv

variable {α : Type*} [DecidableEq α]

/-- The characters a command line is split by. -/
structure Rules (α : Type*) where
  slash : α
  quote : α
  blank : α → Bool
  slash_ne_quote : slash ≠ quote
  blank_slash : blank slash = false
  blank_quote : blank quote = false

namespace Rules

variable (R : Rules α)

/-- The argument so far with `k` more backslashes. -/
def text (arg : Option (List α)) (k : ℕ) : List α := arg.getD [] ++ List.replicate k R.slash

/-- The argument so far, ended. -/
def close : Option (List α) → ℕ → List (List α)
  | none, _ => []
  | some a, k => [a ++ List.replicate k R.slash]

/-- The reading from inside: the argument begun, whether a quote is open, and the backslashes whose
meaning is still open. -/
def splitFrom : Option (List α) → Bool → ℕ → List α → List (List α)
  | arg, _, k, [] => R.close arg k
  | arg, quoted, k, c :: s =>
    if c = R.slash then splitFrom (some (arg.getD [])) quoted (k + 1) s
    else if c = R.quote then
      if k % 2 = 0 then splitFrom (some (R.text arg (k / 2))) (!quoted) 0 s
      else splitFrom (some (R.text arg (k / 2) ++ [R.quote])) quoted 0 s
    else if R.blank c && !quoted then R.close arg k ++ splitFrom none false 0 s
    else splitFrom (some (R.text arg k ++ [c])) quoted 0 s

/-- The arguments of a command line. -/
def split (s : List α) : List (List α) := R.splitFrom none false 0 s

variable {R} {arg : Option (List α)} {acc a w : List α} {quoted : Bool} {k : ℕ} {b c : α}

/-! ### One character -/

theorem splitFrom_slash (s : List α) :
    R.splitFrom arg quoted k (R.slash :: s) = R.splitFrom (some (arg.getD [])) quoted (k + 1) s := by
  rw [splitFrom, if_pos rfl]

theorem splitFrom_quote_even (s : List α) (n : ℕ) :
    R.splitFrom arg quoted (2 * n) (R.quote :: s) =
      R.splitFrom (some (R.text arg n)) (!quoted) 0 s := by
  rw [splitFrom, if_neg R.slash_ne_quote.symm, if_pos rfl, if_pos (by omega),
    show 2 * n / 2 = n from by omega]

theorem splitFrom_quote_odd (s : List α) (n : ℕ) :
    R.splitFrom arg quoted (2 * n + 1) (R.quote :: s) =
      R.splitFrom (some (R.text arg n ++ [R.quote])) quoted 0 s := by
  rw [splitFrom, if_neg R.slash_ne_quote.symm, if_pos rfl, if_neg (by omega),
    show (2 * n + 1) / 2 = n from by omega]

theorem splitFrom_blank (hb : R.blank b = true) (s : List α) :
    R.splitFrom arg false k (b :: s) = R.close arg k ++ R.split s := by
  have hslash : b ≠ R.slash := by
    rintro rfl
    rw [R.blank_slash] at hb
    cases hb
  have hquote : b ≠ R.quote := by
    rintro rfl
    rw [R.blank_quote] at hb
    cases hb
  rw [splitFrom, if_neg hslash, if_neg hquote, hb]
  rfl

/-- An ordinary character: the backslashes before it stand for themselves. -/
theorem splitFrom_plain (hslash : c ≠ R.slash) (hquote : c ≠ R.quote)
    (hblank : (R.blank c && !quoted) = false) (s : List α) :
    R.splitFrom arg quoted k (c :: s) = R.splitFrom (some (R.text arg k ++ [c])) quoted 0 s := by
  rw [splitFrom, if_neg hslash, if_neg hquote, hblank]
  rfl

/-- Any character but a blank begins an argument. -/
theorem splitFrom_none (hc : R.blank c = false) (s : List α) :
    R.splitFrom none false k (c :: s) = R.splitFrom (some []) false k (c :: s) := by
  rw [splitFrom, splitFrom, hc]
  rfl

/-! ### What a written argument denotes -/

/-- `w` is read as the one argument `a`, at the end of the line and before a blank. -/
def Denotes (R : Rules α) (w a : List α) : Prop :=
  R.split w = [a] ∧ ∀ b s, R.blank b = true → R.split (w ++ b :: s) = a :: R.split s

/-- **Written arguments, joined by a blank, are read one by one.** -/
theorem split_intercalate {ι : Type*} {f g : ι → List α} (hb : R.blank b = true) {is : List ι}
    (h : ∀ i ∈ is, R.Denotes (f i) (g i)) : R.split ([b].intercalate (is.map f)) = is.map g := by
  induction is with
  | nil => rfl
  | cons i is ih =>
      have hi := h i List.mem_cons_self
      cases is with
      | nil =>
          rw [List.map_cons, List.map_nil, List.intercalate_singleton, hi.1]
          rfl
      | cons j is =>
          have hrest := ih fun l hl => h l (List.mem_cons_of_mem i hl)
          rw [List.map_cons, List.map_cons, List.intercalate_cons_cons, List.append_assoc,
            List.singleton_append, hi.2 b _ hb, ← List.map_cons, hrest]
          rfl

/-! ### Arguments without quotes -/

/-- A word is literal to its end, its backslashes included. -/
theorem splitFrom_word (hquote : R.quote ∉ w) (hblank : ∀ c ∈ w, R.blank c = false) (s : List α)
    (hs : s = [] ∨ ∃ b t, R.blank b = true ∧ s = b :: t) :
    R.splitFrom (some acc) false k (w ++ s) =
      (acc ++ List.replicate k R.slash ++ w) :: R.split s.tail := by
  induction w generalizing acc k with
  | nil =>
      rw [List.append_nil, List.nil_append]
      rcases hs with rfl | ⟨b, t, hb, rfl⟩
      · rfl
      · rw [splitFrom_blank hb]
        rfl
  | cons c w ih =>
      have hw : R.quote ∉ w := fun h => hquote (List.mem_cons_of_mem c h)
      have hbw : ∀ d ∈ w, R.blank d = false := fun d hd => hblank d (List.mem_cons_of_mem c hd)
      rw [List.cons_append]
      by_cases hslash : c = R.slash
      · rw [hslash, splitFrom_slash, Option.getD_some, ih hw hbw, List.replicate_succ']
        simp only [List.append_assoc, List.singleton_append]
      · have hne : c ≠ R.quote := fun h => hquote (h ▸ List.mem_cons_self)
        rw [splitFrom_plain hslash hne (by rw [hblank c List.mem_cons_self]; rfl),
          ih hw hbw]
        simp only [text, Option.getD_some, List.replicate_zero, List.append_nil, List.append_assoc,
          List.singleton_append]

theorem denotes_word (hne : w ≠ []) (hquote : R.quote ∉ w)
    (hblank : ∀ c ∈ w, R.blank c = false) : R.Denotes w w := by
  obtain ⟨c, t, rfl⟩ := List.exists_cons_of_ne_nil hne
  have hc := hblank c List.mem_cons_self
  constructor
  · have hword : R.splitFrom (some []) false 0 (c :: t ++ []) = [[] ++ [] ++ c :: t] :=
      splitFrom_word hquote hblank [] (.inl rfl)
    rw [List.append_nil] at hword
    rw [split, splitFrom_none hc, hword]
    rfl
  · intro b s hb
    rw [split, List.cons_append, splitFrom_none hc, ← List.cons_append,
      splitFrom_word hquote hblank (b :: s) (.inr ⟨b, s, hb, rfl⟩)]
    rfl

/-! ### Arguments between quotes -/

/-- Every backslash doubled, every quote behind a backslash. -/
def escape (R : Rules α) (a : List α) : List α :=
  a.flatMap fun c => if c = R.slash then [R.slash, R.slash]
    else if c = R.quote then [R.slash, R.quote] else [c]

/-- What the reading makes of an escaped argument, `k` backslashes into a run. -/
def reread (R : Rules α) : ℕ → List α → List α
  | k, [] => List.replicate k R.slash
  | k, c :: a =>
    if c = R.slash then R.reread (k + 1) a
    else if c = R.quote then List.replicate k R.slash ++ c :: R.reread 0 a
    else List.replicate (2 * k) R.slash ++ c :: R.reread 0 a

theorem escape_cons_slash (a : List α) :
    R.escape (R.slash :: a) = R.slash :: R.slash :: R.escape a := by
  rw [escape, List.flatMap_cons, if_pos rfl]
  rfl

theorem escape_cons_quote (a : List α) :
    R.escape (R.quote :: a) = R.slash :: R.quote :: R.escape a := by
  rw [escape, List.flatMap_cons, if_neg R.slash_ne_quote.symm, if_pos rfl]
  rfl

theorem escape_cons_plain (hslash : c ≠ R.slash) (hquote : c ≠ R.quote) (a : List α) :
    R.escape (c :: a) = c :: R.escape a := by
  rw [escape, List.flatMap_cons, if_neg hslash, if_neg hquote]
  rfl

/-- **Between quotes.**  The escaped argument and its closing quote leave the reading outside the
quotes, with `reread` of the argument read. -/
theorem splitFrom_escape (s : List α) :
    R.splitFrom (some acc) true (2 * k) (R.escape a ++ R.quote :: s) =
      R.splitFrom (some (acc ++ R.reread k a)) false 0 s := by
  induction a generalizing acc k with
  | nil =>
      show R.splitFrom (some acc) true (2 * k) (R.quote :: s) = _
      rw [splitFrom_quote_even]
      rfl
  | cons c a ih =>
      by_cases hslash : c = R.slash
      · rw [hslash, escape_cons_slash, List.cons_append, List.cons_append, splitFrom_slash,
          splitFrom_slash, Option.getD_some, Option.getD_some, reread, if_pos rfl]
        exact ih (k := k + 1)
      · by_cases hquote : c = R.quote
        · rw [hquote, escape_cons_quote, List.cons_append, List.cons_append, splitFrom_slash,
            splitFrom_quote_odd, reread, if_neg R.slash_ne_quote.symm, if_pos rfl]
          refine (ih (k := 0)).trans ?_
          simp only [text, Option.getD_some, List.append_assoc, List.singleton_append]
        · rw [escape_cons_plain hslash hquote, List.cons_append,
            splitFrom_plain hslash hquote (by rw [Bool.not_true, Bool.and_false]), reread,
            if_neg hslash, if_neg hquote]
          refine (ih (k := 0)).trans ?_
          simp only [text, Option.getD_some, List.append_assoc, List.singleton_append]

theorem denotes_quoted : R.Denotes (R.quote :: R.escape a ++ [R.quote]) (R.reread 0 a) := by
  have hopen : ∀ s, R.split (R.quote :: R.escape a ++ R.quote :: s) =
      R.splitFrom (some (R.reread 0 a)) false 0 s := by
    intro s
    have hquote : R.splitFrom none false 0 (R.quote :: (R.escape a ++ R.quote :: s)) =
        R.splitFrom (some []) true 0 (R.escape a ++ R.quote :: s) := splitFrom_quote_even _ 0
    rw [split, List.cons_append]
    refine hquote.trans ?_
    exact splitFrom_escape (k := 0) s
  constructor
  · rw [hopen]
    show [R.reread 0 a ++ []] = _
    rw [List.append_nil]
  · intro b s hb
    rw [List.append_assoc, List.singleton_append, hopen, splitFrom_blank hb]
    show [R.reread 0 a ++ []] ++ R.split s = _
    rw [List.append_nil]
    rfl

/-! ### When an argument comes back as it was -/

/-- A backslash is followed by another one, by a quote, or by nothing. -/
def Guarded (R : Rules α) (a : List α) : Prop :=
  a.IsChain fun c d => c = R.slash → d = R.slash ∨ d = R.quote

omit [DecidableEq α] in
theorem guarded_replicate (k : ℕ) : R.Guarded (List.replicate k R.slash) := by
  refine List.isChain_replicate_of_rel k ?_
  intro _
  exact .inl rfl

omit [DecidableEq α] in
/-- A run of backslashes and what follows it. -/
theorem guarded_replicate_cons (hc : c ≠ R.slash) (a : List α) :
    R.Guarded (List.replicate k R.slash ++ c :: a) ↔ (k = 0 ∨ c = R.quote) ∧ R.Guarded a := by
  have htail : R.Guarded (c :: a) ↔ R.Guarded a := by
    cases a with
    | nil => exact iff_of_true (List.isChain_singleton c) List.isChain_nil
    | cons d a =>
        refine List.isChain_cons_cons.trans ⟨fun h => h.2, fun h => ⟨?_, h⟩⟩
        intro hslash
        exact absurd hslash hc
  cases k with
  | zero =>
      rw [List.replicate_zero, List.nil_append, htail]
      exact ⟨fun h => ⟨.inl rfl, h⟩, fun h => h.2⟩
  | succ k =>
      unfold Guarded at htail ⊢
      rw [List.isChain_append, htail]
      have hlast : (List.replicate (k + 1) R.slash).getLast? = some R.slash := by
        rw [List.getLast?_replicate, if_neg (Nat.succ_ne_zero k)]
      simp only [hlast, List.head?_cons, Option.mem_def, Option.some.injEq]
      constructor
      · rintro ⟨-, ha, hrel⟩
        refine ⟨.inr ?_, ha⟩
        exact (hrel _ rfl _ rfl rfl).resolve_left hc
      · rintro ⟨hk, ha⟩
        refine ⟨guarded_replicate (k + 1), ha, ?_⟩
        rintro x rfl y rfl -
        exact .inr (hk.resolve_left (Nat.succ_ne_zero k))

/-- Equal texts begin with equal runs of backslashes. -/
theorem replicate_append_inj (hc : c ≠ R.slash) {j : ℕ} {x y : List α}
    (h : List.replicate j R.slash ++ c :: x = List.replicate k R.slash ++ c :: y) :
    j = k ∧ x = y := by
  have hrun : ∀ (n : ℕ) (z : List α),
      (List.replicate n R.slash ++ c :: z).takeWhile (· = R.slash) = List.replicate n R.slash := by
    intro n z
    rw [List.takeWhile_append_of_pos (fun d hd => by simp [List.eq_of_mem_replicate hd]),
      List.takeWhile_cons_of_neg (by simpa using hc), List.append_nil]
  have hlen := congrArg (fun l : List α => (l.takeWhile (· = R.slash)).length) h
  simp only [hrun, List.length_replicate] at hlen
  subst hlen
  exact ⟨rfl, (List.cons.inj (List.append_cancel_left h)).2⟩

/-- **An escaped argument comes back** exactly when its backslashes are guarded. -/
theorem reread_eq_iff (k : ℕ) (a : List α) :
    R.reread k a = List.replicate k R.slash ++ a ↔ R.Guarded (List.replicate k R.slash ++ a) := by
  induction a generalizing k with
  | nil =>
      rw [List.append_nil]
      exact iff_of_true rfl (guarded_replicate k)
  | cons c a ih =>
      by_cases hslash : c = R.slash
      · have happend : List.replicate k R.slash ++ c :: a = List.replicate (k + 1) R.slash ++ a := by
          rw [hslash, List.replicate_succ', List.append_assoc]
          rfl
        rw [happend, reread, if_pos hslash]
        exact ih (k + 1)
      · have hzero : R.reread 0 a = a ↔ R.Guarded a := ih 0
        rw [guarded_replicate_cons hslash, reread, if_neg hslash]
        by_cases hquote : c = R.quote
        · rw [if_pos hquote, ← hzero]
          constructor
          · intro h
            exact ⟨.inr hquote, (replicate_append_inj hslash h).2⟩
          · rintro ⟨-, h⟩
            rw [h]
        · rw [if_neg hquote, ← hzero]
          constructor
          · intro h
            obtain ⟨hk, ha⟩ := replicate_append_inj hslash h
            exact ⟨.inl (by omega), ha⟩
          · rintro ⟨hk, h⟩
            rw [h, hk.resolve_right hquote]

end Rules

end Argv
